import MarkdownExport.Text.Blank
import MarkdownExport.Text.Digit

/-! The numbers of ordered lists: signed, with 128 bits, kept at the largest one on overflow. -/
namespace MarkdownExport.Markdown

def greatestNumber : Int := Int.ofNat (Nat.pow 2 127) - 1

/-- The number at which a list starts. The text may begin with blanks and one sign, and what comes
after the digits is ignored; the number is 1 if there are no digits or they denote 0. -/
def startNumber (given : Text) : Int :=
  let (sign, digits) : Int × Text :=
    match given.trimStart with
    | '-' :: rest => (-1, rest)
    | '+' :: rest => (1, rest)
    | rest => (1, rest)
  match digitsValue (digits.takeWhile Char.isDigit) with
  | 0 => 1
  | value => sign * min greatestNumber value

/-- The number of the item with index `i`. -/
def itemNumber (start : Int) (i : Nat) : Int := min greatestNumber (start + i)

end MarkdownExport.Markdown
