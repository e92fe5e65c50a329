import MarkdownExport.Html.EntityName

/-! Character references in HTML text and attribute values. -/
namespace MarkdownExport.Html

/-- What a numeral in the range of C1 controls denotes: a scalar of Windows-1252. -/
def c1Meanings : List (Nat × Nat) :=
  [(0x80, 0x20AC), (0x82, 0x201A), (0x83, 0x0192), (0x84, 0x201E), (0x85, 0x2026),
   (0x86, 0x2020), (0x87, 0x2021), (0x88, 0x02C6), (0x89, 0x2030), (0x8A, 0x0160),
   (0x8B, 0x2039), (0x8C, 0x0152), (0x8E, 0x017D), (0x91, 0x2018), (0x92, 0x2019),
   (0x93, 0x201C), (0x94, 0x201D), (0x95, 0x2022), (0x96, 0x2013), (0x97, 0x2014),
   (0x98, 0x02DC), (0x99, 0x2122), (0x9A, 0x0161), (0x9B, 0x203A), (0x9C, 0x0153),
   (0x9E, 0x017E), (0x9F, 0x0178)]

def replacement : Char := '\ufffd'

/-- The scalar that a number denotes; what is no scalar becomes the replacement character. -/
def scalarOf (n : Nat) : Char :=
  let n := (c1Meanings.lookup n).getD n
  if n = 0 then replacement
  else if h : n.isValidChar then Char.ofNatAux n h else replacement

def hexValue? (c : Char) : Option Nat :=
  if c.isDigit then some (c.toNat - 48)
  else if 'a' ≤ c ∧ c ≤ 'f' then some (c.toNat - 87)
  else if 'A' ≤ c ∧ c ≤ 'F' then some (c.toNat - 55)
  else none

def dropSemicolon (t : Text) : Text := (Text.dropStart? [';'] t).getD t

/-- The scalar of the number that the digits at the start denote, and what follows. -/
def numeral? (base : Nat) (value? : Char → Option Nat) (t : Text) : Option (Text × Text) :=
  match t.span fun c => (value? c).isSome with
  | ([], _) => none
  | (digits, rest) =>
    some ([scalarOf (digits.foldl (fun n c => base * n + (value? c).getD 0) 0)],
      dropSemicolon rest)

def decimalValue? (c : Char) : Option Nat := if c.isDigit then some (c.toNat - 48) else none

/-- Whether a text begins with a number that is referred to without a semicolon. -/
def lacksSemicolon (t : Text) : Bool :=
  let lacks (rest : Text) : Bool := !Text.startsWith rest [';']
  match t with
  | '&' :: '#' :: 'x' :: rest | '&' :: '#' :: 'X' :: rest =>
    lacks (rest.dropWhile fun c => (hexValue? c).isSome)
  | '&' :: '#' :: rest => lacks (rest.dropWhile Char.isDigit)
  | _ => false

/-- Whether a name without a semicolon counts before `rest` in an attribute value. -/
def endsName (rest : Text) : Bool :=
  match rest with
  | c :: _ => c ≠ '=' && !c.isAlphanum
  | [] => true

/-- A whole name with a semicolon counts first, and else the start of it that needs none. -/
def named? (inAttribute : Bool) (t : Text) : Option (Text × Text) :=
  let (name, rest) := t.span Char.isAlphanum
  let complete := match rest with
    | ';' :: rest => (scalarsOf? name).map fun scalars => (scalars, rest)
    | _ => none
  complete.or <| lenientNames.findSome? fun (name, n) =>
    match Text.dropStart? name.toList t with
    | some rest => if inAttribute && !endsName rest then none else some ([Char.ofNat n], rest)
    | none => none

/-- Reads a reference in the text after an ampersand. -/
def reference? (inAttribute : Bool) : Text → Option (Text × Text)
  | '#' :: 'x' :: digits | '#' :: 'X' :: digits => numeral? 16 hexValue? digits
  | '#' :: digits => numeral? 10 decimalValue? digits
  | t => named? inAttribute t

def decodeFrom (inAttribute : Bool) : (fuel : Nat) → Text → Text
  | 0, t => t
  | _ + 1, [] => []
  | fuel + 1, c :: t =>
    if c = '&' then
      match reference? inAttribute t with
      | some (scalars, rest) => scalars ++ decodeFrom inAttribute fuel rest
      | none => c :: decodeFrom inAttribute fuel t
    else c :: decodeFrom inAttribute fuel t

/-- Text with its references replaced; an ampersand that begins none stays. -/
def decode (inAttribute : Bool) (t : Text) : Text := decodeFrom inAttribute t.length t

end MarkdownExport.Html
