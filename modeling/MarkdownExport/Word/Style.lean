import MarkdownExport.Text.Blank
import MarkdownExport.Text.Digit

/-! Paragraph styles that make headings. -/
namespace MarkdownExport.Word

/-- A number of eight bits, with or without a plus sign. -/
def byte? (t : Text) : Option Nat :=
  let digits := (Text.dropStart? ['+'] t).getD t
  if digits.isEmpty || !digits.all Char.isDigit then none
  else if digitsValue digits < 256 then some (digitsValue digits)
  else none

/-- The level of a heading style: 1 for a title, and no lower than 3. Blanks and the case of letters
do not count. -/
def headingLevel? (style : Text) : Option Nat :=
  let key := Text.lower (style.filter fun c => !isBlank c)
  if key = "title".toList then some 1
  else
    ((Text.dropStart? "heading" key).bind byte?).bind fun level =>
      if level = 0 then none else some (min level 3)

end MarkdownExport.Word
