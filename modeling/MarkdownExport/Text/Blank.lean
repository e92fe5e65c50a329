import MarkdownExport.Text.Basic

/-! Blank scalars (the Unicode property `White_Space`), trimming, and word counts. -/
namespace MarkdownExport

def isBlank (c : Char) : Bool :=
  let n := c.toNat
  (0x9 ≤ n && n ≤ 0xD) || n == 0x20 || n == 0x85 || n == 0xA0 || n == 0x1680 ||
    (0x2000 ≤ n && n ≤ 0x200A) || n == 0x2028 || n == 0x2029 || n == 0x202F ||
    n == 0x205F || n == 0x3000

@[simp] theorem isBlank_newline : isBlank '\n' = true := by decide
@[simp] theorem isBlank_space : isBlank ' ' = true := by decide

namespace Text

def allBlank (t : Text) : Bool := t.all isBlank

def trimStart (t : Text) : Text := t.dropWhile isBlank

def trimEnd (t : Text) : Text := (t.reverse.dropWhile isBlank).reverse

def trim (t : Text) : Text := trimEnd (trimStart t)

@[simp] theorem trimStart_nil : trimStart [] = [] := rfl
@[simp] theorem trimEnd_nil : trimEnd [] = [] := rfl
@[simp] theorem trim_nil : trim [] = [] := rfl

theorem trimEnd_append_blank (t : Text) {b : Char} (h : isBlank b = true) :
    trimEnd (t ++ [b]) = trimEnd t := by
  simp [trimEnd, h]

theorem trimEnd_append_nonblank (t : Text) {c : Char} (h : isBlank c = false) :
    trimEnd (t ++ [c]) = t ++ [c] := by
  simp [trimEnd, h]

/-- The maximal runs of scalars that are not blank. -/
def words (t : Text) : List Text := (t.splitOnP isBlank).filter fun w => !w.isEmpty

end Text
end MarkdownExport
