import MarkdownExport.Error

/-! A Word package: named parts, which are read as UTF-8. -/
namespace MarkdownExport.Word

/-- A part's content is looked at only when the part is read. -/
structure Part where
  name : Text
  content : Except Error ByteArray

abbrev Package := List Part

namespace Package

def corruption : Error := .io "corrupt deflate stream"
def checksumFailure : Error := .io "Invalid checksum"

def contentOf (archive : ByteArray) (entry : Zip.Entry) : Except Error ByteArray :=
  match entry.stored archive with
  | .error e => .error (.zip e)
  | .ok stored =>
    match entry.content? stored with
    | none => .error corruption
    | some content => if entry.isIntact content then .ok content else .error checksumFailure

/-- Of several entries with one name the last counts. -/
def ofZip (archive : ByteArray) : Except Error Package :=
  match Zip.entries archive with
  | .error e => .error (.zip e)
  | .ok entries => .ok (entries.reverse.map fun entry => ⟨entry.name, contentOf archive entry⟩)

def dropByteOrderMarks (t : Text) : Text := t.dropWhile (· == '\ufeff')

/-- The text of a part, or `none` if the package has no part of that name. -/
def text? (package : Package) (name : Text) : Except Error (Option Text) :=
  match package.find? fun part => part.name == name with
  | none => .ok none
  | some part =>
    match part.content with
    | .error e => .error e
    | .ok bytes =>
      match String.fromUTF8? bytes with
      | some s => .ok (some (dropByteOrderMarks s.toList))
      | none => .error (.invalidUtf8 name)

end Package
end MarkdownExport.Word
