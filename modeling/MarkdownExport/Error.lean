import MarkdownExport.Xml.Event
import MarkdownExport.Zip.Archive

/-! Why a Word document cannot be read. -/
namespace MarkdownExport

inductive Error where
  | zip (e : Zip.Error)
  | xml (part : Text) (e : Xml.Error)
  | io (detail : Text)
  | missingPart (name : Text)
  | invalidUtf8 (name : Text)
  deriving DecidableEq, Repr

namespace Error

/-- What lies under a failure, from the outside in. -/
def causes : Error → List Text
  | zip e => e.message :: e.causes
  | xml _ e => e.message :: e.causes
  | io detail => [detail]
  | missingPart _ | invalidUtf8 _ => []

def message : Error → Text
  | zip e => "invalid docx container: " ++ e.message
  | xml part e => "malformed xml in " ++ part ++ ": " ++ e.message
  | io detail => "read failed: " ++ detail
  | missingPart name => "missing required part \x60" ++ name ++ "\x60"
  | invalidUtf8 name => "part \x60" ++ name ++ "\x60 is not valid UTF-8"

end Error
end MarkdownExport
