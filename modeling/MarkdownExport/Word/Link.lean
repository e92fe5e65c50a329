import MarkdownExport.Text.Blank

/-! How much of a document its snapshot takes over. -/
namespace MarkdownExport.Word

inductive Profile where
  | faithful
  /-- Without images and without links to scripts. -/
  | strict
  deriving DecidableEq, Repr, Inhabited

def scriptSchemes : List Text := ["javascript:", "data:", "vbscript:"]

/-- The target without blanks around it, unless it is empty or can hold a script. -/
def sanitizeTarget (target : Text) : Option Text :=
  match target.trim with
  | [] => none
  | t => if scriptSchemes.any fun scheme => Text.startsWith (Text.lower t) scheme then none
         else some t

def Profile.target (profile : Profile) (target : Option Text) : Option Text :=
  match profile with
  | faithful => target
  | strict => target.bind sanitizeTarget

end MarkdownExport.Word
