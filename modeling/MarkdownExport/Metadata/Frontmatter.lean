import MarkdownExport.Metadata.Value

/-! The frontmatter block: a record between two lines of three dashes. Lists and objects are laid
out one level deep and anything deeper is compact JSON. -/
namespace MarkdownExport.Frontmatter

def literal : Value → Text
  | .text t => t.quoted
  | v => v.toJson

def itemLine (v : Value) : Text := "  - " ++ literal v

def fieldLine (field : Text × Value) : Text := "  " ++ field.1 ++ ": " ++ literal field.2

/-- The lines of an entry; a null entry has none. -/
def entryLines (entry : Text × Value) : List Text :=
  match entry.2 with
  | .null => []
  | .list items => (entry.1 ++ ":") :: items.map itemLine
  | .object fields => (entry.1 ++ ":") :: fields.map fieldLine
  | v => [entry.1 ++ ": " ++ literal v]

def delimiter : Text := "---"

/-- The block of a record, or nothing if all its entries are null. -/
def render (record : Record) : Text :=
  if record.all fun entry => entry.2.isNull then []
  else (([delimiter] ++ record.flatMap entryLines ++ [delimiter]).map (· ++ ['\n'])).flatten

end MarkdownExport.Frontmatter
