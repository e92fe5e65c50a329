import MarkdownExport.Markdown.Rule
import MarkdownExport.Text.Digit

/-! The list of references at the end of a document. -/
namespace MarkdownExport.Markdown

/-- Drops a number in brackets, and blanks after it, from the start of a note. -/
def dropMarker (note : Text) : Text :=
  match note with
  | '[' :: rest =>
    match rest.span isDecimalDigit with
    | (_ :: _, ']' :: text) => Text.trimStart text
    | _ => note
  | _ => note

def footnoteLine (item : Node) : Text :=
  "[^" ++ (item.attribute? "data-word-footnote-id").getD [] ++ "]: " ++
    dropMarker item.textContent.trim ++ "\n"

def footnoteList (children : List Node) : Text :=
  match Node.findTags "li" children with
  | [] => []
  | notes => "\n## References\n\n" ++ notes.flatMap footnoteLine ++ "\n"

def isFootnoteSection (s : Subject) : Bool :=
  (s.attribute? "data-word-footnotes").any fun mark => !mark.isEmpty

/-- A section that is not marked as holding footnotes stands for its children. -/
def sectionRule : Rule := fun s =>
  if isFootnoteSection s then footnoteList s.children else s.block

end MarkdownExport.Markdown
