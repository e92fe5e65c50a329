import MarkdownExport.Markdown.List
import MarkdownExport.Markdown.Table
import MarkdownExport.Markdown.Footnotes

/-! The default rules. -/
namespace MarkdownExport.Markdown

def heading (level : Nat) : Rule := fun s =>
  "\n" ++ List.replicate level '#' ++ " " ++ s.inline ++ "\n\n"

def paragraph : Rule := fun s => s.inline ++ "\n\n"

def lineBreak : Rule := fun _ => "\n"

def horizontalRule : Rule := fun _ => "\n---\n\n"

def quoteLines (t : Text) : Text := Text.unlines (t.lines.map fun line => "> " ++ line)

def blockquote : Rule := fun s =>
  match s.block.trim with
  | [] => []
  | text => "\n" ++ quoteLines text ++ "\n\n"

def preformatted : Rule := fun s =>
  "\n\x60\x60\x60" ++ (s.attribute? "data-lang").getD [] ++ "\n" ++ s.text ++
    "\n\x60\x60\x60\n\n"

/-- The first image and, in emphasis, the first caption. -/
def figure : Rule := fun s =>
  let picture := match Node.findTag? "img" s.children with
    | some img => image img.attributes
    | none => []
  let caption := match Node.findTag? "figcaption" s.children with
    | some c => "\n*" ++ c.textContent.trim ++ "*"
    | none => []
  picture ++ caption ++ "\n\n"

def standaloneImage : Rule := fun s => image s.attributes ++ "\n\n"

def defaultRules : RuleTable :=
  [("h1", heading 1), ("h2", heading 2), ("h3", heading 3), ("p", paragraph), ("br", lineBreak),
   ("hr", horizontalRule), ("blockquote", blockquote), ("ul", bulletedList),
   ("ol", numberedList), ("table", table), ("pre", preformatted), ("figure", figure),
   ("img", standaloneImage), ("section", sectionRule)]

/-- The block Markdown of a document before its spacing is normalized. -/
def rawMarkdown (dialect : Dialect) (overrides : RuleTable) (document : List Node) : Text :=
  blockAll dialect (defaultRules.merge overrides) document

def markdown (dialect : Dialect) (overrides : RuleTable) (document : List Node) : Text :=
  normalize (rawMarkdown dialect overrides document)

end MarkdownExport.Markdown
