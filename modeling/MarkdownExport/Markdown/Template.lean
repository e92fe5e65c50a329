import MarkdownExport.Markdown.Default

/-! Rules written down as data: a template is a list of pieces, and its result is the pieces'
results one after another. -/
namespace MarkdownExport.Markdown

inductive Piece where
  | literal (text : Text)
  | inline
  | blocks
  | text
  | escapedText
  | dialectName
  | isGfm
  | tagName
  | attributeValue (name : Text)
  | hasAttribute (name : Text)
  | inlineWithoutFirst (tag : Text)
  | trimmed (pieces : List Piece)
  | defaultRule (tag : Text)
  deriving Inhabited

mutual

def Piece.render (s : Subject) : Piece → Text
  | .literal text => text
  | .inline => s.inline
  | .blocks => s.block
  | .text => s.text
  | .escapedText => escape s.text
  | .dialectName => s.dialect.name
  | .isGfm => Text.ofBool (s.dialect == .gfm)
  | .tagName => s.tag.lower
  | .attributeValue name => (s.attribute? name).getD []
  | .hasAttribute name => Text.ofBool (s.attribute? name).isSome
  | .inlineWithoutFirst tag =>
    match Node.locate? (Node.isTag tag) s.children with
    | some found => inlineWithout s.dialect found.path s.children
    | none => []
  | .trimmed pieces => (renderPieces s pieces).trim
  | .defaultRule tag =>
    match defaultRules.find? tag with
    | some rule => rule s
    | none => []

def renderPieces (s : Subject) : List Piece → Text
  | [] => []
  | piece :: pieces => piece.render s ++ renderPieces s pieces

end

/-- The rule that a template describes. -/
def template (pieces : List Piece) : Rule := fun s => renderPieces s pieces

end MarkdownExport.Markdown
