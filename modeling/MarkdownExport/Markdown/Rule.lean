import MarkdownExport.Markdown.Inline
import MarkdownExport.Markdown.Spacing

/-! Block Markdown: each element goes to the rule of its tag, and an element without a rule stands
for its children. -/
namespace MarkdownExport.Markdown

/-- An element that a rule is asked to render. -/
structure Subject where
  tag : Text
  attributes : List Attribute
  children : List Node
  dialect : Dialect
  /-- The block Markdown of each child, worked out when a rule first asks for it. -/
  blocks : Thunk (List Text)

namespace Subject

def attribute? (s : Subject) (name : Text) : Option Text := Attribute.find? name s.attributes

def text (s : Subject) : Text := Node.textOf s.children

def inline (s : Subject) : Text := inlineAll s.dialect s.children

def block (s : Subject) : Text := s.blocks.get.flatten

end Subject

abbrev Rule := Subject → Text

/-- Rules by tag. In a table that is in use the tags are in lower case. -/
abbrev RuleTable := Dictionary Rule

/-- `defaults` with `overrides` on top, whose tags may have letters of any case. -/
def RuleTable.merge (defaults overrides : RuleTable) : RuleTable :=
  defaults.overlay (overrides.map fun entry => (entry.1.lower, entry.2))

mutual

def blockNode (dialect : Dialect) (rules : RuleTable) : Node → Text
  | .text content => escape content
  | .element tag attributes children =>
    match rules.find? tag.lower with
    | some rule =>
      rule ⟨tag, attributes, children, dialect, .mk fun _ => blockEach dialect rules children⟩
    | none => (blockEach dialect rules children).flatten
  | _ => []

def blockEach (dialect : Dialect) (rules : RuleTable) : List Node → List Text
  | [] => []
  | n :: ns => blockNode dialect rules n :: blockEach dialect rules ns

end

def blockAll (dialect : Dialect) (rules : RuleTable) (ns : List Node) : Text :=
  (blockEach dialect rules ns).flatten

@[simp] theorem blockAll_nil (dialect : Dialect) (rules : RuleTable) :
    blockAll dialect rules [] = [] := by
  simp [blockAll, blockEach]

theorem blockAll_cons (dialect : Dialect) (rules : RuleTable) (n : Node) (ns : List Node) :
    blockAll dialect rules (n :: ns) = blockNode dialect rules n ++ blockAll dialect rules ns := by
  simp [blockAll, blockEach]

end MarkdownExport.Markdown
