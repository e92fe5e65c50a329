import MarkdownExport.Markdown.Rule
import MarkdownExport.Markdown.Start

/-! Lists, numbered lists and task lists. -/
namespace MarkdownExport.Markdown

inductive ListKind where
  | bulleted
  | numbered (start : Int)

/-- The first checkbox in an item, where the dialect knows tasks. -/
def taskBox? (dialect : Dialect) (item : Node) : Option Node.Located :=
  match dialect with
  | .gfm => Node.locate? Node.isCheckbox item.children
  | .standard => none

def ListKind.marker (i : Nat) : ListKind → Text
  | bulleted => "- "
  | numbered start => signedDecimal (itemNumber start i) ++ ". "

/-- The line of the item with index `i`. -/
def itemLine (dialect : Dialect) (kind : ListKind) (i : Nat) (item : Node) : Text :=
  match taskBox? dialect item with
  | some box =>
    let mark : Text := if box.node.hasAttribute "checked" then "x" else " "
    "- [" ++ mark ++ "] " ++ (inlineWithout dialect box.path item.children).trim ++ "\n"
  | none => kind.marker i ++ (inlineAll dialect item.children).trim ++ "\n"

def itemLinesFrom (dialect : Dialect) (kind : ListKind) (i : Nat) : List Node → Text
  | [] => []
  | item :: items => itemLine dialect kind i item ++ itemLinesFrom dialect kind (i + 1) items

def items (children : List Node) : List Node := children.filter (Node.isTag "li")

def list (kind : ListKind) (s : Subject) : Text :=
  match items s.children with
  | [] => "\n"
  | lis => "\n" ++ itemLinesFrom s.dialect kind 0 lis ++ "\n"

def bulletedList : Rule := list .bulleted

def numberedList : Rule := fun s =>
  list (.numbered (((s.attribute? "start").map startNumber).getD 1)) s

end MarkdownExport.Markdown
