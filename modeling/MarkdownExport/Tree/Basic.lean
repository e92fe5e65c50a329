import MarkdownExport.Text.Basic

/-! Document trees. A document is the list of its top-level nodes. -/
namespace MarkdownExport

structure Attribute where
  name : Text
  value : Text
  deriving DecidableEq, Repr

inductive Node where
  | text (content : Text)
  | element (tag : Text) (attributes : List Attribute) (children : List Node)
  | comment (content : Text)
  | doctype (name : Text)
  | instruction (target data : Text)
  deriving Repr, Inhabited

/-- The value of the first attribute of that name, in any case of letters. -/
def Attribute.find? (name : Text) (attributes : List Attribute) : Option Text :=
  (attributes.find? fun a => a.name.equalsIgnoringCase name).map Attribute.value

namespace Node

def isElement : Node → Bool
  | element .. => true
  | _ => false

/-- The tag in lower case. -/
def tag? : Node → Option Text
  | element tag _ _ => some tag.lower
  | _ => none

def isTag (tag : Text) : Node → Bool
  | element t _ _ => t.equalsIgnoringCase tag
  | _ => false

def attributes : Node → List Attribute
  | element _ attributes _ => attributes
  | _ => []

def children : Node → List Node
  | element _ _ children => children
  | _ => []

def attribute? (name : Text) (n : Node) : Option Text := Attribute.find? name n.attributes

def hasAttribute (name : Text) (n : Node) : Bool := (n.attribute? name).isSome

def isCheckbox (n : Node) : Bool :=
  n.isTag "input" && (n.attribute? "type").any fun v => v.equalsIgnoringCase "checkbox"

mutual

/-- The text of a node: its text nodes in order, without comments and the like. -/
def textContent : Node → Text
  | text content => content
  | element _ _ children => textOf children
  | _ => []

/-- The text of a list of nodes. -/
def textOf : List Node → Text
  | [] => []
  | n :: ns => textContent n ++ textOf ns

end

@[simp] theorem textOf_append (ms ns : List Node) : textOf (ms ++ ns) = textOf ms ++ textOf ns := by
  induction ms with
  | nil => simp [textOf]
  | cons m ms ih => simp [textOf, ih]

end Node
end MarkdownExport
