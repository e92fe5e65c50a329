import MarkdownExport.Html.Element

/-! A tree under construction, in which nodes can be moved. -/
namespace MarkdownExport.Html

inductive Content where
  /-- A list of nodes without an element of its own. -/
  | fragment
  | element (tag : Text) (attributes : List Attribute)
  /-- A text in pieces, the last one first. -/
  | text (pieces : List Text)
  | comment (content : Text)
  | doctype (name : Text)

structure Entry where
  content : Content
  parent : Option NodeId := none
  children : Array NodeId := #[]
  /-- The fragment that takes the children of a template, which has none itself. -/
  inner : Option NodeId := none

/-- Node 0 is the document. -/
structure Draft where
  entries : Array Entry

/-- Where a node goes: to the end of another, or in front of a table; if the table has no parent, to
the end of the element around it. -/
inductive Place where
  | under (node : NodeId)
  | before (table fallback : NodeId)

namespace Draft

def empty : Draft := ⟨#[{ content := .fragment }]⟩

def root : NodeId := 0

def modify (node : NodeId) (change : Entry → Entry) (d : Draft) : Draft :=
  ⟨d.entries.modify node change⟩

/-- Makes a node that stands nowhere yet; its number is the number of nodes before. -/
def add (content : Content) (d : Draft) : Draft := ⟨d.entries.push { content }⟩

def size (d : Draft) : Nat := d.entries.size

def isTemplate (vocabulary : Vocabulary) (tag : Text) : Bool :=
  vocabulary == .html && tag == "template".toList

/-- The element that is made next. -/
def nextElement (vocabulary : Vocabulary) (tag : Text) (d : Draft) : Element :=
  ⟨if isTemplate vocabulary tag then d.size + 1 else d.size, vocabulary, tag⟩

/-- Makes an element, and first the fragment for what a template holds. -/
def addElement (vocabulary : Vocabulary) (tag : Text) (attributes : List Attribute) (d : Draft) :
    Draft :=
  let content := Content.element tag attributes
  if isTemplate vocabulary tag then
    let inner := d.size
    ⟨(d.entries.push { content := .fragment }).push { content, inner := some inner }⟩
  else d.add content

def attributesOf (node : NodeId) (d : Draft) : List Attribute :=
  match d.entries[node]? with
  | some { content := .element _ attributes, .. } => attributes
  | _ => []

def setAttributes (attributes : List Attribute) (e : Entry) : Entry :=
  match e.content with
  | .element tag _ => { e with content := .element tag attributes }
  | _ => e

def childrenOf (node : NodeId) (d : Draft) : Array NodeId :=
  (d.entries[node]?.map Entry.children).getD #[]

def parentOf (node : NodeId) (d : Draft) : Option NodeId := d.entries[node]?.bind Entry.parent

/-- The node that takes what is put into `node`. -/
def hostOf (node : NodeId) (d : Draft) : NodeId := (d.entries[node]?.bind Entry.inner).getD node

def append (parent node : NodeId) (d : Draft) : Draft :=
  (d.modify node fun e => { e with parent := some parent }).modify parent fun e =>
    { e with children := e.children.push node }

def insertBefore (sibling node : NodeId) (children : Array NodeId) : Array NodeId :=
  let i := (children.findIdx? (· == sibling)).getD children.size
  (children.extract 0 i).push node ++ children.extract i children.size

/-- Takes a node out of its parent. -/
def detach (node : NodeId) (d : Draft) : Draft :=
  match d.parentOf node with
  | none => d
  | some parent =>
    (d.modify node fun e => { e with parent := none }).modify parent fun e =>
      { e with children := e.children.erase node }

/-- Moves all children of a node to the end of another. -/
def moveChildren (source target : NodeId) (d : Draft) : Draft :=
  let moved := d.childrenOf source
  let d := d.modify source fun e => { e with children := #[] }
  moved.foldl (fun d node => d.append target node) d

def insert (place : Place) (node : NodeId) (d : Draft) : Draft :=
  match place with
  | .under parent => d.append parent node
  | .before table fallback =>
    match d.parentOf table with
    | none => d.append fallback node
    | some parent =>
      (d.modify node fun e => { e with parent := some parent }).modify parent fun e =>
        { e with children := insertBefore table node e.children }

/-- The node that stands right before a place. -/
def nodeBefore? (place : Place) (d : Draft) : Option NodeId :=
  match place with
  | .under parent => (d.childrenOf parent).back?
  | .before table fallback =>
    match d.parentOf table with
    | none => (d.childrenOf fallback).back?
    | some parent =>
      let siblings := d.childrenOf parent
      match siblings.findIdx? (· == table) with
      | some (i + 1) => siblings[i]?
      | _ => none

def isText (node : NodeId) (d : Draft) : Bool :=
  match d.entries[node]? with
  | some { content := .text _, .. } => true
  | _ => false

def extendText (t : Text) (e : Entry) : Entry :=
  match e.content with
  | .text pieces => { e with content := .text (t :: pieces) }
  | _ => e

/-- Text joins a text that it follows. -/
def insertText (place : Place) (t : Text) (d : Draft) : Draft :=
  match (d.nodeBefore? place).filter fun node => d.isText node with
  | some node => d.modify node (extendText t)
  | none =>
    let node := d.size
    (d.add (.text [t])).insert place node

/-- The nodes that a number stands for. No branch of a tree is longer than the number of its nodes,
which is fuel enough. -/
def nodesAt (d : Draft) : (fuel : Nat) → NodeId → List Node
  | 0, _ => []
  | fuel + 1, node =>
    match d.entries[node]? with
    | none => []
    | some e =>
      let children := e.children.toList.flatMap (d.nodesAt fuel)
      match e.content with
      | .fragment => children
      | .element tag attributes => [.element tag attributes children]
      | .text pieces => [.text pieces.reverse.flatten]
      | .comment content => [.comment content]
      | .doctype name => [.doctype name]

def toNodes (d : Draft) : List Node := d.nodesAt d.size root

end Draft
end MarkdownExport.Html
