import MarkdownExport.Html.Draft
import MarkdownExport.Html.RawText

/-! The state in which an HTML tree is built, and how nodes get their place in it. -/
namespace MarkdownExport.Html

inductive Mode where
  | initial | beforeHtml | beforeHead | inHead | afterHead | inBody | inText
  | inTable | inTableText | inCaption | inColumnGroup | inTableBody | inRow | inCell | inTemplate
  | afterBody | inFrameset | afterFrameset | afterAfterBody | afterAfterFrameset
  deriving DecidableEq, Repr

/-- A formatting element that is opened again where its effect goes on. -/
structure Format where
  node : NodeId
  tag : Text
  attributes : List Attribute
  deriving DecidableEq, Repr

structure Builder where
  draft : Draft := .empty
  mode : Mode := .initial
  /-- The mode to go back to after text. -/
  returnMode : Mode := .initial
  stack : Stack := []
  /-- The last format comes first; `none` separates the formats of a cell from those around it. -/
  formats : List (Option Format) := []
  /-- The modes of the open templates, innermost first. -/
  templateModes : List Mode := []
  head : Option NodeId := none
  form : Option NodeId := none
  /-- Text in a table, of which it is not known yet whether it can stand there. -/
  tableText : Text := []
  /-- The text without markup that comes next, and the element it is in. -/
  raw : Option (RawKind × Text) := none
  /-- Whether a table may stand in a paragraph, as in documents that do not begin with a doctype. -/
  looseTables : Bool := false
  /-- Whether what cannot stand in a table is put in front of it. -/
  fosters : Bool := false
  /-- Whether a newline at the start of the next text is dropped. -/
  dropsNewline : Bool := false
  /-- Whether the body can still be replaced by frames. -/
  allowsFrames : Bool := true

/-- A mode either deals with a token or has it looked at again in another mode. -/
inductive Outcome where
  | done (b : Builder)
  | again (b : Builder)

namespace Builder

def onStack (change : Stack → Stack) (b : Builder) : Builder := { b with stack := change b.stack }

def onDraft (change : Draft → Draft) (b : Builder) : Builder := { b with draft := change b.draft }

def enter (mode : Mode) (b : Builder) : Builder := { b with mode := mode }

def forbidFrames (b : Builder) : Builder := { b with allowsFrames := false }

/-- The place in front of the innermost table, unless a template is further in. -/
def fosterPlace (d : Draft) : Stack → Place
  | [] => .under Draft.root
  | [e] => .under e.node
  | e :: f :: s =>
    if e.isA "template" then .under (d.hostOf e.node)
    else if e.isA "table" then .before e.node f.node
    else fosterPlace d (f :: s)

def placeIn (target : Element) (b : Builder) : Place :=
  if b.fosters && target.isOneOf tableParts then fosterPlace b.draft b.stack
  else .under (b.draft.hostOf target.node)

def place (b : Builder) : Place :=
  match b.stack with
  | e :: _ => b.placeIn e
  | [] => .under Draft.root

/-- Makes a node of its own at a place. -/
def insertNode (place : Place) (content : Content) (b : Builder) : Builder :=
  let node := b.draft.size
  b.onDraft fun d => (d.add content).insert place node

def insertComment (t : Text) (b : Builder) : Builder := b.insertNode b.place (.comment t)

def insertText (t : Text) (b : Builder) : Builder :=
  if t.isEmpty then b
  else
    let place := b.place
    b.onDraft fun d => d.insertText place t

/-- Makes an element at the current place, and gives it. -/
def insertElement (vocabulary : Vocabulary) (tag : Text) (attributes : List Attribute) (b : Builder) :
    Element × Builder :=
  let place := b.place
  let e := b.draft.nextElement vocabulary tag
  (e, b.onDraft fun d => (d.addElement vocabulary tag attributes).insert place e.node)

def push (e : Element) (b : Builder) : Builder := { b with stack := e :: b.stack }

/-- Makes an element and opens it. -/
def insert (tag : Text) (attributes : List Attribute) (b : Builder) : Builder :=
  let (e, b) := b.insertElement .html tag attributes
  b.push e

def insertVoid (tag : Text) (attributes : List Attribute) (b : Builder) : Builder :=
  (b.insertElement .html tag attributes).2

/-- Opens an element that holds only text. -/
def insertRaw (kind : RawKind) (tag : Text) (attributes : List Attribute) (b : Builder) : Builder :=
  { b.insert tag attributes with
    mode := .inText, returnMode := b.mode, raw := some (kind, tag) }

def closeParagraph (b : Builder) : Builder := b.onStack Stack.closeParagraph

/-- Adds the attributes that an element does not have. -/
def addAttributes (node : NodeId) (attributes : List Attribute) (b : Builder) : Builder :=
  let all := attributes.foldl addAttribute (b.draft.attributesOf node)
  b.onDraft fun d => d.modify node (Draft.setAttributes all)

/-- A repeated start tag of the root element adds its attributes. -/
def addToRoot (attributes : List Attribute) (b : Builder) : Builder :=
  if b.stack.holds "template" then b
  else match b.stack.getLast? with
    | some e => b.addAttributes e.node attributes
    | none => b

/-- The mode that goes with the open elements. -/
def modeOf (b : Builder) : Stack → Mode
  | [] => .inBody
  | e :: s =>
    let isOutermost := s.isEmpty
    if e.isOneOf cells && !isOutermost then .inCell
    else if e.isA "tr" then .inRow
    else if e.isOneOf rowGroups then .inTableBody
    else if e.isA "caption" then .inCaption
    else if e.isA "colgroup" then .inColumnGroup
    else if e.isA "table" then .inTable
    else if e.isA "template" then b.templateModes.headD .inTemplate
    else if e.isA "head" && !isOutermost then .inHead
    else if e.isA "body" then .inBody
    else if e.isA "frameset" then .inFrameset
    else if e.isA "html" then if b.head.isSome then .afterHead else .beforeHead
    else b.modeOf s

def resetMode (b : Builder) : Builder := b.enter (b.modeOf b.stack)

end Builder
end MarkdownExport.Html
