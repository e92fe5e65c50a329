import MarkdownExport.Html.Builder

/-! Formats, which outlive their elements, and how a format ends inside a block that goes on. -/
namespace MarkdownExport.Html.Builder

/-- The formats since the last separator. -/
def recentFormats (b : Builder) : List Format := (b.formats.takeWhile Option.isSome).filterMap id

def isFormatOf (node : NodeId) (f : Option Format) : Bool := f.any fun f => f.node == node

def hasFormat (node : NodeId) (b : Builder) : Bool := b.formats.any (isFormatOf node)

def formatOf? (node : NodeId) (b : Builder) : Option Format :=
  (b.formats.filterMap id).find? fun f => f.node == node

def removeFormat (node : NodeId) (b : Builder) : Builder :=
  { b with formats := b.formats.filter fun f => !isFormatOf node f }

def replaceFormat (node : NodeId) (new : Format) (b : Builder) : Builder :=
  { b with formats := b.formats.map fun f => if isFormatOf node f then some new else f }

/-- Puts `new` in the list as the next format after that of `node`. -/
def insertAfter (node : NodeId) (new : Format) : List (Option Format) → List (Option Format)
  | [] => []
  | f :: fs => if isFormatOf node f then some new :: f :: fs else f :: insertAfter node new fs

def separateFormats (b : Builder) : Builder := { b with formats := none :: b.formats }

/-- Forgets the formats up to the last separator, and that too. -/
def clearFormats (b : Builder) : Builder :=
  { b with formats := (b.formats.dropWhile Option.isSome).tail }

def reopen (b : Builder) (f : Format) : Builder :=
  let (e, b) := b.insertElement .html f.tag f.attributes
  (b.push e).replaceFormat f.node { f with node := e.node }

/-- Opens again the formats whose elements were closed by something else. -/
def reopenFormats (b : Builder) : Builder :=
  (b.recentFormats.takeWhile fun f => !b.stack.holdsNode f.node).reverse.foldl reopen b

/-- Attributes are compared without their order. -/
def sameFormat (tag : Text) (attributes : List Attribute) (f : Format) : Bool :=
  f.tag == tag && f.attributes.length == attributes.length &&
    f.attributes.all fun a => attributes.contains a

/-- Of equal formats at most three are kept. -/
def insertFormat (tag : Text) (attributes : List Attribute) (b : Builder) : Builder :=
  let equal := b.recentFormats.filter (sameFormat tag attributes)
  let b := match equal.drop 2 |>.getLast? with
    | some f => b.removeFormat f.node
    | none => b
  let (e, b) := b.insertElement .html tag attributes
  { b.push e with formats := some ⟨e.node, tag, attributes⟩ :: b.formats }

/-- Closes the element `tag`, unless a special element is in the way. -/
def closeOrdinary (tag : Text) (b : Builder) : Builder :=
  if b.stack.reaches (Element.isA tag) (Element.isOneOf special) then
    b.onStack fun s => ((s.closeImplied tag).popUntil (Element.isA tag)).tail
  else b

/-- How far the formats between a block and an outer format are moved out of that. -/
structure Move where
  builder : Builder
  /-- The outermost node that has been moved. -/
  last : NodeId
  /-- The new elements, the outermost one first. -/
  kept : List Element := []
  /-- How many elements have been looked at. -/
  count : Nat := 0
  /-- The node after whose format the new one comes. -/
  bookmark : Option NodeId := none

/-- Opens an element again around what has been moved, if it is one of the first three and has a
format; any other is closed. -/
def Move.step (m : Move) (e : Element) : Move :=
  let m := { m with count := m.count + 1 }
  match m.builder.formatOf? e.node with
  | none => m
  | some f =>
    if 3 < m.count then { m with builder := m.builder.removeFormat f.node }
    else
      let new := m.builder.draft.nextElement .html f.tag
      let b := m.builder.onDraft fun d =>
        ((d.addElement .html f.tag f.attributes).detach m.last).append new.node m.last
      { m with
        builder := b.replaceFormat f.node { f with node := new.node }
        last := new.node
        kept := new :: m.kept
        bookmark := some (m.bookmark.getD new.node) }

/-- Ends the format `f`, whose element `opened` holds the block `block`, by moving it into the block.
From inside out the stack is `above`, `block`, `between`, `opened`, `outer`. -/
def moveInto (f : Format) (above : Stack) (block : Element) (between : Stack) (outer : Stack)
    (b : Builder) : Builder :=
  let m := between.foldl Move.step { builder := b, last := block.node }
  let b := m.builder
  let place := match outer with
    | e :: _ => b.placeIn e
    | [] => .under Draft.root
  let new := b.draft.nextElement .html f.tag
  let b := b.onDraft fun d =>
    let d := ((d.detach m.last).insert place m.last).addElement .html f.tag f.attributes
    (d.moveChildren block.node new.node).append block.node new.node
  let entry : Format := { f with node := new.node }
  let b := { b with stack := above ++ new :: block :: m.kept.reverse ++ outer }
  match m.bookmark with
  | none => b.replaceFormat f.node entry
  | some node => { b with formats := insertAfter node entry b.formats }.removeFormat f.node

/-- Ends the last format `tag`; blocks inside its element keep it for what they hold so far. -/
def endFormat (tag : Text) : (rounds : Nat) → Builder → Builder
  | 0, b => b
  | rounds + 1, b =>
    match b.recentFormats.find? fun f => f.tag == tag with
    | none => b.closeOrdinary tag
    | some f =>
      match b.stack.span fun e => e.node ≠ f.node with
      | (_, []) => b.removeFormat f.node
      | (inner, _ :: outer) =>
        if inner.any endsScope then b
        else match inner.reverse.span fun e => !e.isOneOf special with
          | (_, []) => { b with stack := outer }.removeFormat f.node
          | (between, block :: above) =>
            endFormat tag rounds (b.moveInto f above.reverse block between.reverse outer)

def endFormatTag (tag : Text) (b : Builder) : Builder :=
  match b.stack with
  | e :: s =>
    if e.isA tag && !b.hasFormat e.node then { b with stack := s } else b.endFormat tag 8
  | [] => b

end MarkdownExport.Html.Builder
