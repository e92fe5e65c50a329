import MarkdownExport.Text.Blank
import MarkdownExport.Word.Block
import MarkdownExport.Word.Element
import MarkdownExport.Word.Feature
import MarkdownExport.Word.Inline
import MarkdownExport.Word.Link
import MarkdownExport.Word.Numbering
import MarkdownExport.Word.Relationships
import MarkdownExport.Word.Style

/-! Reading a document part. The reader is a fold over the part's events; its state holds what is
open at the moment and the blocks that are finished. -/
namespace MarkdownExport.Word

/-- What a part's content refers to, and how much of it is taken over. -/
structure Source where
  relationships : Relationships := []
  numbering : Numbering := []
  profile : Profile := .faithful

structure OpenFootnote where
  id : Text
  keep : Bool
  /-- The number of blocks that were there before it. -/
  firstBlock : Nat
  deriving DecidableEq, Repr

structure OpenParagraph where
  style : Option Text := none
  numberingId : Option Text := none
  content : Inline := {}
  deriving DecidableEq, Repr

structure OpenRun where
  format : RunFormat := {}
  content : Text := []
  deriving DecidableEq, Repr

structure OpenLink where
  target : Option Text
  content : Inline := {}
  deriving DecidableEq, Repr

structure OpenDrawing where
  source : Option Text := none
  description : Option Text := none
  deriving DecidableEq, Repr

structure OpenTable where
  rows : List (List Text) := []
  row : List Text := []
  cell : Option Text := none
  deriving DecidableEq, Repr

/-- Tables and links are stacks, innermost first. -/
structure State where
  blocks : List Block := []
  footnotes : List Footnote := []
  footnote : Option OpenFootnote := none
  tables : List OpenTable := []
  paragraph : Option OpenParagraph := none
  links : List OpenLink := []
  run : Option OpenRun := none
  drawing : Option OpenDrawing := none
  inRunProperties : Bool := false
  deletedDepth : Nat := 0
  capturesText : Bool := false
  capturesInstruction : Bool := false
  skipDepth : Nat := 0
  /-- Every feature that was seen, as often as it was seen, the last one first. -/
  seen : List Feature := []
  deriving DecidableEq, Repr

namespace State

def note (f : Feature) (s : State) : State := { s with seen := f :: s.seen }

/-- Changes the inline content that is being written: the innermost link's, else the
paragraph's. -/
def onInline (change : Inline → Inline) (s : State) : State :=
  match s.links with
  | link :: links => { s with links := { link with content := change link.content } :: links }
  | [] =>
    match s.paragraph with
    | some p => { s with paragraph := some { p with content := change p.content } }
    | none => s

/-- Text goes into the open run; text of formulas stands in none. -/
def pushText (html : Text) (s : State) : State :=
  match s.run with
  | some run => { s with run := some { run with content := run.content ++ html } }
  | none => s.onInline (Inline.pushRun {} html)

def referenceFields : List Text := ["REF ", "PAGEREF ", "NOTEREF "]

def isReference (instruction : Text) : Bool :=
  referenceFields.any fun field => instruction.trimStart.startsWith field

def fieldInstruction (instruction : Text) (s : State) : State :=
  if isReference instruction then s.note .crossRef else s

def onTable (change : OpenTable → OpenTable) (s : State) : State :=
  match s.tables with
  | t :: ts => { s with tables := change t :: ts }
  | [] => s

/-- The text of the innermost table's open cell. -/
def cell? (s : State) : Option Text := s.tables.head?.bind OpenTable.cell

def setCell (content : Text) (s : State) : State :=
  s.onTable fun t => { t with cell := some content }

def onRun (change : OpenRun → OpenRun) (s : State) : State :=
  { s with run := s.run.map change }

def onFormat (change : RunFormat → RunFormat) (s : State) : State :=
  if s.inRunProperties then s.onRun fun run => { run with format := change run.format } else s

def addBlock (b : Block) (s : State) : State := { s with blocks := s.blocks ++ [b] }

end State

def offValues : List String := ["0", "false", "off", "none"]

/-- Formats such as bold are on unless their value says otherwise. -/
def isOn (tag : Xml.Tag) : Bool :=
  match tag.value? "w:val" with
  | some v => !offValues.contains (String.ofList v)
  | none => true

def Source.linkTarget (σ : Source) (tag : Xml.Tag) : Option Text :=
  σ.profile.target <|
    match tag.value? "r:id" with
    | some id => σ.relationships.target? id
    | none => (tag.value? "w:anchor").map ('#' :: ·)

def openFootnote (tag : Xml.Tag) (s : State) : State :=
  let keep := match tag.value? "w:type" with
    | none => true
    | some kind => kind == "normal".toList
  { s with footnote := some ⟨(tag.value? "w:id").getD [], keep, s.blocks.length⟩ }

def openBreak (tag : Xml.Tag) (s : State) : State :=
  if s.run.isNone then s
  else if tag.value? "w:type" = some "page".toList then s.note .pageBreak
  else s.pushText "<br/>"

/-- A reference makes its whole run a superscript. -/
def openReference (tag : Xml.Tag) (s : State) : State :=
  match tag.value? "w:id" with
  | some id => s.onRun fun run =>
      ⟨{ run.format with superscript := true }, run.content ++ escapeText id⟩
  | none => s

def openPicture (σ : Source) (tag : Xml.Tag) (s : State) : State :=
  match (tag.value? "r:embed").bind σ.relationships.target? with
  | some target => { s with drawing := s.drawing.map fun d => { d with source := some target } }
  | none => s

def isWatermark (tag : Xml.Tag) : Bool :=
  Text.contains (Text.lower ((tag.value? "id").getD [])) "watermark"

def openElement (σ : Source) (tag : Xml.Tag) (s : State) : State :=
  match Element.ofName tag.name with
  | .footnote => openFootnote tag s
  | .paragraph => { s with paragraph := some {} }
  | .paragraphStyle =>
    { s with paragraph := s.paragraph.map fun p => { p with style := tag.value? "w:val" } }
  | .numberingId =>
    { s with paragraph := s.paragraph.map fun p => { p with numberingId := tag.value? "w:val" } }
  | .run => { s with run := some { format := { strike := 0 < s.deletedDepth } } }
  | .runProperties => { s with inRunProperties := true }
  | .bold => s.onFormat fun f => { f with bold := isOn tag }
  | .italic => s.onFormat fun f => { f with italic := isOn tag }
  | .strike => s.onFormat fun f => { f with strike := f.strike || isOn tag }
  | .verticalAlign =>
    s.onFormat fun f => { f with superscript := tag.value? "w:val" = some "superscript".toList }
  | .text => { s with capturesText := true }
  | .instruction => { s with capturesInstruction := true }
  | .tab => if !s.inRunProperties && s.run.isSome then s.pushText ['\t'] else s
  | .lineBreak => openBreak tag s
  | .hyperlink =>
    { s.note .hyperlink with links := { target := σ.linkTarget tag } :: s.links }
  | .inserted => s.note .revision
  | .deleted => { s.note .revision with deletedDepth := s.deletedDepth + 1 }
  | .footnoteReference => openReference tag (s.note .footnoteRef)
  | .endnoteReference => openReference tag (s.note .endnoteRef)
  | .commentReference => s.note .commentRef
  | .bookmark => s.note .bookmark
  | .simpleField =>
    match tag.value? "w:instr" with
    | some instruction => (s.note .field).fieldInstruction instruction
    | none => s.note .field
  | .fieldCharacter =>
    if tag.value? "w:fldCharType" = some "begin".toList then s.note .field else s
  | .contentControl => s.note .sdt
  | .drawing => { s with drawing := some {} }
  | .anchor => s.note .anchorImage
  | .drawingProperties =>
    { s with drawing := s.drawing.map fun d => { d with description := tag.value? "descr" } }
  | .picture => openPicture σ tag s
  | .chart => s.note .chart
  | .smartArt => s.note .smartArt
  | .shape => s.note .shape
  | .vectorShape => if isWatermark tag then s.note .watermark else s
  | .object => s.note .ole
  | .math => s.note .omml
  | .table => { s.note .table with tables := {} :: s.tables }
  | .row => s.onTable fun t => { t with row := [] }
  | .cell => s.onTable fun t => { t with cell := some [] }
  | .skipped | .other => s

def closeRun (s : State) : State :=
  match s.run with
  | some run => { s with run := none }.onInline (Inline.pushRun run.format run.content)
  | none => s

def linkMarkup (target : Option Text) (inner : Text) : Text :=
  match target with
  | some target =>
    if inner.isEmpty then inner
    else "<a href=\"" ++ escapeValue target ++ "\">" ++ inner ++ "</a>"
  | none => inner

def closeLink (s : State) : State :=
  match s.links with
  | link :: links =>
    { s with links := links }.onInline
      (Inline.pushMarkup (linkMarkup link.target link.content.finish))
  | [] => s

def imageMarkup (source : Text) (description : Option Text) : Text :=
  let alt := match description with
    | some d => " alt=\"" ++ escapeValue d ++ "\""
    | none => []
  "<img src=\"" ++ escapeValue source ++ "\"" ++ alt ++ "/>"

/-- An image comes after the text that its run holds so far. -/
def placeImage (html : Text) (s : State) : State :=
  let s := match s.run with
    | some run =>
      { s with run := some { run with content := [] } }.onInline
        (Inline.pushRun run.format run.content)
    | none => s
  s.onInline (Inline.pushMarkup html)

def closeDrawing (σ : Source) (s : State) : State :=
  match s.drawing with
  | some drawing =>
    let s := { s with drawing := none }
    match σ.profile, drawing.source with
    | .faithful, some source => placeImage (imageMarkup source drawing.description) s
    | _, _ => s
  | none => s

def blockKind (σ : Source) (p : OpenParagraph) : BlockKind :=
  match p.style.bind headingLevel? with
  | some level => .heading level
  | none =>
    match p.numberingId with
    | some id =>
      if id = ['0'] then .paragraph else .listItem ((σ.numbering.find? id).getD false)
    | none => .paragraph

/-- The content of a cell with one more paragraph. -/
def appendToCell (cell html : Text) : Text :=
  if html.allBlank then cell
  else if cell.isEmpty then html
  else cell ++ [' '] ++ html

/-- Blank paragraphs leave nothing. Within a cell a paragraph is text of the cell, else it is a
block. -/
def closeParagraph (σ : Source) (s : State) : State :=
  match s.paragraph with
  | some p =>
    let html := p.content.finish
    let s := { s with paragraph := none }
    match s.cell? with
    | some cell => s.setCell (appendToCell cell html)
    | none => if html.allBlank then s else s.addBlock (.text (blockKind σ p) html)
  | none => s

def closeCell (t : OpenTable) : OpenTable :=
  match t.cell with
  | some cell => { t with cell := none, row := t.row ++ [cell] }
  | none => t

def closeRow (t : OpenTable) : OpenTable := { t with rows := t.rows ++ [t.row], row := [] }

def closeTable (s : State) : State :=
  match s.tables with
  | t :: ts =>
    let s := { s with tables := ts }
    match s.cell? with
    | some cell => s.setCell (cell ++ renderTable t.rows)
    | none => s.addBlock (.table (renderTable t.rows))
  | [] => s

/-- The blocks since a footnote was opened are its content and not the document's. -/
def closeFootnote (s : State) : State :=
  match s.footnote with
  | some note =>
    let content := s.blocks.drop note.firstBlock
    let s := { s with footnote := none, blocks := s.blocks.take note.firstBlock }
    if note.keep then
      let html := List.intercalate [' '] (content.map Block.html)
      { s with footnotes := s.footnotes ++ [⟨note.id, html⟩] }
    else s
  | none => s

def closeElement (σ : Source) (name : Text) (s : State) : State :=
  match Element.ofName name with
  | .text => { s with capturesText := false }
  | .instruction => { s with capturesInstruction := false }
  | .runProperties => { s with inRunProperties := false }
  | .run => closeRun s
  | .hyperlink => closeLink s
  | .deleted => { s with deletedDepth := s.deletedDepth - 1 }
  | .drawing => closeDrawing σ s
  | .paragraph => closeParagraph σ s
  | .cell => s.onTable closeCell
  | .row => s.onTable closeRow
  | .table => closeTable s
  | .footnote => closeFootnote s
  | _ => s

/-- Field instructions are looked at and not shown. -/
def captureText (raw : Text) (s : State) : Except Xml.Error State :=
  if s.capturesText || s.capturesInstruction then
    match Xml.unescape raw with
    | .ok content =>
      .ok (if s.capturesInstruction then s.fieldInstruction content
           else s.pushText (escapeText content))
    | .error e => .error (.entity e)
  else .ok s

/-- Inside a skipped element only the depth of nesting is followed. An empty tag of a skipped
element skips nothing. -/
def step (σ : Source) (s : State) (event : Xml.Event) : Except Xml.Error State :=
  match s.skipDepth, event with
  | 0, .opened tag =>
    if Element.ofName tag.name = .skipped then .ok { s with skipDepth := 1 }
    else .ok (openElement σ tag s)
  | 0, .empty tag => .ok (closeElement σ tag.name (openElement σ tag s))
  | 0, .closed name => .ok (closeElement σ name s)
  | 0, .text raw => captureText raw s
  | depth + 1, .opened _ => .ok { s with skipDepth := depth + 2 }
  | depth + 1, .closed _ => .ok { s with skipDepth := depth }
  | _ + 1, _ => .ok s

def readEvents (σ : Source) (s : State) (events : List Xml.Event) : Except Xml.Error State :=
  events.foldlM (step σ) s

/-- Reads a part to its end. A fault of the text read so far comes before a fault of the markup
after it. -/
def readPart (σ : Source) (part : Xml.Scan) : Except Xml.Error State :=
  match readEvents σ {} part.events, part.failure with
  | .error e, _ => .error e
  | .ok _, some e => .error e
  | .ok s, none => .ok s

end MarkdownExport.Word
