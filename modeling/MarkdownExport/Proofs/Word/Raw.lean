import MarkdownExport.Proofs.Word.Ancestry
import MarkdownExport.Proofs.Word.Grouping
import MarkdownExport.Proofs.Word.Noted

/-! Paragraphs as any producer may write them: with all kinds of properties, with texts, tabs,
breaks, references and pictures in any order within their runs, and with the runs in revisions,
links, fields and controls within each other. Each is given with the pieces that it adds to its
line. -/
namespace MarkdownExport.Word
open Document (Piece lineHtml)

/-- A tag of an element of that kind. -/
structure Tagged (e : Element) where
  tag : Xml.Tag
  kind : Element.ofName tag.name = e

namespace Tagged
variable {e : Element}

def opened (t : Tagged e) : Xml.Event := .opened t.tag
def empty (t : Tagged e) : Xml.Event := .empty t.tag
def closed (t : Tagged e) : Xml.Event := .closed t.tag.name

/-- An element with its content. -/
def around (t : Tagged e) (inside : List Xml.Event) : List Xml.Event :=
  t.opened :: (inside ++ [t.closed])

end Tagged

namespace Raw

/-- Kinds of elements among the properties of runs that mean something to the reader. -/
def isProperty : Element → Bool
  | .bold | .italic | .strike | .verticalAlign | .inserted | .deleted => true
  | _ => false

structure Property where
  tag : Xml.Tag
  kind : isProperty (Element.ofName tag.name) = true

/-- Kinds of elements that are counted and change nothing else. -/
def isNoted : Element → Bool
  | .commentReference | .bookmark | .fieldCharacter => true
  | _ => false

structure Noted where
  tag : Xml.Tag
  kind : isNoted (Element.ofName tag.name) = true

/-- Kinds of elements of pictures and objects. -/
def isDetail : Element → Bool
  | .anchor | .drawingProperties | .picture | .chart | .smartArt | .shape | .vectorShape
  | .object => true
  | _ => false

/-- A start or an end of an element of a picture or an object. -/
structure Detail where
  event : Xml.Event
  kind : (eventElement? event).any isDetail = true

/-- A text with its entities, and what it stands for. -/
structure Written where
  raw : Text
  text : Text
  reads : Xml.unescape raw = .ok text

structure Reference where
  tag : Xml.Tag
  kind : Element.ofName tag.name = .footnoteReference ∨ Element.ofName tag.name = .endnoteReference

inductive Part where
  | properties (tag : Tagged .runProperties) (items : List Property)
  | text (tag : Tagged .text) (pieces : List Written)
  | instruction (tag : Tagged .instruction) (pieces : List Written)
  | tab (tag : Tagged .tab)
  | lineBreak (tag : Tagged .lineBreak)
  | reference (r : Reference)
  | noted (n : Noted)
  | drawing (tag : Tagged .drawing) (details : List Detail)
  | detail (d : Detail)

structure Run where
  tag : Tagged .run
  parts : List Part

/-- Kinds of elements around runs that are counted and change nothing else. -/
def isGroup : Element → Bool
  | .inserted | .contentControl | .simpleField | .math => true
  | _ => false

structure Group where
  tag : Xml.Tag
  kind : isGroup (Element.ofName tag.name) = true

/-- Formulas have texts and properties that stand in no run. -/
inductive Item where
  | run (r : Run)
  | text (tag : Tagged .text) (pieces : List Written)
  | properties (tag : Tagged .runProperties) (items : List Property)
  | noted (n : Noted)
  | group (g : Group) (items : List Item)
  | deleted (tag : Tagged .deleted) (items : List Item)
  | link (tag : Tagged .hyperlink) (items : List Item)

/-- Properties of a paragraph. Its mark has properties like a run, and there are stops for tabs. -/
inductive Setting where
  | style (tag : Tagged .paragraphStyle)
  | numbering (tag : Tagged .numberingId)
  | mark (tag : Tagged .runProperties) (items : List Property)
  | tab (tag : Tagged .tab)

structure Paragraph where
  tag : Tagged .paragraph
  settings : List Setting
  items : List Item

/-! WordprocessingML. -/

def propertyEvents (tag : Tagged .runProperties) (items : List Property) : List Xml.Event :=
  tag.around (items.map fun i => .empty i.tag)

def textEvents {e : Element} (tag : Tagged e) (pieces : List Written) : List Xml.Event :=
  tag.around (pieces.map fun w => .text w.raw)

def Part.events : Part → List Xml.Event
  | properties tag items => propertyEvents tag items
  | text tag pieces => textEvents tag pieces
  | instruction tag pieces => textEvents tag pieces
  | tab tag => [tag.empty]
  | lineBreak tag => [tag.empty]
  | reference r => [.empty r.tag]
  | noted n => [.empty n.tag]
  | drawing tag details => tag.around (details.map Detail.event)
  | detail d => [d.event]

def Run.events (r : Run) : List Xml.Event := r.tag.around (r.parts.flatMap Part.events)

mutual

def Item.events : Item → List Xml.Event
  | run r => r.events
  | text tag pieces => textEvents tag pieces
  | properties tag items => propertyEvents tag items
  | noted n => [.empty n.tag]
  | group g items => .opened g.tag :: (eventsAll items ++ [.closed g.tag.name])
  | deleted tag items => tag.around (eventsAll items)
  | link tag items => tag.around (eventsAll items)

def Item.eventsAll : List Item → List Xml.Event
  | [] => []
  | item :: items => item.events ++ eventsAll items

end

def Setting.events : Setting → List Xml.Event
  | style tag => [tag.empty]
  | numbering tag => [tag.empty]
  | mark tag items => propertyEvents tag items
  | tab tag => [tag.empty]

def Paragraph.events (p : Paragraph) : List Xml.Event :=
  p.tag.around (p.settings.flatMap Setting.events ++ Item.eventsAll p.items)

/-! What is written for them. -/

def Property.onFormat (i : Property) (f : RunFormat) : RunFormat :=
  match Element.ofName i.tag.name with
  | .bold => { f with bold := isOn i.tag }
  | .italic => { f with italic := isOn i.tag }
  | .strike => { f with strike := f.strike || isOn i.tag }
  | .verticalAlign =>
    { f with superscript := i.tag.value? "w:val" = some "superscript".toList }
  | _ => f

def Reference.id? (r : Reference) : Option Text := r.tag.value? "w:id"

def Part.onFormat : Part → RunFormat → RunFormat
  | properties _ items, f => items.foldl (fun f i => i.onFormat f) f
  | reference r, f => if r.id?.isSome then { f with superscript := true } else f
  | _, f => f

def isPageBreak (tag : Xml.Tag) : Bool := tag.value? "w:type" = some "page".toList

def Part.html : Part → Text
  | text _ pieces => pieces.flatMap fun w => escapeText w.text
  | tab _ => ['\t']
  | lineBreak tag => if isPageBreak tag.tag then [] else "<br/>"
  | reference r => (r.id?.map escapeText).getD []
  | properties _ _ | instruction _ _ | noted _ | drawing _ _ | detail _ => []

/-- What a detail tells about the drawing that it stands in. -/
def detailOnDrawing (σ : Source) (tag : Xml.Tag) (o : OpenDrawing) : OpenDrawing :=
  match Element.ofName tag.name with
  | .drawingProperties => { o with description := tag.value? "descr" }
  | .picture =>
    { o with source := ((tag.value? "r:embed").bind σ.relationships.target?).or o.source }
  | _ => o

def Detail.onDrawing (σ : Source) (d : Detail) (o : OpenDrawing) : OpenDrawing :=
  match d.event with
  | .opened tag | .empty tag => detailOnDrawing σ tag o
  | _ => o

/-- The image of a drawing, if it is shown. -/
def imageOf (σ : Source) (o : OpenDrawing) : Option Text :=
  if σ.profile = .faithful then o.source.map fun source => imageMarkup source o.description
  else none

def Part.image? (σ : Source) : Part → Option Text
  | drawing _ details => imageOf σ (details.foldl (fun o d => d.onDrawing σ o) {})
  | _ => none

/-- The pieces of a run from a format and a text on. Images stand between pieces of the run. -/
def writeParts (σ : Source) (f : RunFormat) (content : Text) : List Part → List Piece
  | [] => [.run f content]
  | part :: parts =>
    match part.image? σ with
    | some html => .run f content :: .markup html :: writeParts σ f [] parts
    | none => writeParts σ (part.onFormat f) (content ++ part.html) parts

/-- The pieces of a run within so many deletions. -/
def Run.pieces (σ : Source) (depth : Nat) (r : Run) : List Piece :=
  writeParts σ { strike := 0 < depth } [] r.parts

/-- The format of a run without images. -/
def Run.format (depth : Nat) (r : Run) : RunFormat :=
  r.parts.foldl (fun f part => part.onFormat f) { strike := 0 < depth }

def Run.html (r : Run) : Text := r.parts.flatMap Part.html

theorem Run.pieces_of_plain {σ : Source} {r : Run} (h : ∀ part ∈ r.parts, part.image? σ = none)
    (depth : Nat) : r.pieces σ depth = [.run (r.format depth) r.html] := by
  have hparts (parts : List Part) (h : ∀ part ∈ parts, part.image? σ = none) (f : RunFormat)
      (content : Text) : writeParts σ f content parts =
        [.run (parts.foldl (fun f part => part.onFormat f) f)
          (content ++ parts.flatMap Part.html)] := by
    induction parts generalizing f content with
    | nil => simp [writeParts]
    | cons part parts ih =>
      rw [List.forall_mem_cons] at h
      simp only [writeParts, h.1]
      rw [ih h.2, List.flatMap_cons, List.append_assoc]
      rfl
  exact hparts r.parts h _ []

mutual

/-- The pieces of an item within so many deletions. -/
def Item.pieces (σ : Source) (depth : Nat) : Item → List Piece
  | run r => r.pieces σ depth
  | text _ pieces => pieces.map fun w => .run {} (escapeText w.text)
  | properties _ _ => []
  | noted _ => []
  | group _ items => piecesAll σ depth items
  | deleted _ items => piecesAll σ (depth + 1) items
  | link tag items =>
    [.markup (linkMarkup (σ.linkTarget tag.tag) (lineHtml (piecesAll σ depth items)))]

def Item.piecesAll (σ : Source) (depth : Nat) : List Item → List Piece
  | [] => []
  | item :: items => item.pieces σ depth ++ piecesAll σ depth items

end

theorem Item.piecesAll_append (σ : Source) (depth : Nat) (as bs : List Item) :
    piecesAll σ depth (as ++ bs) = piecesAll σ depth as ++ piecesAll σ depth bs := by
  induction as with
  | nil => rfl
  | cons item as ih => simp [piecesAll, ih]

def Paragraph.pieces (σ : Source) (depth : Nat) (p : Paragraph) : List Piece :=
  Item.piecesAll σ depth p.items

def Paragraph.html (σ : Source) (depth : Nat) (p : Paragraph) : Text :=
  lineHtml (p.pieces σ depth)

def Setting.onParagraph (p : OpenParagraph) : Setting → OpenParagraph
  | style tag => { p with style := tag.tag.value? "w:val" }
  | numbering tag => { p with numberingId := tag.tag.value? "w:val" }
  | mark _ _ => p
  | tab _ => p

def Paragraph.start (p : Paragraph) : OpenParagraph :=
  p.settings.foldl Setting.onParagraph {}

def Paragraph.kind (σ : Source) (p : Paragraph) : BlockKind := blockKind σ p.start

/-! What is counted on the way. -/

def Property.features (i : Property) : List Feature :=
  match Element.ofName i.tag.name with
  | .inserted | .deleted => [.revision]
  | _ => []

def Noted.features (n : Noted) : List Feature :=
  match Element.ofName n.tag.name with
  | .commentReference => [.commentRef]
  | .bookmark => [.bookmark]
  | .fieldCharacter => if n.tag.value? "w:fldCharType" = some "begin".toList then [.field] else []
  | _ => []

def detailFeatures (tag : Xml.Tag) : List Feature :=
  match Element.ofName tag.name with
  | .anchor => [.anchorImage]
  | .chart => [.chart]
  | .smartArt => [.smartArt]
  | .shape => [.shape]
  | .vectorShape => if isWatermark tag then [.watermark] else []
  | .object => [.ole]
  | _ => []

def Detail.features (d : Detail) : List Feature :=
  match d.event with
  | .opened tag | .empty tag => detailFeatures tag
  | _ => []

def Part.features : Part → List Feature
  | properties _ items => items.flatMap Property.features
  | instruction _ pieces => pieces.flatMap fun w => instructionFeatures w.text
  | lineBreak tag => if isPageBreak tag.tag then [.pageBreak] else []
  | reference r =>
    if Element.ofName r.tag.name = .footnoteReference then [.footnoteRef] else [.endnoteRef]
  | noted n => n.features
  | drawing _ details => details.flatMap Detail.features
  | detail d => d.features
  | _ => []

def Run.features (r : Run) : List Feature := r.parts.flatMap Part.features

def Group.features (g : Group) : List Feature :=
  match Element.ofName g.tag.name with
  | .inserted => [.revision]
  | .contentControl => [.sdt]
  | .simpleField => .field :: ((g.tag.value? "w:instr").map instructionFeatures).getD []
  | .math => [.omml]
  | _ => []

mutual

def Item.features : Item → List Feature
  | run r => r.features
  | text _ _ => []
  | properties _ items => items.flatMap Property.features
  | noted n => n.features
  | group g items => g.features ++ featuresAll items
  | deleted _ items => .revision :: featuresAll items
  | link _ items => .hyperlink :: featuresAll items

def Item.featuresAll : List Item → List Feature
  | [] => []
  | item :: items => item.features ++ featuresAll items

end

def Setting.features : Setting → List Feature
  | mark _ items => items.flatMap Property.features
  | _ => []

def Paragraph.features (p : Paragraph) : List Feature :=
  p.settings.flatMap Setting.features ++ Item.featuresAll p.items

end Raw
end MarkdownExport.Word
