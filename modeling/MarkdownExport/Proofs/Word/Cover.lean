import MarkdownExport.Proofs.Word.Ancestry
import MarkdownExport.Proofs.Word.Parts

/-! The content that is finished, the open footnote and the open drawing cover the rest of the
reader's state: no element looks at them but footnotes and what belongs to a drawing. -/
namespace MarkdownExport.Word

/-- Blocks that come before a state's own, features that were seen before, and a change of the
footnotes, of the open one and of what is known of the drawing. -/
structure Cover where
  blocks : List Block := []
  seen : List Feature := []
  footnotes : List Footnote → List Footnote
  footnote : Option OpenFootnote → Option OpenFootnote
  onDrawing : OpenDrawing → OpenDrawing := id

def State.covered (c : Cover) (s : State) : State := { s with
  blocks := c.blocks ++ s.blocks
  footnotes := c.footnotes s.footnotes
  seen := s.seen ++ c.seen
  footnote := c.footnote s.footnote
  drawing := s.drawing.map c.onDrawing }

namespace Element

/-- Elements that are read with the help of the relationships or that know the drawing. -/
def isReferring : Element → Bool
  | hyperlink | drawing | drawingProperties | picture => true
  | _ => false

end Element

section Covered
variable {σ σ' : Source} (c : Cover) (s : State)

namespace State

theorem covered_run : (s.covered c).run = s.run := rfl

theorem covered_onInline (change : Inline → Inline) :
    (s.covered c).onInline change = (s.onInline change).covered c := by
  obtain ⟨blocks, footnotes, footnote, tables, paragraph, links⟩ := s
  cases links with
  | cons link links => rfl
  | nil => cases paragraph <;> rfl

theorem covered_pushText (html : Text) :
    (s.covered c).pushText html = (s.pushText html).covered c := by
  obtain ⟨blocks, footnotes, footnote, tables, paragraph, links, run⟩ := s
  cases run with
  | some run => rfl
  | none => exact covered_onInline c _ _

theorem covered_fieldInstruction (instruction : Text) :
    (s.covered c).fieldInstruction instruction =
      (s.fieldInstruction instruction).covered c := by
  unfold fieldInstruction
  split <;> rfl

theorem covered_onTable (change : OpenTable → OpenTable) :
    (s.covered c).onTable change = (s.onTable change).covered c := by
  obtain ⟨blocks, footnotes, footnote, tables⟩ := s
  cases tables <;> rfl

theorem covered_onFormat (change : RunFormat → RunFormat) :
    (s.covered c).onFormat change = (s.onFormat change).covered c := by
  obtain ⟨blocks, footnotes, footnote, tables, paragraph, links, run, drawing, inProperties⟩ := s
  cases inProperties <;> rfl

theorem covered_addBlock (b : Block) :
    (s.covered c).addBlock b = (s.addBlock b).covered c := by
  simp [addBlock, covered]

end State

theorem openBreak_covered (tag : Xml.Tag) :
    openBreak tag (s.covered c) = (openBreak tag s).covered c := by
  unfold openBreak
  rw [State.covered_run]
  split
  · rfl
  · split
    · rfl
    · exact State.covered_pushText c s _

theorem openReference_covered (tag : Xml.Tag) :
    openReference tag (s.covered c) = (openReference tag s).covered c := by
  unfold openReference
  split <;> rfl

theorem openPicture_covered (kept : c.onDrawing = id) (tag : Xml.Tag) :
    openPicture σ tag (s.covered c) = (openPicture σ tag s).covered c := by
  unfold openPicture
  split
  · simp [State.covered, kept]
  · rfl

/-- Without the elements that the relationships matter to, the sources may differ. -/
theorem openElement_covered_of_plain {tag : Xml.Tag} (hnote : Element.ofName tag.name ≠ .footnote)
    (plain : (Element.ofName tag.name).isReferring = false) :
    openElement σ' tag (s.covered c) = (openElement σ tag s).covered c := by
  unfold openElement
  cases he : Element.ofName tag.name with
  | hyperlink | drawing | drawingProperties | picture => simp [he, Element.isReferring] at plain
  | footnote => exact absurd he hnote
  | bold | italic | strike | verticalAlign => exact State.covered_onFormat c s _
  | tab =>
    have hproperties : (s.covered c).inRunProperties = s.inRunProperties := rfl
    dsimp only
    rw [State.covered_run, hproperties]
    split
    · exact State.covered_pushText c s _
    · rfl
  | lineBreak => exact openBreak_covered c s tag
  | footnoteReference => exact openReference_covered c (s.note .footnoteRef) tag
  | endnoteReference => exact openReference_covered c (s.note .endnoteRef) tag
  | simpleField =>
    dsimp only
    split
    · exact State.covered_fieldInstruction c (s.note .field) _
    · rfl
  | fieldCharacter | vectorShape =>
    dsimp only
    split <;> rfl
  | row | cell => exact State.covered_onTable c s _
  | _ => rfl

theorem openElement_covered (kept : c.onDrawing = id) {tag : Xml.Tag}
    (hnote : Element.ofName tag.name ≠ .footnote) :
    openElement σ tag (s.covered c) = (openElement σ tag s).covered c := by
  cases plain : (Element.ofName tag.name).isReferring with
  | false => exact openElement_covered_of_plain c s hnote plain
  | true =>
    unfold openElement
    cases he : Element.ofName tag.name with
    | hyperlink => rfl
    | drawing | drawingProperties => simp [State.covered, kept]
    | picture => exact openPicture_covered c s kept tag
    | _ => simp [he, Element.isReferring] at plain

theorem closeRun_covered : closeRun (s.covered c) = (closeRun s).covered c := by
  unfold closeRun
  rw [State.covered_run]
  cases s.run with
  | some run => exact State.covered_onInline c { s with run := none } _
  | none => rfl

theorem closeLink_covered : closeLink (s.covered c) = (closeLink s).covered c := by
  have hlinks : (s.covered c).links = s.links := rfl
  unfold closeLink
  rw [hlinks]
  cases s.links with
  | cons link links => exact State.covered_onInline c { s with links := links } _
  | nil => rfl

theorem placeImage_covered (html : Text) :
    placeImage html (s.covered c) = (placeImage html s).covered c := by
  unfold placeImage
  rw [State.covered_run, ← State.covered_onInline]
  cases s.run with
  | some run =>
    have htext := State.covered_onInline c { s with run := some { run with content := [] } }
      (Inline.pushRun run.format run.content)
    exact congrArg (State.onInline (Inline.pushMarkup html)) htext
  | none => rfl

theorem closeParagraph_covered (same : σ'.numbering = σ.numbering) :
    closeParagraph σ' (s.covered c) = (closeParagraph σ s).covered c := by
  have hparagraph : (s.covered c).paragraph = s.paragraph := rfl
  unfold closeParagraph
  rw [hparagraph]
  cases s.paragraph with
  | some p =>
    have hcell : ({ s.covered c with paragraph := none } : State).cell? =
        ({ s with paragraph := none } : State).cell? := rfl
    have hkind : blockKind σ' p = blockKind σ p := by simp only [blockKind, same]
    dsimp only
    rw [hcell, hkind]
    split
    · exact State.covered_onTable c { s with paragraph := none } _
    · split
      · rfl
      · exact State.covered_addBlock c { s with paragraph := none } _
  | none => rfl

theorem closeTable_covered : closeTable (s.covered c) = (closeTable s).covered c := by
  have htables : (s.covered c).tables = s.tables := rfl
  unfold closeTable
  rw [htables]
  cases s.tables with
  | cons t ts =>
    have hcell : ({ s.covered c with tables := ts } : State).cell? =
        ({ s with tables := ts } : State).cell? := rfl
    dsimp only
    rw [hcell]
    split
    · exact State.covered_onTable c { s with tables := ts } _
    · exact State.covered_addBlock c { s with tables := ts } _
  | nil => rfl

theorem closeDrawing_covered (kept : c.onDrawing = id) :
    closeDrawing σ (s.covered c) = (closeDrawing σ s).covered c := by
  have hdrawing : (s.covered c).drawing = s.drawing := by simp [State.covered, kept]
  unfold closeDrawing
  rw [hdrawing]
  cases s.drawing with
  | some drawing =>
    dsimp only
    split
    · exact placeImage_covered c { s with drawing := none } _
    · rfl
  | none => rfl

/-- But for drawings, of the sources only the numberings matter. -/
theorem closeElement_covered_of_plain (same : σ'.numbering = σ.numbering) {name : Text}
    (hnote : Element.ofName name ≠ .footnote) (plain : Element.ofName name ≠ .drawing) :
    closeElement σ' name (s.covered c) = (closeElement σ name s).covered c := by
  unfold closeElement
  cases he : Element.ofName name with
  | drawing => exact absurd he plain
  | footnote => exact absurd he hnote
  | run => exact closeRun_covered c s
  | hyperlink => exact closeLink_covered c s
  | paragraph => exact closeParagraph_covered c s same
  | row | cell => exact State.covered_onTable c s _
  | table => exact closeTable_covered c s
  | _ => rfl

theorem closeElement_covered (kept : c.onDrawing = id) {name : Text}
    (hnote : Element.ofName name ≠ .footnote) :
    closeElement σ name (s.covered c) = (closeElement σ name s).covered c := by
  by_cases hdrawing : Element.ofName name = .drawing
  · simp only [closeElement, hdrawing]
    exact closeDrawing_covered c s kept
  · exact closeElement_covered_of_plain c s rfl hnote hdrawing

theorem captureText_covered (raw : Text) :
    captureText raw (s.covered c) = (captureText raw s).map (State.covered c) := by
  have htext : (s.covered c).capturesText = s.capturesText := rfl
  have hinstruction : (s.covered c).capturesInstruction = s.capturesInstruction := rfl
  unfold captureText
  rw [htext, hinstruction]
  split
  · split
    · split
      · rw [State.covered_fieldInstruction]
        rfl
      · rw [State.covered_pushText]
        rfl
    · rfl
  · rfl

/-- An event is read under a cover as without it, if what it starts and ends is. -/
theorem step_covered {event : Xml.Event}
    (hopen : ∀ tag, eventElement? event = some (Element.ofName tag.name) →
      openElement σ tag (s.covered c) = (openElement σ tag s).covered c)
    (hclose : ∀ name t, eventElement? event = some (Element.ofName name) →
      closeElement σ name (State.covered c t) = (closeElement σ name t).covered c) :
    step σ (s.covered c) event = (step σ s event).map (State.covered c) := by
  have hskip : (s.covered c).skipDepth = s.skipDepth := rfl
  unfold step
  rw [hskip]
  split
  · split
    · rfl
    · rw [hopen _ rfl]
      rfl
  · rw [hopen _ rfl, hclose _ _ rfl]
    rfl
  · rw [hclose _ _ rfl]
    rfl
  · exact captureText_covered c s _
  · rfl
  · rfl
  · rfl

theorem readEvents_covered {events : List Xml.Event}
    (hstep : ∀ event ∈ events, ∀ t,
      step σ (State.covered c t) event = (step σ t event).map (State.covered c)) :
    readEvents σ (s.covered c) events = (readEvents σ s events).map (State.covered c) := by
  induction events generalizing s with
  | nil => rfl
  | cons event events ih =>
    rw [List.forall_mem_cons] at hstep
    rw [readEvents_cons, readEvents_cons, hstep.1]
    cases step σ s event with
    | error e => rfl
    | ok t => exact ih t hstep.2

end Covered

end MarkdownExport.Word
