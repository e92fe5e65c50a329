import MarkdownExport.Proofs.Word.Openness

/-! The features that each event adds to those that were seen. They follow from what is open and
from the event, and not from what the reader has of relationships, numbering and profile. -/
namespace MarkdownExport.Word
open Xml (Event Tag)

/-- What the instruction of a field shows. -/
def instructionFeatures (instruction : Text) : List Feature :=
  if State.isReference instruction then [.crossRef] else []

/-- The features that a tag shows, the last one first. -/
def Outline.tagFeatures (o : Outline) (tag : Tag) : List Feature :=
  match Element.ofName tag.name with
  | .lineBreak =>
    if o.holds .run ∧ tag.value? "w:type" = some "page".toList then [.pageBreak] else []
  | .hyperlink => [.hyperlink]
  | .inserted | .deleted => [.revision]
  | .footnoteReference => [.footnoteRef]
  | .endnoteReference => [.endnoteRef]
  | .commentReference => [.commentRef]
  | .bookmark => [.bookmark]
  | .simpleField => (tag.value? "w:instr").elim [] instructionFeatures ++ [.field]
  | .fieldCharacter => if tag.value? "w:fldCharType" = some "begin".toList then [.field] else []
  | .contentControl => [.sdt]
  | .anchor => [.anchorImage]
  | .chart => [.chart]
  | .smartArt => [.smartArt]
  | .shape => [.shape]
  | .vectorShape => if isWatermark tag then [.watermark] else []
  | .object => [.ole]
  | .math => [.omml]
  | .table => [.table]
  | _ => []

/-- The features that an event shows. -/
def Outline.features (o : Outline) : Event → List Feature
  | .opened tag | .empty tag => if o.skipDepth = 0 then o.tagFeatures tag else []
  | .closed _ => []
  | .text raw =>
    if o.skipDepth = 0 ∧ o.holds .instruction then
      (Xml.unescape raw).toOption.elim [] instructionFeatures
    else []

/-- The features that the events show, the last one first. -/
def featuresOf (o : Outline) : List Event → List Feature
  | [] => []
  | event :: events => featuresOf (o.step event) events ++ o.features event

namespace State
variable {s : State}

@[simp] theorem seen_onInline (change : Inline → Inline) : (s.onInline change).seen = s.seen := by
  unfold onInline
  split
  · rfl
  · split <;> rfl

@[simp] theorem seen_pushText (html : Text) : (s.pushText html).seen = s.seen := by
  unfold pushText
  split
  · rfl
  · exact seen_onInline _

@[simp] theorem seen_fieldInstruction (instruction : Text) :
    (s.fieldInstruction instruction).seen = instructionFeatures instruction ++ s.seen := by
  unfold fieldInstruction instructionFeatures
  split <;> rfl

@[simp] theorem seen_onTable (change : OpenTable → OpenTable) :
    (s.onTable change).seen = s.seen := by
  unfold onTable
  split <;> rfl

@[simp] theorem seen_onFormat (change : RunFormat → RunFormat) :
    (s.onFormat change).seen = s.seen := by
  unfold onFormat
  split <;> rfl

@[simp] theorem seen_setCell (content : Text) : (s.setCell content).seen = s.seen :=
  seen_onTable _

end State

section Element
variable {σ : Source} {s : State}

theorem openBreak_seen (tag : Tag) :
    (openBreak tag s).seen =
      (if s.outline.holds .run ∧ tag.value? "w:type" = some "page".toList then [.pageBreak]
        else []) ++ s.seen := by
  unfold openBreak
  cases hrun : s.run with
  | none => simp [State.outline, hrun]
  | some run =>
    have hholds : s.outline.holds .run = true := by simp [State.outline, hrun]
    by_cases hpage : tag.value? "w:type" = some "page".toList
    · simp only [hholds, hpage, true_and, if_true]
      rfl
    · simp only [hholds, hpage, and_false, if_false, List.nil_append]
      exact State.seen_pushText _

theorem openReference_seen (tag : Tag) : (openReference tag s).seen = s.seen := by
  unfold openReference
  split <;> rfl

theorem openPicture_seen (tag : Tag) : (openPicture σ tag s).seen = s.seen := by
  unfold openPicture
  split <;> rfl

/-- The start of an element adds the features of its tag. -/
theorem openElement_seen (tag : Tag) :
    (openElement σ tag s).seen = s.outline.tagFeatures tag ++ s.seen := by
  unfold openElement Outline.tagFeatures
  cases Element.ofName tag.name with
  | lineBreak => exact openBreak_seen tag
  | footnoteReference | endnoteReference => exact openReference_seen tag
  | picture => exact openPicture_seen tag
  | bold | italic | strike | verticalAlign => exact State.seen_onFormat _
  | row | cell => exact State.seen_onTable _
  | tab =>
    dsimp only
    split
    · exact State.seen_pushText _
    · rfl
  | simpleField =>
    dsimp only
    split
    next instruction h => rw [State.seen_fieldInstruction, h]; simp [State.note]
    next h => rw [h]; rfl
  | fieldCharacter | vectorShape =>
    dsimp only
    split <;> rfl
  | _ => rfl

theorem closeRun_seen : (closeRun s).seen = s.seen := by
  unfold closeRun
  split
  · exact State.seen_onInline _
  · rfl

theorem closeLink_seen : (closeLink s).seen = s.seen := by
  unfold closeLink
  split
  · exact State.seen_onInline _
  · rfl

theorem placeImage_seen (html : Text) : (placeImage html s).seen = s.seen := by
  unfold placeImage
  rw [State.seen_onInline]
  split
  · exact State.seen_onInline _
  · rfl

theorem closeDrawing_seen : (closeDrawing σ s).seen = s.seen := by
  unfold closeDrawing
  split
  · dsimp only
    split
    · exact placeImage_seen _
    · rfl
  · rfl

theorem closeParagraph_seen : (closeParagraph σ s).seen = s.seen := by
  unfold closeParagraph
  split
  · dsimp only
    split
    · exact State.seen_setCell _
    · split <;> rfl
  · rfl

theorem closeTable_seen : (closeTable s).seen = s.seen := by
  unfold closeTable
  split
  · dsimp only
    split
    · exact State.seen_setCell _
    · rfl
  · rfl

theorem closeFootnote_seen : (closeFootnote s).seen = s.seen := by
  unfold closeFootnote
  split
  · dsimp only
    split <;> rfl
  · rfl

/-- The end of an element adds nothing. -/
theorem closeElement_seen (name : Text) : (closeElement σ name s).seen = s.seen := by
  unfold closeElement
  cases Element.ofName name with
  | run => exact closeRun_seen
  | hyperlink => exact closeLink_seen
  | drawing => exact closeDrawing_seen
  | paragraph => exact closeParagraph_seen
  | table => exact closeTable_seen
  | footnote => exact closeFootnote_seen
  | row | cell => exact State.seen_onTable _
  | _ => rfl

theorem captureText_seen {s' : State} {raw : Text} (hs : s.skipDepth = 0)
    (h : captureText raw s = .ok s') : s'.seen = s.outline.features (.text raw) ++ s.seen := by
  have hdepth : s.outline.skipDepth = 0 := hs
  have hinstruction : s.outline.holds .instruction = s.capturesInstruction := rfl
  unfold captureText at h
  simp only [Outline.features, hdepth, hinstruction, true_and]
  cases hcaptures : s.capturesInstruction with
  | true =>
    rw [hcaptures, Bool.or_true, if_pos rfl] at h
    cases hraw : Xml.unescape raw with
    | ok content =>
      rw [hraw] at h
      obtain rfl := Except.ok.inj h
      rw [if_pos rfl, if_pos rfl, State.seen_fieldInstruction]
      rfl
    | error e =>
      rw [hraw] at h
      cases h
  | false =>
    rw [hcaptures] at h
    rw [if_neg Bool.false_ne_true, List.nil_append]
    split at h
    · split at h
      · obtain rfl := Except.ok.inj h
        rw [if_neg Bool.false_ne_true]
        exact State.seen_pushText _
      · cases h
    · obtain rfl := Except.ok.inj h
      rfl

end Element

/-- An event adds the features that it shows where it stands. -/
theorem step_seen {σ : Source} {s s' : State} {event : Event} (h : step σ s event = .ok s') :
    s'.seen = s.outline.features event ++ s.seen := by
  have hdepth : s.outline.skipDepth = s.skipDepth := rfl
  cases steps_of_step h with
  | skips hs hskip =>
    simp only [Outline.features, hdepth, hs, if_true, Outline.tagFeatures, hskip]
    rfl
  | opens hs hskip =>
    simp only [Outline.features, hdepth, hs, if_true]
    exact openElement_seen _
  | empties hs =>
    simp only [Outline.features, hdepth, hs, if_true, closeElement_seen, openElement_seen]
  | closes hs => exact closeElement_seen _
  | captures hs hread => exact captureText_seen hs hread
  | deepens hs | returns hs => simp [Outline.features, hdepth, hs]
  | passesEmpty hs | passesText hs => simp [Outline.features, hdepth, hs]

/-- What was seen in a part follows from its events alone. -/
theorem readEvents_seen {σ : Source} {s s' : State} {events : List Event}
    (h : readEvents σ s events = .ok s') : s'.seen = featuresOf s.outline events ++ s.seen := by
  induction events generalizing s with
  | nil =>
    obtain rfl := Except.ok.inj h
    rfl
  | cons event events ih =>
    obtain ⟨t, ht, hrest⟩ := exists_ok_of_bind h
    rw [ih hrest, step_outline ht, step_seen ht, featuresOf, List.append_assoc]

end MarkdownExport.Word
