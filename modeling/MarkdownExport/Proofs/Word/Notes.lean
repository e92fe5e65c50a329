import Mathlib.Data.List.ReduceOption
import MarkdownExport.Proofs.Word.Siblings
import MarkdownExport.Proofs.Word.Immaterial

/-! Reading a footnotes part. A footnote holds the blocks that its own content is read to, whatever
stands around it, and footnotes of other kinds and blocks between footnotes leave nothing. -/
namespace MarkdownExport.Word
open Xml (Balanced)

/-- The same state in another footnote and behind other footnotes. -/
def State.withNote (note : Option OpenFootnote) (notes : List Footnote) (s : State) : State :=
  { s with footnote := note, footnotes := notes }

theorem State.withNote_eq_covered (note : Option OpenFootnote) (notes : List Footnote) :
    State.withNote note notes =
      State.covered { footnotes := fun _ => notes, footnote := fun _ => note } := by
  funext s
  simp [withNote, covered]

/-- Without the tags of footnotes a run of events is read in a footnote as outside. -/
theorem readEvents_withNote {σ : Source} (note : Option OpenFootnote) (notes : List Footnote)
    (s : State) {events : List Xml.Event}
    (plain : ∀ event ∈ events, eventElement? event ≠ some .footnote) :
    readEvents σ (s.withNote note notes) events =
      (readEvents σ s events).map (State.withNote note notes) := by
  rw [State.withNote_eq_covered]
  refine readEvents_covered _ s fun event hevent t => ?_
  have hplain {name : Text} (h : eventElement? event = some (Element.ofName name)) :
      Element.ofName name ≠ .footnote := fun hname => plain event hevent (hname ▸ h)
  exact step_covered _ t (fun tag h => openElement_covered _ t rfl (hplain h))
    fun name u h => closeElement_covered _ u rfl (hplain h)

/-- Whole elements without a footnote among them. -/
structure IsPassage (events : List Xml.Event) : Prop where
  balanced : Balanced events
  plain : ∀ event ∈ events, eventElement? event ≠ some .footnote

instance : DecidablePred IsPassage := fun events =>
  decidable_of_iff (Balanced events ∧ ∀ event ∈ events, eventElement? event ≠ some .footnote)
    ⟨fun ⟨balanced, plain⟩ => ⟨balanced, plain⟩, fun ⟨balanced, plain⟩ => ⟨balanced, plain⟩⟩

/-- What a footnotes part is a sequence of: footnotes, with the tag of each, and other content. -/
inductive NotePiece where
  | note (tag : Xml.Tag) (content : List Xml.Event)
  | emptyNote (tag : Xml.Tag)
  | between (content : List Xml.Event)

/-- A footnote is listed if it is of no kind or a normal one. -/
def IsListed (tag : Xml.Tag) : Prop :=
  tag.value? "w:type" = none ∨ tag.value? "w:type" = some "normal".toList

instance : DecidablePred IsListed := fun _ => instDecidableOr

/-- The footnote with this tag around these blocks, if it is listed. -/
def listedNote? (tag : Xml.Tag) (blocks : List Block) : Option Footnote :=
  if IsListed tag then
    some ⟨(tag.value? "w:id").getD [], List.intercalate [' '] (blocks.map Block.html)⟩
  else none

namespace NotePiece

def events : NotePiece → List Xml.Event
  | note tag content => .opened tag :: (content ++ [.closed tag.name])
  | emptyNote tag => [.empty tag]
  | between content => content

def IsWhole : NotePiece → Prop
  | note tag content => Element.ofName tag.name = .footnote ∧ IsPassage content
  | emptyNote tag => Element.ofName tag.name = .footnote
  | between content => IsPassage content

instance : DecidablePred IsWhole := fun piece =>
  match piece with
  | note tag content =>
    inferInstanceAs (Decidable (Element.ofName tag.name = .footnote ∧ IsPassage content))
  | emptyNote tag => inferInstanceAs (Decidable (Element.ofName tag.name = .footnote))
  | between content => inferInstanceAs (Decidable (IsPassage content))

/-- The footnote of a piece, whose content is read as if it stood alone. -/
def note? (σ : Source) : NotePiece → Except Xml.Error (Option Footnote)
  | note tag content => (readEvents σ {} content).map fun s => listedNote? tag s.blocks
  | emptyNote tag => .ok (listedNote? tag [])
  | between content => (readEvents σ {} content).map fun _ => none

end NotePiece

/-- The events are those of the pieces, or one unknown element around them with texts around it. -/
inductive IsNotesPart : List Xml.Event → List NotePiece → Prop
  | bare {pieces : List NotePiece} :
      (∀ piece ∈ pieces, piece.IsWhole) → IsNotesPart (pieces.flatMap NotePiece.events) pieces
  | element (before after : List Text) {root : Xml.Tag} {pieces : List NotePiece} :
      Element.ofName root.name = .other → (∀ piece ∈ pieces, piece.IsWhole) →
      IsNotesPart
        (before.map .text ++
          .opened root :: (pieces.flatMap NotePiece.events ++ .closed root.name :: after.map .text))
        pieces
  | empty (before after : List Text) {root : Xml.Tag} :
      Element.ofName root.name = .other →
      IsNotesPart (before.map .text ++ .empty root :: after.map .text) []

/-- The reader outside all elements, with nothing but this content behind it. -/
abbrev State.left (c : Contents) : State := State.after c {}

section Passage
variable {σ : Source} {content : List Xml.Event} {a : State}

/-- A passage leaves blocks and counts. -/
theorem IsPassage.eq_left (h : IsPassage content) (hread : readEvents σ {} content = .ok a) :
    a = .left ⟨a.blocks, [], a.seen⟩ := by
  have hwith := readEvents_withNote none [] ({} : State) (σ := σ) h.plain
  have hsame : State.withNote none [] ({} : State) = {} := rfl
  rw [hsame, hread] at hwith
  have hnotes : a.footnotes = [] := congrArg State.footnotes (Except.ok.inj hwith)
  have hbalanced := eq_of_balanced h.balanced hread
  rw [hnotes] at hbalanced
  simpa [State.left, State.after, State.framed] using hbalanced

/-- What a passage leaves behind other content, in a footnote or in none. -/
theorem IsPassage.readEvents_eq (h : IsPassage content) (c : Contents)
    (note : Option OpenFootnote) :
    readEvents σ (State.withNote note c.notes (.left c)) content =
      (readEvents σ {} content).map fun a =>
        State.withNote note c.notes (.left ⟨c.blocks ++ a.blocks, c.notes, a.seen ++ c.seen⟩) := by
  rw [readEvents_withNote _ _ _ h.plain, readEvents_after]
  cases hread : readEvents σ {} content with
  | error e => rfl
  | ok a =>
    rw [h.eq_left hread]
    simp [Except.map, State.withNote, State.after, State.framed]

theorem openFootnote_eq (tag : Xml.Tag) (s : State) : openFootnote tag s =
    s.withNote (some ⟨(tag.value? "w:id").getD [], decide (IsListed tag), s.blocks.length⟩)
      s.footnotes := by
  unfold openFootnote
  split
  next h =>
    have hlisted : IsListed tag := .inl h
    rw [decide_eq_true hlisted]
    rfl
  next kind h =>
    have hlisted : IsListed tag ↔ kind = "normal".toList := by
      rw [IsListed, h, Option.some.injEq, or_iff_right (by simp)]
    rw [decide_eq_decide.mpr hlisted, ← beq_eq_decide]
    rfl

theorem openFootnote_left {tag : Xml.Tag} (htag : Element.ofName tag.name = .footnote)
    (c : Contents) : openElement σ tag (.left c) =
      State.withNote (some ⟨(tag.value? "w:id").getD [], decide (IsListed tag), c.blocks.length⟩)
        c.notes (.left c) := by
  have hstate : openElement σ tag (.left c) = openFootnote tag (.left c) := by
    simp only [openElement, htag]
  rw [hstate, openFootnote_eq]
  simp [State.after, State.framed]

/-- The end of a footnote takes back the blocks since its start. -/
theorem closeFootnote_left {tag : Xml.Tag} (htag : Element.ofName tag.name = .footnote)
    (c : Contents) (blocks : List Block) (seen : List Feature) :
    closeElement σ tag.name (State.withNote
      (some ⟨(tag.value? "w:id").getD [], decide (IsListed tag), c.blocks.length⟩) c.notes
      (.left ⟨c.blocks ++ blocks, c.notes, seen⟩)) =
      .left ⟨c.blocks, c.notes ++ (listedNote? tag blocks).toList, seen⟩ := by
  simp only [closeElement, htag, closeFootnote, listedNote?]
  by_cases hlisted : IsListed tag <;>
    simp [hlisted, State.withNote, State.after, State.framed]

end Passage

section Pieces
variable {σ : Source}

/-- A piece leaves its footnote, if it has one that is listed. -/
theorem NotePiece.readEvents_eq {piece : NotePiece} (h : piece.IsWhole) (c : Contents) :
    ∃ blocks seen, readEvents σ (.left c) piece.events =
      (piece.note? σ).map fun n => .left ⟨blocks, c.notes ++ n.toList, seen⟩ := by
  cases piece with
  | note tag content =>
    obtain ⟨htag, hcontent⟩ := h
    have hopen : step σ (.left c) (.opened tag) = .ok (openElement σ tag (.left c)) :=
      step_opened rfl (by simp [htag])
    rw [events, readEvents_cons_of_step hopen, openFootnote_left htag, readEvents_append,
      hcontent.readEvents_eq]
    cases hread : readEvents σ {} content with
    | error e => exact ⟨[], [], by simp [note?, hread]; rfl⟩
    | ok a =>
      refine ⟨c.blocks, a.seen ++ c.seen, ?_⟩
      rw [note?, hread]
      have hclose := closeFootnote_left (σ := σ) htag c a.blocks (a.seen ++ c.seen)
      exact ((readEvents_singleton σ _ _).trans (step_closed rfl tag.name)).trans
        (congrArg Except.ok hclose)
  | emptyNote tag =>
    refine ⟨c.blocks, c.seen, ?_⟩
    have hclose := closeFootnote_left (σ := σ) h c [] c.seen
    rw [List.append_nil] at hclose
    rw [events, readEvents_singleton, step_empty rfl, openFootnote_left h]
    exact congrArg Except.ok hclose
  | between content =>
    have hcontent := IsPassage.readEvents_eq (σ := σ) h c none
    have hnone : State.withNote none c.notes (.left c) = .left c := by
      simp [State.withNote, State.after, State.framed]
    rw [hnone] at hcontent
    rw [events, hcontent]
    cases hread : readEvents σ {} content with
    | error e => exact ⟨[], [], by simp [note?, hread]; rfl⟩
    | ok a =>
      refine ⟨c.blocks ++ a.blocks, a.seen ++ c.seen, ?_⟩
      rw [note?, hread]
      simp [Except.map, State.withNote, State.after, State.framed]

/-- Pieces in a row leave their footnotes in the same order, or fail as the first that fails. -/
theorem readEvents_pieces {pieces : List NotePiece} (h : ∀ piece ∈ pieces, piece.IsWhole)
    (c : Contents) :
    ∃ blocks seen, readEvents σ (.left c) (pieces.flatMap NotePiece.events) =
      (pieces.mapM (NotePiece.note? σ)).map fun notes =>
        .left ⟨blocks, c.notes ++ notes.reduceOption, seen⟩ := by
  induction pieces generalizing c with
  | nil =>
    refine ⟨c.blocks, c.seen, ?_⟩
    change Except.ok (State.left c) = .ok (.left ⟨c.blocks, c.notes ++ [], c.seen⟩)
    rw [List.append_nil]
  | cons piece pieces ih =>
    rw [List.forall_mem_cons] at h
    obtain ⟨blocks, seen, hread⟩ := NotePiece.readEvents_eq (σ := σ) h.1 c
    rw [List.flatMap_cons, readEvents_append, hread, List.mapM_cons]
    cases hn : piece.note? σ with
    | error e => exact ⟨[], [], rfl⟩
    | ok n =>
      obtain ⟨blocks', seen', hread'⟩ := ih h.2 ⟨blocks, c.notes ++ n.toList, seen⟩
      refine ⟨blocks', seen', ?_⟩
      have hreduce (notes : List (Option Footnote)) :
          (n :: notes).reduceOption = n.toList ++ notes.reduceOption := by
        cases n <;> simp
      change readEvents σ (.left ⟨blocks, c.notes ++ n.toList, seen⟩) _ = _
      rw [hread']
      cases pieces.mapM (NotePiece.note? σ) with
      | error e => rfl
      | ok notes =>
        change Except.ok (State.left ⟨blocks', c.notes ++ n.toList ++ notes.reduceOption, seen'⟩) =
          .ok (.left ⟨blocks', c.notes ++ (n :: notes).reduceOption, seen'⟩)
        rw [hreduce, List.append_assoc]

theorem balanced_pieces {pieces : List NotePiece} (h : ∀ piece ∈ pieces, piece.IsWhole) :
    Balanced (pieces.flatMap NotePiece.events) := by
  refine Balanced.flatMap fun piece hpiece => ?_
  have hwhole := h piece hpiece
  cases piece with
  | note tag content => exact hwhole.2.balanced.element tag
  | emptyNote tag => rfl
  | between content => exact hwhole.balanced

/-- Text that stands in no paragraph is passed over. -/
theorem readEvents_texts (texts : List Text) (c : Contents) (events : List Xml.Event) :
    readEvents σ (.left c) (texts.map .text ++ events) = readEvents σ (.left c) events := by
  induction texts with
  | nil => rfl
  | cons t texts ih =>
    have hstep : step σ (.left c) (.text t) = .ok (.left c) := rfl
    rw [List.map_cons, List.cons_append, readEvents_cons_of_step hstep, ih]

/-- The footnotes of a part are those of its pieces. -/
theorem readPart_footnotes {events : List Xml.Event} {pieces : List NotePiece}
    (h : IsNotesPart events pieces) :
    (readPart σ ⟨events, none⟩).map State.footnotes =
      (pieces.mapM (NotePiece.note? σ)).map List.reduceOption := by
  have hstart : ({} : State) = .left ⟨[], [], []⟩ := rfl
  have hend (after : List Text) (c : Contents) :
      readEvents σ (.left c) (after.map .text) = .ok (.left c) := by
    rw [← List.append_nil (after.map _), readEvents_texts]
    rfl
  have hpart : readPart σ ⟨events, none⟩ = readEvents σ {} events := by
    unfold readPart
    cases readEvents σ {} events <;> rfl
  have hnotes (c : Contents) : (State.left c).footnotes = c.notes := List.append_nil _
  rw [hpart, hstart]
  cases h with
  | bare hpieces =>
    obtain ⟨blocks, seen, hread⟩ := readEvents_pieces (σ := σ) hpieces ⟨[], [], []⟩
    rw [hread]
    cases pieces.mapM (NotePiece.note? σ) with
    | error e => rfl
    | ok notes => exact congrArg Except.ok (hnotes _)
  | element before after hroot hpieces =>
    obtain ⟨blocks, seen, hread⟩ := readEvents_pieces (σ := σ) hpieces ⟨[], [], []⟩
    rw [readEvents_texts, readEvents_unknownElement hroot (balanced_pieces hpieces),
      readEvents_append, hread]
    cases pieces.mapM (NotePiece.note? σ) with
    | error e => rfl
    | ok notes =>
      exact (congrArg (Except.map State.footnotes) (hend after _)).trans
        (congrArg Except.ok (hnotes _))
  | empty before after hroot =>
    rw [readEvents_texts, readEvents_plainEmpty (.inl hroot), hend]
    rfl

end Pieces

end MarkdownExport.Word
