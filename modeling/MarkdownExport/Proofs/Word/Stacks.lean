import MarkdownExport.Proofs.Word.Ancestry
import MarkdownExport.Proofs.Word.Immaterial
import MarkdownExport.Proofs.Xml.Places

/-! What the reader counts and stacks belongs to the elements that are open in the part. An element
leaves at its end what was there at its start, below the entry that is its own. -/
namespace MarkdownExport.Word
open Xml (Event Tag Balanced nest nestStep enter enclosing)

/-! Stacks that have grown. -/

section OnTop
variable {α β : Type} {f : α → β} {marks marks' : List β} {base mid stack : List α}

/-- Entries with the marks lie on a stack. What lies below its topmost entry is untouched, and that
one has kept its mark. -/
structure OnTop (f : α → β) (marks : List β) (base stack : List α) : Prop where
  shape : stack.map f = marks ++ base.map f
  below : stack.drop (marks.length + 1) = base.tail

namespace OnTop

theorem refl (stack : List α) : OnTop f [] stack stack := ⟨rfl, List.drop_one⟩

theorem push (x : α) (stack : List α) : OnTop f [f x] stack (x :: stack) :=
  ⟨rfl, by simp⟩

theorem change {x y : α} (h : f y = f x) (stack : List α) :
    OnTop f [] (x :: stack) (y :: stack) :=
  ⟨congrArg (· :: stack.map f) h, rfl⟩

theorem trans (h : OnTop f marks base mid) (h' : OnTop f marks' mid stack) :
    OnTop f (marks' ++ marks) base stack where
  shape := by rw [h'.shape, h.shape, List.append_assoc]
  below := by
    have hlength : (marks' ++ marks).length + 1 = (marks'.length + 1) + marks.length := by
      rw [List.length_append]
      omega
    rw [hlength, ← List.drop_drop, h'.below, ← List.drop_one, List.drop_drop, Nat.add_comm 1,
      h.below]

theorem pop {m : β} (h : OnTop f (m :: marks) base stack) : OnTop f marks base stack.tail where
  shape := by rw [List.map_tail, h.shape, List.cons_append, List.tail_cons]
  below := by
    rw [← h.below, ← List.drop_one, List.drop_drop, List.length_cons, Nat.add_comm 1]

theorem length_eq (h : OnTop f marks base stack) : stack.length = marks.length + base.length := by
  have hlength := congrArg List.length h.shape
  simpa using hlength

end OnTop
end OnTop

/-! Elements that are no footnote, link or table write into what is innermost. -/

/-- The same tables and links are open. -/
structure State.SameStacks (s t : State) : Prop where
  tables : OnTop (fun _ => ()) [] s.tables t.tables
  links : OnTop OpenLink.target [] s.links t.links

/-- No footnote starts or ends either, and blocks come last. -/
structure State.Continues (s t : State) : Prop extends State.SameStacks s t where
  footnote : t.footnote = s.footnote
  blocks : s.blocks <+: t.blocks

namespace State.Continues
variable {σ : Source} {s t u : State}

theorem refl (s : State) : s.Continues s := ⟨⟨.refl _, .refl _⟩, rfl, List.prefix_rfl⟩

theorem trans (h : s.Continues t) (h' : t.Continues u) : s.Continues u where
  tables := h.tables.trans h'.tables
  links := h.links.trans h'.links
  footnote := h'.footnote.trans h.footnote
  blocks := h.blocks.trans h'.blocks

theorem onInline (s : State) (change : Inline → Inline) : s.Continues (s.onInline change) := by
  unfold State.onInline
  split
  next link links h =>
    refine { refl s with links := ?_ }
    dsimp only
    rw [h]
    apply OnTop.change
    rfl
  next =>
    split
    · exact { refl s with }
    · exact refl s

theorem pushText (s : State) (html : Text) : s.Continues (s.pushText html) := by
  unfold State.pushText
  split
  · exact { refl s with }
  · exact onInline s _

theorem fieldInstruction (s : State) (instruction : Text) :
    s.Continues (s.fieldInstruction instruction) := by
  unfold State.fieldInstruction
  split
  · exact { refl s with }
  · exact refl s

theorem onTable (s : State) (change : OpenTable → OpenTable) : s.Continues (s.onTable change) := by
  unfold State.onTable
  split
  next t ts h =>
    refine { refl s with tables := ?_ }
    dsimp only
    rw [h]
    apply OnTop.change
    rfl
  next => exact refl s

theorem onFormat (s : State) (change : RunFormat → RunFormat) :
    s.Continues (s.onFormat change) := by
  unfold State.onFormat
  split
  · exact { refl s with }
  · exact refl s

theorem addBlock (s : State) (b : Block) : s.Continues (s.addBlock b) :=
  { refl s with blocks := List.prefix_append s.blocks [b] }

theorem openBreak (s : State) (tag : Tag) : s.Continues (openBreak tag s) := by
  unfold Word.openBreak
  split
  · exact refl s
  · split
    · exact { refl s with }
    · exact pushText s _

theorem openReference (s : State) (tag : Tag) : s.Continues (openReference tag s) := by
  unfold Word.openReference
  split
  · exact { refl s with }
  · exact refl s

theorem openPicture (s : State) (tag : Tag) : s.Continues (openPicture σ tag s) := by
  unfold Word.openPicture
  split
  · exact { refl s with }
  · exact refl s

theorem closeRun (s : State) : s.Continues (closeRun s) := by
  unfold Word.closeRun
  split
  · have hrun : s.Continues { s with run := none } := { refl s with }
    exact hrun.trans (onInline _ _)
  · exact refl s

theorem placeImage (s : State) (html : Text) : s.Continues (placeImage html s) := by
  unfold Word.placeImage
  refine trans ?_ (onInline _ _)
  split
  next run _ =>
    have hrun : s.Continues { s with run := some { run with content := [] } } := { refl s with }
    exact hrun.trans (onInline _ _)
  next => exact refl s

theorem closeDrawing (s : State) : s.Continues (closeDrawing σ s) := by
  unfold Word.closeDrawing
  split
  · have hdrawing : s.Continues { s with drawing := none } := { refl s with }
    dsimp only
    split
    · exact hdrawing.trans (placeImage _ _)
    · exact hdrawing
  · exact refl s

theorem closeParagraph (s : State) : s.Continues (closeParagraph σ s) := by
  unfold Word.closeParagraph
  split
  · have hparagraph : s.Continues { s with paragraph := none } := { refl s with }
    dsimp only
    split
    · exact hparagraph.trans (onTable _ _)
    · split
      · exact hparagraph
      · exact hparagraph.trans (addBlock _ _)
  · exact refl s

/-- A table leaves its text in the table around it or among the blocks. -/
theorem closeTable (s : State) : { s with tables := s.tables.tail }.Continues (closeTable s) := by
  unfold Word.closeTable
  split
  next t ts h =>
    dsimp only
    rw [h, List.tail_cons]
    split
    · exact onTable _ _
    · exact addBlock _ _
  next h =>
    rw [h, List.tail_nil, ← h]
    exact refl s

/-- A link leaves its text in the link or paragraph around it. -/
theorem closeLink (s : State) : { s with links := s.links.tail }.Continues (closeLink s) := by
  unfold Word.closeLink
  split
  next link links h =>
    rw [h, List.tail_cons]
    exact onInline _ _
  next h =>
    rw [h, List.tail_nil, ← h]
    exact refl s

theorem captureText {raw : Text} (h : captureText raw s = .ok t) : s.Continues t := by
  unfold Word.captureText at h
  split at h
  · split at h
    · obtain rfl := Except.ok.inj h
      split
      · exact fieldInstruction s _
      · exact pushText s _
    · cases h
  · obtain rfl := Except.ok.inj h
    exact refl s

theorem openElement (s : State) {tag : Tag} (hnote : Element.ofName tag.name ≠ .footnote)
    (hlink : Element.ofName tag.name ≠ .hyperlink) (htable : Element.ofName tag.name ≠ .table) :
    s.Continues (openElement σ tag s) := by
  unfold Word.openElement
  cases he : Element.ofName tag.name with
  | footnote => exact absurd he hnote
  | hyperlink => exact absurd he hlink
  | table => exact absurd he htable
  | bold | italic | strike | verticalAlign => exact onFormat s _
  | tab =>
    dsimp only
    split
    · exact pushText s _
    · exact refl s
  | lineBreak => exact openBreak s tag
  | footnoteReference | endnoteReference =>
    have hnoted (feature : Feature) : s.Continues (s.note feature) := { refl s with }
    exact (hnoted _).trans (openReference _ tag)
  | simpleField =>
    have hnoted : s.Continues (s.note .field) := { refl s with }
    dsimp only
    split
    · exact hnoted.trans (fieldInstruction _ _)
    · exact hnoted
  | fieldCharacter | vectorShape =>
    dsimp only
    split
    · exact { refl s with }
    · exact refl s
  | picture => exact openPicture s tag
  | row | cell => exact onTable s _
  | skipped | other => exact refl s
  | _ => exact { refl s with }

theorem closeElement (s : State) {name : Text} (hnote : Element.ofName name ≠ .footnote)
    (hlink : Element.ofName name ≠ .hyperlink) (htable : Element.ofName name ≠ .table) :
    s.Continues (closeElement σ name s) := by
  unfold Word.closeElement
  cases he : Element.ofName name with
  | footnote => exact absurd he hnote
  | hyperlink => exact absurd he hlink
  | table => exact absurd he htable
  | run => exact closeRun s
  | drawing => exact closeDrawing s
  | paragraph => exact closeParagraph s
  | row | cell => exact onTable s _
  | text | instruction | runProperties | deleted => exact { refl s with }
  | _ => exact refl s

end State.Continues

/-! One element, outside skipped ones. -/

section Element
variable {σ : Source} {s : State} {tag : Tag}

theorem openElement_sameStacks (s : State) (hlink : Element.ofName tag.name ≠ .hyperlink)
    (htable : Element.ofName tag.name ≠ .table) : s.SameStacks (openElement σ tag s) := by
  by_cases hnote : Element.ofName tag.name = .footnote
  · simp only [openElement, hnote]
    exact ⟨.refl _, .refl _⟩
  · exact (State.Continues.openElement s hnote hlink htable).toSameStacks

theorem closeElement_sameStacks (s : State) {name : Text} (hlink : Element.ofName name ≠ .hyperlink)
    (htable : Element.ofName name ≠ .table) : s.SameStacks (closeElement σ name s) := by
  by_cases hnote : Element.ofName name = .footnote
  · simp only [closeElement, hnote, closeFootnote]
    split
    · split <;> exact ⟨.refl _, .refl _⟩
    · exact ⟨.refl _, .refl _⟩
  · exact (State.Continues.closeElement s hnote hlink htable).toSameStacks

theorem openElement_tables (σ : Source) (s : State) (tag : Tag) :
    OnTop (fun _ => ()) ((ofKind .table [tag]).map fun _ => ()) s.tables
      (openElement σ tag s).tables := by
  by_cases htable : Element.ofName tag.name = .table
  · rw [ofKind_singleton htable]
    simp only [openElement, htable]
    exact .push {} s.tables
  rw [ofKind_singleton_of_ne htable]
  by_cases hlink : Element.ofName tag.name = .hyperlink
  · simp only [openElement, hlink]
    exact .refl s.tables
  · exact (openElement_sameStacks s hlink htable).tables

theorem openElement_links (σ : Source) (s : State) (tag : Tag) :
    OnTop OpenLink.target ((ofKind .hyperlink [tag]).map σ.linkTarget) s.links
      (openElement σ tag s).links := by
  by_cases hlink : Element.ofName tag.name = .hyperlink
  · rw [ofKind_singleton hlink]
    simp only [openElement, hlink]
    exact .push { target := σ.linkTarget tag } s.links
  rw [ofKind_singleton_of_ne hlink]
  by_cases htable : Element.ofName tag.name = .table
  · simp only [openElement, htable]
    exact .refl s.links
  · exact (openElement_sameStacks s hlink htable).links

theorem closeElement_tables {marks : List Unit} {base : List OpenTable}
    (h : OnTop (fun _ => ()) ((ofKind .table [tag]).map (fun _ => ()) ++ marks) base s.tables) :
    OnTop (fun _ => ()) marks base (closeElement σ tag.name s).tables := by
  by_cases htable : Element.ofName tag.name = .table
  · rw [ofKind_singleton htable] at h
    simp only [closeElement, htable]
    exact h.pop.trans (State.Continues.closeTable s).tables
  rw [ofKind_singleton_of_ne htable, List.map_nil, List.nil_append] at h
  by_cases hlink : Element.ofName tag.name = .hyperlink
  · simp only [closeElement, hlink]
    exact h.trans (State.Continues.closeLink s).tables
  · exact h.trans (closeElement_sameStacks s hlink htable).tables

theorem closeElement_links {marks : List (Option Text)} {base : List OpenLink}
    (h : OnTop OpenLink.target ((ofKind .hyperlink [tag]).map σ.linkTarget ++ marks) base s.links) :
    OnTop OpenLink.target marks base (closeElement σ tag.name s).links := by
  by_cases hlink : Element.ofName tag.name = .hyperlink
  · rw [ofKind_singleton hlink] at h
    simp only [closeElement, hlink]
    exact h.pop.trans (State.Continues.closeLink s).links
  rw [ofKind_singleton_of_ne hlink, List.map_nil, List.nil_append] at h
  by_cases htable : Element.ofName tag.name = .table
  · simp only [closeElement, htable]
    exact h.trans (State.Continues.closeTable s).links
  · exact h.trans (closeElement_sameStacks s hlink htable).links

theorem openElement_deletedDepth (σ : Source) (s : State) (tag : Tag) :
    (openElement σ tag s).deletedDepth = s.deletedDepth + (ofKind .deleted [tag]).length := by
  have hdepth := congrArg (Outline.depth · .deleted) (openElement_outline (σ := σ) (s := s) tag)
  by_cases hdeleted : Element.ofName tag.name = .deleted
  · rw [ofKind_singleton hdeleted]
    simpa [Outline.opened, hdeleted, Element.isCounted, State.outline] using hdepth
  · rw [ofKind_singleton_of_ne hdeleted]
    simpa [Outline.opened, Ne.symm hdeleted, State.outline] using hdepth

theorem closeElement_deletedDepth (σ : Source) (s : State) (tag : Tag) :
    (closeElement σ tag.name s).deletedDepth =
      s.deletedDepth - (ofKind .deleted [tag]).length := by
  have hdepth := congrArg (Outline.depth · .deleted)
    (closeElement_outline (σ := σ) (s := s) tag.name)
  by_cases hdeleted : Element.ofName tag.name = .deleted
  · rw [ofKind_singleton hdeleted]
    simpa [Outline.closed, hdeleted, State.outline] using hdepth
  · rw [ofKind_singleton_of_ne hdeleted]
    simpa [Outline.closed, Ne.symm hdeleted, State.outline] using hdepth

end Element

/-! A part, from a state in which nothing is skipped. -/

/-- The state `t` holds what `s` held and above it what belongs to the elements `opens`. -/
structure State.Rises (σ : Source) (opens : List Tag) (s t : State) : Prop where
  skipDepth : t.skipDepth = (hidden opens).length
  deletedDepth : t.deletedDepth = s.deletedDepth + (ofKind .deleted (exposed opens)).length
  tables : OnTop (fun _ => ()) ((ofKind .table (exposed opens)).map fun _ => ()) s.tables t.tables
  links : OnTop OpenLink.target ((ofKind .hyperlink (exposed opens)).map σ.linkTarget) s.links
    t.links

namespace State.Rises
variable {σ : Source} {opens : List Tag} {tag : Tag} {s t t' : State}

theorem refl (hs : s.skipDepth = 0) : s.Rises σ [] s := ⟨hs, rfl, .refl _, .refl _⟩

/-- Inside a skipped element only the elements that are hidden change. -/
theorem skip (h : s.Rises σ opens t) {opens' : List Tag} (hexposed : exposed opens' = exposed opens)
    {n : Nat} (hn : n = (hidden opens').length) :
    s.Rises σ opens' { t with skipDepth := n } := by
  refine ⟨hn, ?_, ?_, ?_⟩
  · rw [hexposed]
    exact h.deletedDepth
  · rw [hexposed]
    exact h.tables
  · rw [hexposed]
    exact h.links

theorem opened (h : s.Rises σ opens t) (hvisible : hidden (tag :: opens) = []) :
    s.Rises σ (tag :: opens) (openElement σ tag t) := by
  have hopens : hidden opens = [] := (hidden_cons_eq_nil_iff.mp hvisible).2
  obtain ⟨hskip, hdeleted, htables, hlinks⟩ := h
  rw [exposed_of_hidden_eq_nil hopens] at hdeleted htables hlinks
  constructor
  · rw [openElement_skipDepth, hskip, hopens, hvisible]
  · rw [exposed_of_hidden_eq_nil hvisible, ofKind_cons, openElement_deletedDepth, hdeleted,
      List.length_append]
    omega
  · rw [exposed_of_hidden_eq_nil hvisible, ofKind_cons, List.map_append]
    exact htables.trans (openElement_tables σ t tag)
  · rw [exposed_of_hidden_eq_nil hvisible, ofKind_cons, List.map_append]
    exact hlinks.trans (openElement_links σ t tag)

theorem closed (h : s.Rises σ (tag :: opens) t) (hvisible : hidden (tag :: opens) = []) :
    s.Rises σ opens (closeElement σ tag.name t) := by
  have hopens : hidden opens = [] := (hidden_cons_eq_nil_iff.mp hvisible).2
  obtain ⟨hskip, hdeleted, htables, hlinks⟩ := h
  rw [exposed_of_hidden_eq_nil hvisible, ofKind_cons] at hdeleted htables hlinks
  rw [List.length_append] at hdeleted
  rw [List.map_append] at htables hlinks
  constructor
  · rw [closeElement_skipDepth, hskip, hopens, hvisible]
  · rw [exposed_of_hidden_eq_nil hopens, closeElement_deletedDepth, hdeleted]
    omega
  · rw [exposed_of_hidden_eq_nil hopens]
    exact closeElement_tables htables
  · rw [exposed_of_hidden_eq_nil hopens]
    exact closeElement_links hlinks

theorem captureText (h : s.Rises σ opens t) {raw : Text} (hread : captureText raw t = .ok t') :
    s.Rises σ opens t' := by
  have hdeleted : t'.deletedDepth = t.deletedDepth :=
    congrArg (Outline.depth · .deleted) (captureText_outline hread)
  have hkept := State.Continues.captureText hread
  exact ⟨(captureText_skipDepth hread).trans h.skipDepth, hdeleted.trans h.deletedDepth,
    h.tables.trans hkept.tables, h.links.trans hkept.links⟩

theorem step {event : Event} {stack : List Text} (h : s.Rises σ opens t)
    (hnest : nestStep (opens.map Tag.name) event = some stack)
    (hstep : step σ t event = .ok t') : s.Rises σ (enter opens event) t' := by
  have hdepth : t.skipDepth = 0 ↔ hidden opens = [] := by
    rw [h.skipDepth, List.length_eq_zero_iff]
  cases steps_of_step hstep with
  | @skips tag hs hskip =>
    have hhidden : hidden (tag :: opens) ≠ [] :=
      fun hnone => (hidden_cons_eq_nil_iff.mp hnone).1 hskip
    refine h.skip (exposed_cons_of_ne_nil hhidden) ?_
    rw [hidden_cons_of_ne_nil hhidden, hdepth.mp hs, List.length_singleton]
  | opens hs hskip => exact h.opened (hidden_cons_eq_nil_iff.mpr ⟨hskip, hdepth.mp hs⟩)
  | @empties tag hs =>
    by_cases hskip : Element.ofName tag.name = .skipped
    · rw [openElement_of_plain (.inr hskip), closeElement_of_plain (.inr hskip)]
      exact h
    · have hvisible : hidden (tag :: opens) = [] :=
        hidden_cons_eq_nil_iff.mpr ⟨hskip, hdepth.mp hs⟩
      exact (h.opened hvisible).closed hvisible
  | closes hs =>
    obtain ⟨tag, rest, rfl, rfl, -⟩ := List.map_eq_cons_iff.mp (Xml.nestStep_closed hnest)
    exact h.closed (hdepth.mp hs)
  | captures _ hread => exact h.captureText hread
  | @deepens tag d hs =>
    have hlength := h.skipDepth.symm.trans hs
    have hhidden : hidden (tag :: opens) ≠ [] := by
      intro hnone
      rw [(hidden_cons_eq_nil_iff.mp hnone).2] at hlength
      cases hlength
    refine h.skip (exposed_cons_of_ne_nil hhidden) ?_
    rw [hidden_cons_of_ne_nil hhidden, List.length_cons, hlength]
  | returns hs =>
    obtain ⟨tag, rest, rfl, rfl, -⟩ := List.map_eq_cons_iff.mp (Xml.nestStep_closed hnest)
    have hlength := h.skipDepth.symm.trans hs
    have hhidden : hidden (tag :: rest) ≠ [] := List.ne_nil_of_length_eq_add_one hlength
    refine h.skip (exposed_cons_of_ne_nil hhidden).symm ?_
    rw [hidden_cons_of_ne_nil hhidden, List.length_cons] at hlength
    exact (Nat.succ.inj hlength).symm
  | passesEmpty _ | passesText _ => exact h

/-- The run of the reader over events that nest. -/
theorem run {events : List Event} {stack : List Text} (h : s.Rises σ opens t)
    (hnest : nest (opens.map Tag.name) events = some stack)
    (hread : readEvents σ t events = .ok t') : s.Rises σ (enclosing opens events) t' := by
  induction events generalizing opens t with
  | nil =>
    obtain rfl := Except.ok.inj hread
    exact h
  | cons event events ih =>
    obtain ⟨hstep, hnest⟩ := Xml.nest_enter hnest
    obtain ⟨u, hu, hread⟩ := exists_ok_of_bind hread
    exact ih (h.step hstep hu) hnest hread

end State.Rises

/-! The open footnote. -/

/-- The open footnote starts among the blocks. -/
def State.NoteFits (s : State) : Prop := ∀ note ∈ s.footnote, note.firstBlock ≤ s.blocks.length

namespace State.NoteFits
variable {σ : Source} {s t : State}

theorem of_continues (h : s.NoteFits) (hkept : s.Continues t) : t.NoteFits := by
  intro note hnote
  rw [hkept.footnote] at hnote
  exact (h note hnote).trans hkept.blocks.length_le

theorem openElement (h : s.NoteFits) (tag : Tag) : (openElement σ tag s).NoteFits := by
  by_cases hnote : Element.ofName tag.name = .footnote
  · simp only [Word.openElement, hnote]
    rintro note ⟨⟩
    exact Nat.le_refl _
  by_cases hlink : Element.ofName tag.name = .hyperlink
  · simp only [Word.openElement, hlink]
    exact h
  by_cases htable : Element.ofName tag.name = .table
  · simp only [Word.openElement, htable]
    exact h
  exact h.of_continues (.openElement s hnote hlink htable)

/-- The end of a footnote takes blocks away, and with them the footnote is no longer open. -/
theorem closeElement (h : s.NoteFits) (name : Text) : (closeElement σ name s).NoteFits := by
  by_cases hnote : Element.ofName name = .footnote
  · have hnone : (Word.closeElement σ name s).footnote = none := by
      have hholds := congrArg (Outline.holds · .footnote)
        (closeElement_outline (σ := σ) (s := s) name)
      simpa [Outline.closed, hnote, State.outline] using hholds
    intro note hmem
    rw [hnone] at hmem
    cases hmem
  by_cases hlink : Element.ofName name = .hyperlink
  · simp only [Word.closeElement, hlink]
    exact of_continues (s := { s with links := s.links.tail }) h (.closeLink s)
  by_cases htable : Element.ofName name = .table
  · simp only [Word.closeElement, htable]
    exact of_continues (s := { s with tables := s.tables.tail }) h (.closeTable s)
  exact h.of_continues (.closeElement s hnote hlink htable)

theorem step {event : Event} (h : s.NoteFits) (hstep : step σ s event = .ok t) : t.NoteFits := by
  cases steps_of_step hstep with
  | opens _ _ => exact h.openElement _
  | empties _ => exact (h.openElement _).closeElement _
  | closes _ => exact h.closeElement _
  | captures _ hread => exact h.of_continues (.captureText hread)
  | skips _ _ | deepens _ | returns _ => exact h
  | passesEmpty _ | passesText _ => exact h

end State.NoteFits

/-! The stacks and the open elements. -/

section Mirrors
variable {σ : Source} {tag : Tag} {inner : List Tag} {s t : State} {events : List Event}
  {stack : List Text}

end Mirrors

end MarkdownExport.Word
