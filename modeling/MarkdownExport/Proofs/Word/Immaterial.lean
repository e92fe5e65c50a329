import Mathlib.Logic.Relation
import MarkdownExport.Proofs.Word.Openness

/-! Markup that makes no difference to the reader: skipped elements, the tags of elements that it
does not know, and the two spellings of an element without content. -/
namespace MarkdownExport.Word
open Xml (Event Tag Balanced nest)

variable {σ : Source} {s s' : State} {stack stack' : List Text} {events : List Event}

/-- Inside a skipped element only the depth of nesting changes. -/
theorem step_skipping {event : Event} {n : Nat} (hs : s.skipDepth = stack.length + n + 1)
    (hnest : Xml.nestStep stack event = some stack') :
    step σ s event = .ok { s with skipDepth := stack'.length + n + 1 } := by
  cases event with
  | opened tag =>
    obtain rfl := Xml.nestStep_opened hnest
    simp only [step, hs, List.length_cons, Nat.add_right_comm _ 1 n]
  | closed name =>
    obtain rfl := Xml.nestStep_closed hnest
    simp only [step, hs, List.length_cons, Nat.add_right_comm _ 1 n]
  | empty tag | text raw =>
    obtain rfl := Option.some.inj hnest
    simp only [step, hs]
    rw [← hs]

theorem readEvents_skipping {n : Nat} (hs : s.skipDepth = stack.length + n + 1)
    (hnest : nest stack events = some stack') :
    readEvents σ s events = .ok { s with skipDepth := stack'.length + n + 1 } := by
  induction events generalizing stack s with
  | nil =>
    obtain rfl := Option.some.inj hnest
    rw [← hs]
    rfl
  | cons event events ih =>
    obtain ⟨middle, hstep, hnest⟩ := Option.bind_eq_some_iff.mp hnest
    rw [readEvents_cons, step_skipping hs hstep]
    exact ih rfl hnest

theorem readEvents_balanced_of_skipping (hs : s.skipDepth ≠ 0) (h : Balanced events) :
    readEvents σ s events = .ok s := by
  obtain ⟨n, hn⟩ := Nat.exists_eq_succ_of_ne_zero hs
  have hdepth : s.skipDepth = ([] : List Text).length + n + 1 := by simpa using hn
  have hread := readEvents_skipping (σ := σ) hdepth h
  rw [List.length_nil, Nat.zero_add, ← Nat.succ_eq_add_one, ← hn] at hread
  exact hread

theorem Outline.step_skipDepth_le {o : Outline} {event : Event} (h : o.skipDepth ≤ stack.length)
    (hnest : Xml.nestStep stack event = some stack') :
    (o.step event).skipDepth ≤ stack'.length := by
  obtain ⟨holds, depth, d⟩ := o
  cases event with
  | opened tag =>
    obtain rfl := Xml.nestStep_opened hnest
    cases d with
    | zero =>
      simp only [Outline.step]
      split
      · exact Nat.succ_le_succ h
      · exact Nat.zero_le _
    | succ d => exact Nat.succ_le_succ h
  | closed name =>
    obtain rfl := Xml.nestStep_closed hnest
    cases d with
    | zero => exact Nat.zero_le _
    | succ d => exact Nat.le_of_succ_le_succ h
  | empty tag | text raw =>
    obtain rfl := Option.some.inj hnest
    cases d with
    | zero => exact Nat.zero_le _
    | succ d => exact h

/-- Outside skipped elements, whole elements leave nothing skipped. -/
theorem skipDepth_of_balanced (hs : s.skipDepth = 0) (h : Balanced events)
    (hread : readEvents σ s events = .ok s') : s'.skipDepth = 0 := by
  have keeps : s'.outline.skipDepth ≤ ([] : List Text).length := by
    have hstart : s.outline.skipDepth ≤ ([] : List Text).length := Nat.le_of_eq hs
    refine readEvents_of_nest (R := fun stack s => s.outline.skipDepth ≤ stack.length) ?_
      hstart h hread
    intro stack stack' s s' event h hnest hstep
    rw [step_outline hstep]
    exact Outline.step_skipDepth_le h hnest
  exact Nat.le_zero.mp keeps

/-- One change of markup, anywhere in a part. -/
inductive Immaterial : List Event → List Event → Prop
  /-- A skipped element goes with all that it holds. -/
  | skipped (before : List Event) (tag : Tag) (inside after : List Event) :
      Element.ofName tag.name = .skipped → Balanced inside →
      Immaterial (before ++ .opened tag :: (inside ++ .closed tag.name :: after)) (before ++ after)
  | skippedEmpty (before : List Event) (tag : Tag) (after : List Event) :
      Element.ofName tag.name = .skipped →
      Immaterial (before ++ .empty tag :: after) (before ++ after)
  /-- An element without a meaning goes and what it holds stays. -/
  | unknown (before : List Event) (tag : Tag) (inside after : List Event) :
      Element.ofName tag.name = .other → Balanced inside →
      Immaterial (before ++ .opened tag :: (inside ++ .closed tag.name :: after))
        (before ++ (inside ++ after))
  | unknownEmpty (before : List Event) (tag : Tag) (after : List Event) :
      Element.ofName tag.name = .other →
      Immaterial (before ++ .empty tag :: after) (before ++ after)
  /-- An element without content has two spellings. -/
  | spelling (before : List Event) (tag : Tag) (after : List Event) :
      Immaterial (before ++ .empty tag :: after)
        (before ++ .opened tag :: .closed tag.name :: after)

section Element
variable {tag : Tag} {inside : List Event}

theorem readEvents_element_of_skipping (hs : s.skipDepth ≠ 0) (tag : Tag) (h : Balanced inside)
    (after : List Event) :
    readEvents σ s (.opened tag :: (inside ++ .closed tag.name :: after)) =
      readEvents σ s after := by
  have hread := readEvents_balanced_of_skipping (σ := σ) hs (h.element tag)
  rw [List.append_cons, ← List.cons_append, readEvents_append_of_ok hread]

theorem readEvents_skippedElement (hname : Element.ofName tag.name = .skipped)
    (h : Balanced inside) (after : List Event) :
    readEvents σ s (.opened tag :: (inside ++ .closed tag.name :: after)) =
      readEvents σ s after := by
  by_cases hs : s.skipDepth = 0
  · have hopen : step σ s (.opened tag) = .ok { s with skipDepth := 1 } := by
      simp only [step, hs, hname, if_true]
    have hinside : readEvents σ { s with skipDepth := 1 } inside = .ok { s with skipDepth := 1 } :=
      readEvents_balanced_of_skipping Nat.one_ne_zero h
    have hclose : step σ { s with skipDepth := 1 } (.closed tag.name) = .ok s := by
      simp only [step, ← hs]
    rw [readEvents_cons_of_step hopen, readEvents_append_of_ok hinside,
      readEvents_cons_of_step hclose]
  · exact readEvents_element_of_skipping hs tag h after

theorem openElement_of_plain (h : Element.ofName tag.name = .other ∨
    Element.ofName tag.name = .skipped) : openElement σ tag s = s := by
  rcases h with h | h <;> simp only [openElement, h]

theorem closeElement_of_plain {name : Text} (h : Element.ofName name = .other ∨
    Element.ofName name = .skipped) : closeElement σ name s = s := by
  rcases h with h | h <;> simp only [closeElement, h]

theorem readEvents_plainEmpty (h : Element.ofName tag.name = .other ∨
    Element.ofName tag.name = .skipped) (after : List Event) :
    readEvents σ s (.empty tag :: after) = readEvents σ s after := by
  have hstep : step σ s (.empty tag) = .ok s := by
    cases hs : s.skipDepth with
    | zero => rw [step_empty hs, openElement_of_plain h, closeElement_of_plain h]
    | succ d => simp only [step, hs]
  rw [readEvents_cons_of_step hstep]

theorem readEvents_unknownElement (hname : Element.ofName tag.name = .other)
    (h : Balanced inside) (after : List Event) :
    readEvents σ s (.opened tag :: (inside ++ .closed tag.name :: after)) =
      readEvents σ s (inside ++ after) := by
  by_cases hs : s.skipDepth = 0
  · have hopen : step σ s (.opened tag) = .ok s := by
      simp only [step, hs, openElement_of_plain (.inl hname)]
      rw [if_neg (by simp [hname])]
    rw [readEvents_cons_of_step hopen]
    cases hinside : readEvents σ s inside with
    | error e => rw [readEvents_append, readEvents_append, hinside]; rfl
    | ok t =>
      have hclose : step σ t (.closed tag.name) = .ok t := by
        rw [step_closed (skipDepth_of_balanced hs h hinside), closeElement_of_plain (.inl hname)]
      rw [readEvents_append_of_ok hinside, readEvents_append_of_ok hinside,
        readEvents_cons_of_step hclose]
  · rw [readEvents_element_of_skipping hs tag h,
      readEvents_append_of_ok (readEvents_balanced_of_skipping hs h)]

theorem readEvents_emptyElement (tag : Tag) (after : List Event) :
    readEvents σ s (.empty tag :: after) =
      readEvents σ s (.opened tag :: .closed tag.name :: after) := by
  have hnone : Balanced [] := rfl
  by_cases hname : Element.ofName tag.name = .skipped
  · have hpair := readEvents_skippedElement (σ := σ) (s := s) hname hnone after
    rw [readEvents_plainEmpty (.inr hname), ← hpair]
    rfl
  · by_cases hs : s.skipDepth = 0
    · have hkept : (openElement σ tag s).skipDepth = 0 := (openElement_skipDepth tag).trans hs
      have hopen : step σ s (.opened tag) = .ok (openElement σ tag s) := step_opened hs hname
      have hclose : step σ (openElement σ tag s) (.closed tag.name) = step σ s (.empty tag) := by
        rw [step_closed hkept, step_empty hs]
      rw [readEvents_cons_of_step hopen, readEvents_cons, readEvents_cons, hclose]
    · have hpair := readEvents_element_of_skipping (σ := σ) hs tag hnone after
      rw [List.nil_append] at hpair
      have hstep : step σ s (.empty tag) = .ok s := by
        obtain ⟨d, hd⟩ := Nat.exists_eq_succ_of_ne_zero hs
        simp only [step, hd]
      rw [hpair, readEvents_cons_of_step hstep]

end Element

theorem Immaterial.readEvents_eq {es fs : List Event} (h : Immaterial es fs) (s : State) :
    readEvents σ s es = readEvents σ s fs := by
  cases h with
  | skipped before tag inside after hname hinside =>
    rw [readEvents_append, readEvents_append]
    congr 1
    funext t
    exact readEvents_skippedElement hname hinside after
  | skippedEmpty before tag after hname =>
    rw [readEvents_append, readEvents_append]
    congr 1
    funext t
    exact readEvents_plainEmpty (.inr hname) after
  | unknown before tag inside after hname hinside =>
    rw [readEvents_append, readEvents_append]
    congr 1
    funext t
    exact readEvents_unknownElement hname hinside after
  | unknownEmpty before tag after hname =>
    rw [readEvents_append, readEvents_append]
    congr 1
    funext t
    exact readEvents_plainEmpty (.inl hname) after
  | spelling before tag after =>
    rw [readEvents_append, readEvents_append]
    congr 1
    funext t
    exact readEvents_emptyElement tag after

/-- Parts that differ in such markup only are read to the same state, or fail in the same way. -/
theorem readPart_immaterial {es fs : List Event} (h : Relation.EqvGen Immaterial es fs)
    (failure : Option Xml.Error) : readPart σ ⟨es, failure⟩ = readPart σ ⟨fs, failure⟩ := by
  have hread : readEvents σ {} es = readEvents σ {} fs := by
    induction h with
    | rel es fs h => exact h.readEvents_eq {}
    | refl es => rfl
    | symm es fs _ ih => exact ih.symm
    | trans es fs gs _ _ ih ih' => exact ih.trans ih'
  simp only [readPart, hread]

/-- In the midst of a text a fallback goes, then an unknown element around the run, and the empty
run behind it takes its other spelling. -/
theorem readPart_immaterial_fallback :
    let p : Tag := ⟨"w:p", []⟩
    let r : Tag := ⟨"w:r", []⟩
    let t : Tag := ⟨"w:t", []⟩
    let unknown : Tag := ⟨"w:smartTag", []⟩
    let fallback : Tag := ⟨"mc:Fallback", []⟩
    readPart {} ⟨[.opened p, .opened unknown, .opened r, .opened t, .text "a", .opened fallback,
        .opened p, .text "b", .closed p.name, .closed fallback.name, .closed t.name,
        .closed r.name, .closed unknown.name, .empty r, .closed p.name], none⟩ =
      readPart {} ⟨[.opened p, .opened r, .opened t, .text "a", .closed t.name, .closed r.name,
        .opened r, .closed r.name, .closed p.name], none⟩ := by
  intro p r t unknown fallback
  have hfallback := Immaterial.skipped
    [.opened p, .opened unknown, .opened r, .opened t, .text "a"] fallback
    [.opened p, .text "b", .closed p.name]
    [.closed t.name, .closed r.name, .closed unknown.name, .empty r, .closed p.name]
    (by decide) (by decide)
  have hunknown := Immaterial.unknown [.opened p] unknown
    [.opened r, .opened t, .text "a", .closed t.name, .closed r.name]
    [.empty r, .closed p.name] (by decide) (by decide)
  have hspelling := Immaterial.spelling
    [.opened p, .opened r, .opened t, .text "a", .closed t.name, .closed r.name] r [.closed p.name]
  exact readPart_immaterial (.trans _ _ _ (.rel _ _ hfallback)
    (.trans _ _ _ (.rel _ _ hunknown) (.rel _ _ hspelling))) none

end MarkdownExport.Word
