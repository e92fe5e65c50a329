import Mathlib.Data.Set.Card
import MarkdownExport.Proofs.Text.Basic
import MarkdownExport.Text.Blank

/-! Words are the maximal runs of scalars that are not blank. -/
namespace MarkdownExport.Text

/-- A text cut in three. -/
@[ext] structure Cut where
  before : Text
  word : Text
  after : Text

/-- The middle is a run of visible scalars that cannot be made longer at either end. -/
structure IsRun (t : Text) (cut : Cut) : Prop where
  whole : cut.before ++ (cut.word ++ cut.after) = t
  nonempty : cut.word ≠ []
  visible : ∀ c ∈ cut.word, isBlank c = false
  starts : ∀ c ∈ cut.before.getLast?, isBlank c = true
  ends : ∀ c ∈ cut.after.head?, isBlank c = true

def Cut.push (s : Text) (cut : Cut) : Cut := { cut with before := s ++ cut.before }

theorem Cut.push_injective (s : Text) : Function.Injective (Cut.push s) := by
  intro x y h
  obtain ⟨hbefore, hword, hafter⟩ := Cut.mk.inj h
  exact Cut.ext (List.append_cancel_left hbefore) hword hafter

variable {w : Text}

/-- A run that starts among visible scalars starts with the first one. -/
theorem IsRun.eq_of_prefix {t : Text} {cut : Cut} (h : IsRun t cut)
    (hw : ∀ c ∈ w, isBlank c = false) (hbefore : cut.before <+: w) : cut.before = [] := by
  rcases List.eq_nil_or_concat cut.before with hnil | ⟨s, c, hs⟩
  · exact hnil
  · rw [List.concat_eq_append] at hs
    have hblank : isBlank c = true := h.starts c (by rw [hs, List.getLast?_concat]; rfl)
    have hvisible : isBlank c = false := hw c (hbefore.subset (by rw [hs]; simp))
    rw [hblank] at hvisible
    cases hvisible

theorem isRun_visible (hw : ∀ c ∈ w, isBlank c = false) (cut : Cut) :
    IsRun w cut ↔ w ≠ [] ∧ cut = ⟨[], w, []⟩ := by
  constructor
  · intro h
    have hbefore := h.eq_of_prefix hw ⟨_, h.whole⟩
    have hwhole := h.whole
    rw [hbefore, List.nil_append] at hwhole
    have hafter : cut.after = [] := by
      cases hcut : cut.after with
      | nil => rfl
      | cons c t =>
        have hblank := h.ends c (by rw [hcut]; rfl)
        rw [hw c (by rw [← hwhole, hcut]; simp)] at hblank
        cases hblank
    rw [hafter, List.append_nil] at hwhole
    exact ⟨hwhole ▸ h.nonempty, Cut.ext hbefore hwhole hafter⟩
  · rintro ⟨hne, rfl⟩
    exact ⟨List.append_nil w, hne, hw, by simp, by simp⟩

theorem isRun_append (hw : ∀ c ∈ w, isBlank c = false) {b : Char} (hb : isBlank b = true)
    (t : Text) (cut : Cut) :
    IsRun (w ++ b :: t) cut ↔ (w ≠ [] ∧ cut = ⟨[], w, b :: t⟩) ∨
      ∃ cut', IsRun t cut' ∧ cut'.push (w ++ [b]) = cut := by
  constructor
  · intro h
    rcases List.append_eq_append_iff.mp h.whole with ⟨r, hr, hrest⟩ | ⟨r, hr, hrest⟩
    · -- the run starts in `w`, so it is `w`
      have hbefore := h.eq_of_prefix hw ⟨r, hr.symm⟩
      have hwhole := h.whole
      rw [hbefore, List.nil_append] at hwhole
      have hvisible (s : Text) (hs : ∀ c ∈ s, isBlank c = false) :
          ∀ c ∈ s, (!isBlank c) = true := fun c hc => by rw [hs c hc]; rfl
      have hword : cut.word = w := by
        rw [← takeWhile_run (t := cut.after) (hvisible _ h.visible)
            fun c hc => by rw [h.ends c hc]; rfl,
          hwhole, takeWhile_run (hvisible _ hw) fun c hc => by
            cases hc
            rw [hb]
            rfl]
      rw [hword] at hwhole
      exact Or.inl ⟨hword ▸ h.nonempty,
        Cut.ext hbefore hword (List.append_cancel_left hwhole)⟩
    · cases r with
      | nil =>
        -- the run would start with the blank scalar
        obtain ⟨c, word, hword⟩ := List.exists_cons_of_ne_nil h.nonempty
        rw [List.nil_append, hword, List.cons_append, List.cons.injEq] at hrest
        have hvisible := h.visible c (by rw [hword]; exact List.mem_cons_self)
        rw [← hrest.1, hb] at hvisible
        cases hvisible
      | cons b' r =>
        rw [List.cons_append, List.cons.injEq] at hrest
        obtain ⟨rfl, hrest⟩ := hrest
        refine Or.inr ⟨⟨r, cut.word, cut.after⟩,
          ⟨hrest.symm, h.nonempty, h.visible, fun c hc => h.starts c ?_, h.ends⟩, ?_⟩
        · rw [hr, List.getLast?_append_cons, List.getLast?_cons, Option.mem_def.mp hc]
          rfl
        · exact Cut.ext (by rw [hr]; simp [Cut.push]) rfl rfl
  · rintro (⟨hne, rfl⟩ | ⟨cut, h, rfl⟩)
    · exact ⟨rfl, hne, hw, by simp, fun c hc => by cases hc; exact hb⟩
    · refine ⟨by simp [Cut.push, ← h.whole], h.nonempty, h.visible, fun c hc => ?_, h.ends⟩
      have hlast : (cut.push (w ++ [b])).before.getLast? = some (cut.before.getLast?.getD b) := by
        rw [Cut.push, List.append_assoc, List.singleton_append, List.getLast?_append_cons,
          List.getLast?_cons]
      rw [hlast] at hc
      cases hbefore : cut.before.getLast? with
      | none =>
        rw [hbefore] at hc
        cases hc
        exact hb
      | some d =>
        rw [hbefore] at hc
        cases hc
        exact h.starts d hbefore

theorem words_visible (hw : ∀ c ∈ w, isBlank c = false) :
    words w = if w = [] then [] else [w] := by
  rw [words, List.splitOnP_eq_singleton hw]
  cases w <;> rfl

theorem words_append (hw : ∀ c ∈ w, isBlank c = false) {b : Char} (hb : isBlank b = true)
    (t : Text) : words (w ++ b :: t) = (if w = [] then [] else [w]) ++ words t := by
  rw [words, List.splitOnP_append_cons w t hb, List.filter_append, words, ← words_visible hw]
  rfl

/-- A text is visible, or a visible text in front of a blank scalar. -/
@[elab_as_elim]
theorem words_induction {motive : Text → Prop} (t : Text)
    (last : ∀ w, (∀ c ∈ w, isBlank c = false) → motive w)
    (word : ∀ w b t, (∀ c ∈ w, isBlank c = false) → isBlank b = true → motive t →
      motive (w ++ b :: t)) : motive t := by
  -- the word that has begun waits in front of the text
  suffices h : ∀ w, (∀ c ∈ w, isBlank c = false) → motive (w ++ t) from
    h [] fun _ hc => absurd hc List.not_mem_nil
  induction t with
  | nil =>
    intro w hw
    rw [List.append_nil]
    exact last w hw
  | cons c t ih =>
    intro w hw
    cases hc : isBlank c with
    | true => exact word w c t hw hc (ih [] fun _ hc => absurd hc List.not_mem_nil)
    | false =>
      rw [List.append_cons]
      refine ih _ fun d hd => ?_
      rcases List.mem_append.mp hd with hd | hd
      · exact hw d hd
      · rw [List.mem_singleton.mp hd, hc]

theorem encard_isRun (t : Text) : {cut | IsRun t cut}.encard = (words t).length := by
  induction t using words_induction with
  | last w hw =>
    simp only [isRun_visible hw, words_visible hw]
    split
    · rename_i hnil
      simp [hnil]
    · rename_i hne
      simp [hne]
  | word w b t hw hb ih =>
    have hset : {cut | IsRun (w ++ b :: t) cut} =
        {cut | w ≠ [] ∧ cut = ⟨[], w, b :: t⟩} ∪ Cut.push (w ++ [b]) '' {cut | IsRun t cut} := by
      ext cut
      exact isRun_append hw hb t cut
    have hdisjoint : Disjoint {cut | w ≠ [] ∧ cut = ⟨[], w, b :: t⟩}
        (Cut.push (w ++ [b]) '' {cut | IsRun t cut}) := by
      rw [Set.disjoint_left]
      rintro cut ⟨-, rfl⟩ ⟨cut', -, h⟩
      simpa [Cut.push] using congrArg Cut.before h
    rw [hset, Set.encard_union_eq hdisjoint, (Cut.push_injective _).encard_image, ih,
      words_append hw hb, List.length_append]
    split
    · rename_i hnil
      simp [hnil]
    · rename_i hne
      simp [hne]

/-- There are as many words as maximal runs. -/
theorem length_words (t : Text) : (words t).length = {cut | IsRun t cut}.ncard := by
  rw [Set.ncard, encard_isRun]
  rfl

end MarkdownExport.Text
