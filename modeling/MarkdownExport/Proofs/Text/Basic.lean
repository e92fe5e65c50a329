import Mathlib.Data.List.TakeDrop
import Mathlib.Data.List.TakeWhile
import MarkdownExport.Text.Basic

/-! Quantifiers over the scalars of a text, and splitting a text where a run of scalars ends. -/
namespace MarkdownExport.Text

section Quantifiers
variable (t : Text) (P : Char → Prop) [DecidablePred P]

/-- Decided along the text, and not over all scalars that there are. -/
instance decidableForall : Decidable (∀ c ∈ t, P c) := List.decidableBAll P t

instance decidableExists : Decidable (∃ c ∈ t, P c) := List.decidableBEx P t

end Quantifiers

theorem span_append {p : Char → Bool} {s : Text} (hs : ∀ c ∈ s, p c = true) {c : Char}
    (hc : p c = false) (t : Text) : (s ++ c :: t).span p = (s, c :: t) := by
  rw [List.span_eq_takeWhile_dropWhile, List.takeWhile_append_of_pos hs,
    List.dropWhile_append_of_pos hs]
  simp [hc]

theorem span_of_notMem {c : Char} {s : Text} (hs : c ∉ s) (t : Text) :
    (s ++ c :: t).span (fun d => decide (d ≠ c)) = (s, c :: t) := by
  refine span_append (fun d hd => ?_) (by simp) t
  have hne : d ≠ c := fun h => hs (h ▸ hd)
  simp [hne]

/-- What comes before the first place of a scalar is told by the text. -/
theorem eq_of_append_cons {c : Char} {s s' t t' : Text} (hs : c ∉ s) (hs' : c ∉ s')
    (h : s ++ c :: t = s' ++ c :: t') : s = s' := by
  have hspan := span_of_notMem hs t
  rw [h, span_of_notMem hs' t'] at hspan
  exact (congrArg Prod.fst hspan).symm

theorem span_all {p : Char → Bool} {s : Text} (hs : ∀ c ∈ s, p c = true) : s.span p = (s, []) := by
  rw [List.span_eq_takeWhile_dropWhile, List.takeWhile_eq_self_iff.mpr hs,
    List.dropWhile_eq_nil_iff.mpr hs]

section Run
variable {p : Char → Bool} {s t : Text}

theorem dropWhile_run (hs : ∀ c ∈ s, p c = true) (ht : ∀ c ∈ t.head?, p c = false) :
    (s ++ t).dropWhile p = t := by
  rw [List.dropWhile_append_of_pos hs]
  cases t with
  | nil => rfl
  | cons c t => exact List.dropWhile_cons_of_neg (by simp [ht c rfl])

theorem takeWhile_run (hs : ∀ c ∈ s, p c = true) (ht : ∀ c ∈ t.head?, p c = false) :
    (s ++ t).takeWhile p = s := by
  rw [List.takeWhile_append_of_pos hs]
  cases t with
  | nil => exact List.append_nil s
  | cons c t => rw [List.takeWhile_cons_of_neg (by simp [ht c rfl]), List.append_nil]

end Run

end MarkdownExport.Text
