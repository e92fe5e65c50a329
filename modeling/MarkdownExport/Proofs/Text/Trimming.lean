import Mathlib.Data.List.DropRight
import MarkdownExport.Text.Blank

/-! Blank texts, and what trimming leaves of texts that end or start with known scalars. -/
namespace MarkdownExport.Text

theorem allBlank_flatMap {α : Type} {xs : List α} {f : α → Text} :
    allBlank (xs.flatMap f) = true ↔ ∀ x ∈ xs, (f x).allBlank = true := by
  simp [allBlank]

theorem allBlank_of_infix {s t : Text} (h : s <:+: t) (ht : t.allBlank = true) :
    s.allBlank = true := by
  rw [allBlank, List.all_eq_true] at ht ⊢
  exact fun c hc => ht c (h.subset hc)

theorem trimEnd_of_allBlank {t : Text} (h : ∀ c ∈ t, isBlank c = true) : t.trimEnd = [] :=
  List.rdropWhile_eq_nil_iff.mpr h

theorem trimEnd_append_of_allBlank (s : Text) {t : Text} (h : ∀ c ∈ t, isBlank c = true) :
    (s ++ t).trimEnd = s.trimEnd := by
  induction t using List.reverseRecOn with
  | nil => rw [List.append_nil]
  | append_singleton t c ih =>
    rw [List.forall_mem_append, List.forall_mem_singleton] at h
    rw [← List.append_assoc, trimEnd_append_blank _ h.2, ih h.1]

theorem trimEnd_append_cons {c : Char} (hc : isBlank c = false) (body : Text) {rest : Text}
    (h : ∀ d ∈ rest, isBlank d = true) : (body ++ c :: rest).trimEnd = body ++ [c] := by
  rw [← List.singleton_append, ← List.append_assoc, trimEnd_append_of_allBlank _ h,
    trimEnd_append_nonblank _ hc]

/-- A text is blank, or blanks alone follow its last visible scalar. -/
theorem allBlank_or_exists_visible (t : Text) :
    (∀ c ∈ t, isBlank c = true) ∨
      ∃ body c rest, t = body ++ c :: rest ∧ isBlank c = false ∧ ∀ d ∈ rest, isBlank d = true := by
  induction t using List.reverseRecOn with
  | nil => simp
  | append_singleton t c ih =>
    by_cases hc : isBlank c = true
    · rcases ih with h | ⟨body, d, rest, rfl, hd, hrest⟩
      · left
        exact List.forall_mem_append.mpr ⟨h, List.forall_mem_singleton.mpr hc⟩
      · right
        refine ⟨body, d, rest ++ [c], by simp, hd, ?_⟩
        exact List.forall_mem_append.mpr ⟨hrest, List.forall_mem_singleton.mpr hc⟩
    · right
      exact ⟨t, c, [], rfl, by simpa using hc, by simp⟩

theorem trim_cons_blank {b : Char} (hb : isBlank b = true) (t : Text) : trim (b :: t) = trim t := by
  rw [trim, trimStart, List.dropWhile_cons_of_pos hb]
  rfl

theorem trim_append_blank (t : Text) {b : Char} (hb : isBlank b = true) :
    trim (t ++ [b]) = trim t := by
  unfold trim trimStart
  rw [List.dropWhile_append]
  split
  · rename_i hempty
    rw [List.isEmpty_iff.mp hempty, List.dropWhile_cons_of_pos hb]
    rfl
  · exact trimEnd_append_blank _ hb

section Visible
variable {c : Char} (hc : isBlank c = false)
include hc

/-- Nothing before a visible scalar is trimmed at the end. -/
theorem trimEnd_append_visible (s t : Text) : (s ++ c :: t).trimEnd = s ++ c :: t.trimEnd := by
  rcases allBlank_or_exists_visible t with h | ⟨body, d, rest, rfl, hd, hrest⟩
  · rw [trimEnd_append_cons hc s h, trimEnd_of_allBlank h]
  · have hassoc : s ++ c :: (body ++ d :: rest) = (s ++ c :: body) ++ d :: rest := by simp
    rw [hassoc, trimEnd_append_cons hd _ hrest, trimEnd_append_cons hd _ hrest]
    simp

theorem trimStart_append_visible (s t : Text) :
    (s ++ c :: t).trimStart = s.trimStart ++ c :: t := by
  unfold trimStart
  rw [List.dropWhile_append]
  split
  · rename_i hempty
    rw [List.isEmpty_iff.mp hempty, List.dropWhile_cons_of_neg (by simp [hc]), List.nil_append]
  · rfl

end Visible

section Ends
variable {s t : Text}

theorem trimEnd_append_of_visible (s : Text) (ht : ∃ c ∈ t, isBlank c = false) :
    (s ++ t).trimEnd = s ++ t.trimEnd := by
  obtain ⟨c, hmem, hc⟩ := ht
  obtain ⟨u, v, rfl⟩ := List.append_of_mem hmem
  rw [← List.append_assoc, trimEnd_append_visible hc, trimEnd_append_visible hc, List.append_assoc]

theorem trimStart_append_of_visible (hs : ∃ c ∈ s, isBlank c = false) (t : Text) :
    (s ++ t).trimStart = s.trimStart ++ t := by
  obtain ⟨c, hmem, hc⟩ := hs
  obtain ⟨u, v, rfl⟩ := List.append_of_mem hmem
  rw [List.append_assoc, List.cons_append, trimStart_append_visible hc, trimStart_append_visible hc,
    List.append_assoc, List.cons_append]

/-- Nothing between visible scalars is trimmed. -/
theorem trim_append_append (hs : ∃ c ∈ s, isBlank c = false) (ht : ∃ c ∈ t, isBlank c = false)
    (r : Text) : (s ++ r ++ t).trim = s.trimStart ++ r ++ t.trimEnd := by
  rw [trim, List.append_assoc, trimStart_append_of_visible hs, ← List.append_assoc,
    trimEnd_append_of_visible _ ht]

end Ends

/-- The ends of a text may be trimmed in either order. -/
theorem trimStart_trimEnd (t : Text) : t.trimEnd.trimStart = t.trim := by
  rcases allBlank_or_exists_visible t with h | ⟨body, c, rest, rfl, hc, hrest⟩
  · have hstart : t.trimStart = [] := List.dropWhile_eq_nil_iff.mpr h
    rw [trim, hstart, trimEnd_of_allBlank h]
    rfl
  · rw [trimEnd_append_cons hc body hrest, trim, trimStart_append_visible hc,
      trimStart_append_visible hc, trimEnd_append_cons hc _ hrest]

/-- No blank at either end. -/
structure IsTrimmed (t : Text) : Prop where
  start : ∀ c ∈ t.head?, isBlank c = false
  ending : ∀ c ∈ t.getLast?, isBlank c = false

theorem IsTrimmed.trim_eq {t : Text} (h : IsTrimmed t) : t.trim = t := by
  have hstart : t.trimStart = t := by
    cases t with
    | nil => rfl
    | cons c t =>
      rw [trimStart, List.dropWhile_cons_of_neg]
      simp [h.start c rfl]
  rw [trim, hstart]
  cases t using List.reverseRecOn with
  | nil => rfl
  | append_singleton t c => exact trimEnd_append_nonblank t (h.ending c (by simp))

theorem trimEnd_isPrefix (t : Text) : t.trimEnd <+: t := List.rdropWhile_prefix isBlank t

theorem isTrimmed_trim (t : Text) : IsTrimmed t.trim where
  start c hc := by
    obtain ⟨rest, hrest⟩ := trimEnd_isPrefix t.trimStart
    have hhead : t.trimStart.head? = some c := by
      rw [← hrest, List.head?_append]
      rw [Option.mem_def, trim] at hc
      rw [hc, Option.some_or]
    have hnot := List.head?_dropWhile_not isBlank t
    rw [trimStart] at hhead
    rw [hhead] at hnot
    exact hnot
  ending c hc := by
    have hnot := List.head?_dropWhile_not isBlank t.trimStart.reverse
    rw [Option.mem_def, trim, trimEnd, List.getLast?_reverse] at hc
    rw [hc] at hnot
    exact hnot

theorem ne_newline_of_not_isBlank {c : Char} (hc : isBlank c = false) : c ≠ '\n' := by
  rintro rfl
  exact absurd hc (by decide)

end MarkdownExport.Text
