import MarkdownExport.Text.Basic

/-! The lines of a text that is put together from others. Everything follows from one equation: a
text splits at a newline. -/
namespace MarkdownExport.Text

theorem lines_append_newline (s t : Text) : lines (s ++ '\n' :: t) = lines s ++ lines t :=
  List.splitOn_append_cons_self s t

theorem lines_of_notMem {t : Text} (h : '\n' ∉ t) : lines t = [t] :=
  List.splitOn_eq_singleton h

theorem newline_mem_intercalate {between : Text} (hbetween : '\n' ∉ between) {ts : List Text} :
    '\n' ∈ List.intercalate between ts ↔ ∃ t ∈ ts, '\n' ∈ t := by
  induction ts with
  | nil => simp
  | cons t ts ih =>
    cases ts with
    | nil => simp
    | cons u ts =>
      rw [List.intercalate_cons_cons, List.mem_append, List.mem_append, ih]
      simp [hbetween]

theorem lines_ne_nil (t : Text) : lines t ≠ [] := List.splitOn_ne_nil '\n' t

theorem lines_eq_singleton_iff {t : Text} : lines t = [t] ↔ '\n' ∉ t := by
  refine ⟨fun h hmem => ?_, lines_of_notMem⟩
  obtain ⟨s, r, rfl⟩ := List.append_of_mem hmem
  have hlength := congrArg List.length h
  rw [lines_append_newline, List.length_append, List.length_singleton] at hlength
  have hs := List.length_pos_iff.mpr (lines_ne_nil s)
  have hr := List.length_pos_iff.mpr (lines_ne_nil r)
  omega

/-- A text is its last line, or a line in front of a text. -/
@[elab_as_elim]
theorem lines_induction {motive : Text → Prop} (t : Text)
    (last : ∀ l, '\n' ∉ l → motive l)
    (line : ∀ l t, '\n' ∉ l → motive t → motive (l ++ '\n' :: t)) : motive t := by
  -- the line that has begun waits in front of the text
  suffices h : ∀ l, '\n' ∉ l → motive (l ++ t) from h [] List.not_mem_nil
  induction t with
  | nil =>
    intro l hl
    rw [List.append_nil]
    exact last l hl
  | cons c t ih =>
    intro l hl
    by_cases hc : c = '\n'
    · rw [hc]
      exact line l t hl (ih [] List.not_mem_nil)
    · have hcons : l ++ c :: t = (l ++ [c]) ++ t := by simp
      rw [hcons]
      exact ih _ (by simp [hl, Ne.symm hc])

theorem lines_line {l : Text} (hl : '\n' ∉ l) (t : Text) :
    lines (l ++ '\n' :: t) = l :: lines t := by
  rw [lines_append_newline, lines_of_notMem hl, List.singleton_append]

/-- Texts that each stand in front of a newline. -/
theorem lines_flatten_append (ts : List Text) (t : Text) :
    lines ((ts.map (· ++ ['\n'])).flatten ++ t) = ts.flatMap lines ++ lines t := by
  induction ts with
  | nil => rfl
  | cons s ts ih =>
    rw [List.map_cons, List.flatten_cons, List.append_assoc, List.append_assoc,
      List.singleton_append, lines_append_newline, ih, List.flatMap_cons, List.append_assoc]

/-- Lines that each end in a newline. -/
theorem lines_flatten_of_notMem {ls : List Text} (h : ∀ l ∈ ls, '\n' ∉ l) :
    lines (ls.map (· ++ ['\n'])).flatten = ls ++ [[]] := by
  have hlines : ls.flatMap lines = ls := by
    induction ls with
    | nil => rfl
    | cons l ls ih =>
      rw [List.forall_mem_cons] at h
      rw [List.flatMap_cons, lines_of_notMem h.1, ih h.2, List.singleton_append]
  have happend := lines_flatten_append ls []
  rwa [List.append_nil, hlines] at happend

theorem newline_notMem_of_mem_lines {l t : Text} (h : l ∈ lines t) : '\n' ∉ l := by
  induction t using lines_induction with
  | last r hr =>
    rw [lines_of_notMem hr, List.mem_singleton] at h
    rwa [h]
  | line r t hr ih =>
    rw [lines_line hr, List.mem_cons] at h
    rcases h with rfl | h
    · exact hr
    · exact ih h

/-- Lines that are each read from what was written for them. -/
theorem mapM_map_eq_some {α β γ : Type} {f : β → Option γ} {g : α → β} {h : α → γ} {xs : List α}
    (hf : ∀ x ∈ xs, f (g x) = some (h x)) : (xs.map g).mapM f = some (xs.map h) := by
  induction xs with
  | nil => rfl
  | cons x xs ih =>
    rw [List.forall_mem_cons] at hf
    rw [List.map_cons, List.mapM_cons, hf.1, ih hf.2]
    rfl

/-! Joining lines. -/

theorem unlines_lines (t : Text) : unlines t.lines = t := List.intercalate_splitOn '\n'

theorem lines_unlines {ls : List Text} (hne : ls ≠ []) (h : ∀ l ∈ ls, '\n' ∉ l) :
    lines (unlines ls) = ls :=
  List.splitOn_intercalate '\n' h hne

theorem unlines_cons {ls : List Text} (h : ls ≠ []) (l : Text) :
    unlines (l :: ls) = l ++ '\n' :: unlines ls := by
  obtain ⟨l', ls, rfl⟩ := List.exists_cons_of_ne_nil h
  rw [unlines, List.intercalate_cons_cons, List.append_assoc, List.singleton_append]
  rfl

theorem unlines_append {ls ms : List Text} (hls : ls ≠ []) (hms : ms ≠ []) :
    unlines (ls ++ ms) = unlines ls ++ '\n' :: unlines ms := by
  induction ls with
  | nil => contradiction
  | cons l ls ih =>
    by_cases h : ls = []
    · rw [h, List.singleton_append, unlines_cons hms, unlines, unlines, List.intercalate_singleton]
    · rw [List.cons_append, unlines_cons (by simp [h]), unlines_cons h, ih h, List.append_assoc]
      rfl

theorem unlines_isPrefix {ls ms : List Text} (h : ls <+: ms) : unlines ls <+: unlines ms := by
  obtain ⟨rest, rfl⟩ := h
  by_cases hls : ls = []
  · rw [hls]
    exact List.nil_prefix
  · by_cases hrest : rest = []
    · have happend : ls = ls ++ rest := by rw [hrest, List.append_nil]
      exact happend ▸ List.prefix_rfl
    · rw [unlines_append hls hrest]
      exact List.prefix_append _ _

section Around
variable {w : Text} {c : Char} (hc : c ≠ '\n') (hw : c ∉ w) (s t : Text)

include hc in
theorem exists_lines_append_cons {l : Text} (hl : '\n' ∉ l) :
    ∃ r, lines (l ++ c :: t) = (l ++ c :: r) :: (lines t).tail := by
  induction t using lines_induction with
  | last r hr =>
    refine ⟨r, ?_⟩
    rw [lines_of_notMem (by simp [hl, hr, Ne.symm hc]), lines_of_notMem hr, List.tail_cons]
  | line r t hr _ =>
    refine ⟨r, ?_⟩
    have hline : '\n' ∉ l ++ c :: r := by simp [hl, hr, Ne.symm hc]
    rw [← List.cons_append, ← List.append_assoc, lines_line hline, lines_line hr, List.tail_cons]

include hc hw

/-- A line without the scalar between two texts is a line of one of them, and not the one that the
scalar stands on. -/
theorem mem_lines_append_cons_iff :
    w ∈ lines (s ++ c :: t) ↔ w ∈ (lines s).dropLast ∨ w ∈ (lines t).tail := by
  induction s using lines_induction with
  | last l hl =>
    obtain ⟨r, hr⟩ := exists_lines_append_cons hc t hl
    have hne : w ≠ l ++ c :: r := by
      rintro rfl
      exact hw List.mem_append_cons_self
    rw [hr, lines_of_notMem hl, List.mem_cons]
    simp [hne]
  | line l s hl ih =>
    rw [List.append_assoc, List.cons_append, lines_line hl, lines_line hl,
      List.dropLast_cons_of_ne_nil (lines_ne_nil s), List.mem_cons, List.mem_cons, ih, or_assoc]

theorem mem_tail_lines_append_cons_iff :
    w ∈ (lines (s ++ c :: t)).tail ↔ w ∈ (lines s).tail.dropLast ∨ w ∈ (lines t).tail := by
  induction s using lines_induction with
  | last l hl =>
    obtain ⟨r, hr⟩ := exists_lines_append_cons hc t hl
    rw [hr, lines_of_notMem hl]
    simp
  | line l s hl _ =>
    rw [List.append_assoc, List.cons_append, lines_line hl, lines_line hl, List.tail_cons,
      List.tail_cons, mem_lines_append_cons_iff hc hw]

end Around
end MarkdownExport.Text
