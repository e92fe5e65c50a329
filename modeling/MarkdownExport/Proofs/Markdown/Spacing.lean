import Mathlib.Data.List.Infix
import MarkdownExport.Markdown.Spacing

/-! Words in texts whose spacing changes. Trimming, joining lines and limiting newlines touch blanks
only, so a word stands in the text afterwards exactly if it stood there before. -/
namespace MarkdownExport.Markdown

structure IsWord (w : Text) : Prop where
  nonempty : w ≠ []
  nonblank : ∀ c ∈ w, isBlank c = false

namespace IsWord
variable {w t : Text}

theorem not_isPrefix_cons (hw : IsWord w) {c : Char} (hc : isBlank c = true) : ¬ w <+: c :: t := by
  obtain ⟨d, v, rfl⟩ := List.exists_cons_of_ne_nil hw.nonempty
  intro h
  have hd := hw.nonblank d List.mem_cons_self
  rw [(List.cons_prefix_cons.mp h).1, hc] at hd
  contradiction

/-- A word does not begin at a blank. -/
theorem isInfix_cons_iff (hw : IsWord w) {c : Char} (hc : isBlank c = true) :
    w <:+: c :: t ↔ w <:+: t := by
  rw [List.infix_cons_iff]
  constructor
  · rintro (h | h)
    · exact absurd h (hw.not_isPrefix_cons hc)
    · exact h
  · exact Or.inr

theorem reverse (hw : IsWord w) : IsWord w.reverse where
  nonempty := List.reverse_ne_nil_iff.mpr hw.nonempty
  nonblank c hc := hw.nonblank c (List.mem_reverse.mp hc)

theorem isInfix_trimStart_iff (hw : IsWord w) : w <:+: t.trimStart ↔ w <:+: t := by
  induction t with
  | nil => rfl
  | cons c t ih =>
    unfold Text.trimStart at ih ⊢
    by_cases hc : isBlank c = true
    · rw [List.dropWhile_cons_of_pos hc, hw.isInfix_cons_iff hc]
      exact ih
    · rw [List.dropWhile_cons_of_neg hc]

theorem isInfix_trimEnd_iff (hw : IsWord w) : w <:+: t.trimEnd ↔ w <:+: t := by
  have hstart : w.reverse <:+: Text.trimStart t.reverse ↔ w.reverse <:+: t.reverse :=
    hw.reverse.isInfix_trimStart_iff
  rw [List.reverse_infix] at hstart
  rw [← hstart, ← List.reverse_infix, Text.trimEnd, List.reverse_reverse]
  rfl

theorem isInfix_trim_iff (hw : IsWord w) : w <:+: t.trim ↔ w <:+: t :=
  hw.isInfix_trimEnd_iff.trans hw.isInfix_trimStart_iff

end IsWord

/-! Lines that are joined by spaces. -/

theorem joined_cons (c : Char) (t : Text) : Text.replace (c :: t) '\n' [' '] =
    (if c = '\n' then ' ' else c) :: Text.replace t '\n' [' '] := by
  unfold Text.replace
  rw [List.flatMap_cons]
  split <;> rfl

theorem isPrefix_joined_iff {w t : Text} (hw : ∀ c ∈ w, isBlank c = false) :
    w <+: t.replace '\n' [' '] ↔ w <+: t := by
  induction t generalizing w with
  | nil => rfl
  | cons c t ih =>
    cases w with
    | nil => simp
    | cons d w =>
      rw [List.forall_mem_cons] at hw
      rw [joined_cons, List.cons_prefix_cons, List.cons_prefix_cons, ih hw.2]
      apply and_congr_left
      intro _
      split
      · rename_i hc
        have hspace : d ≠ ' ' := by
          rintro rfl
          exact absurd hw.1 (by decide)
        have hnewline : d ≠ c := by
          rintro rfl
          rw [hc] at hw
          exact absurd hw.1 (by decide)
        simp [hspace, hnewline]
      · rfl

theorem IsWord.isInfix_joined_iff {w t : Text} (hw : IsWord w) :
    w <:+: t.replace '\n' [' '] ↔ w <:+: t := by
  induction t with
  | nil => rfl
  | cons c t ih =>
    by_cases hc : c = '\n'
    · rw [joined_cons, if_pos hc, hw.isInfix_cons_iff isBlank_space, ih, hc,
        hw.isInfix_cons_iff isBlank_newline]
    · have hstart := isPrefix_joined_iff (t := c :: t) hw.nonblank
      rw [joined_cons, if_neg hc] at hstart ⊢
      rw [List.infix_cons_iff, List.infix_cons_iff, hstart, ih]

/-! Newlines that are limited. -/

/-- No newline is dropped before the first other scalar, unless two stand before the text. -/
theorem isPrefix_limitNewlines_iff {n : Nat} (hn : n < 2) {w t : Text}
    (hw : ∀ c ∈ w, isBlank c = false) : w <+: limitNewlines n t ↔ w <+: t := by
  induction t generalizing n w with
  | nil => rfl
  | cons c t ih =>
    cases w with
    | nil => simp
    | cons d w =>
      rw [List.forall_mem_cons] at hw
      unfold limitNewlines
      by_cases hc : c = '\n'
      · have hd : d ≠ c := by
          rintro rfl
          rw [hc] at hw
          exact absurd hw.1 (by decide)
        rw [if_pos hc, if_pos hn, List.cons_prefix_cons, List.cons_prefix_cons]
        simp [hd]
      · rw [if_neg hc, List.cons_prefix_cons, List.cons_prefix_cons, ih (by decide) hw.2]

namespace IsWord
variable {w t : Text}

theorem isInfix_limitNewlines_iff (hw : IsWord w) {n : Nat} :
    w <:+: limitNewlines n t ↔ w <:+: t := by
  induction t generalizing n with
  | nil => rfl
  | cons c t ih =>
    by_cases hc : c = '\n'
    · have hblank : isBlank c = true := hc ▸ isBlank_newline
      rw [limitNewlines, if_pos hc, hw.isInfix_cons_iff hblank]
      split
      · rw [hw.isInfix_cons_iff hblank, ih]
      · exact ih
    · have hstart := isPrefix_limitNewlines_iff (n := 0) (by decide) (t := c :: t) hw.nonblank
      rw [limitNewlines, if_neg hc] at hstart ⊢
      rw [List.infix_cons_iff, List.infix_cons_iff, hstart, ih]

theorem isInfix_normalize_iff (hw : IsWord w) : w <:+: normalize t ↔ w <:+: t := by
  rw [← hw.isInfix_trimEnd_iff, normalize, Text.trimEnd_append_blank _ isBlank_newline,
    hw.isInfix_trimEnd_iff, hw.isInfix_trimEnd_iff, hw.isInfix_limitNewlines_iff]

end IsWord
end MarkdownExport.Markdown
