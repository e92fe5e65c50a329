import Mathlib.Data.List.Flatten
import MarkdownExport.Markdown.Default
import MarkdownExport.Proofs.Text.Lines

/-! The visible scalars of a text, and what the steps from text to Markdown do to them. Trimming,
joining lines and limiting newlines do not touch them; escaping and quoting add others between. -/
namespace MarkdownExport.Text

/-- What is left of a text without its blanks. -/
def visible (t : Text) : Text := t.filter fun c => !isBlank c

@[simp] theorem visible_nil : visible [] = [] := rfl

@[simp] theorem visible_append (s t : Text) : visible (s ++ t) = visible s ++ visible t := by
  simp [visible]

theorem visible_cons_blank {c : Char} (h : isBlank c = true) (t : Text) :
    visible (c :: t) = visible t := by
  simp [visible, h]

theorem visible_cons_nonblank {c : Char} (h : isBlank c = false) (t : Text) :
    visible (c :: t) = c :: visible t := by
  simp [visible, h]

theorem visible_sublist (t : Text) : (visible t).Sublist t := List.filter_sublist

theorem visible_flatMap {α : Type} (f : α → Text) (as : List α) :
    visible (as.flatMap f) = as.flatMap fun a => visible (f a) := by
  simp [visible, List.filter_flatMap]

theorem visible_reverse (t : Text) : visible t.reverse = (visible t).reverse := by
  simp [visible]

theorem visible_trimStart (t : Text) : visible t.trimStart = visible t := by
  induction t with
  | nil => rfl
  | cons c t ih =>
    unfold trimStart at ih ⊢
    by_cases hc : isBlank c = true
    · rw [List.dropWhile_cons_of_pos hc, ih, visible_cons_blank hc]
    · rw [List.dropWhile_cons_of_neg hc]

theorem visible_trimEnd (t : Text) : visible t.trimEnd = visible t := by
  have hstart := visible_trimStart t.reverse
  rw [trimEnd, visible_reverse, ← trimStart, hstart, visible_reverse, List.reverse_reverse]

@[simp] theorem visible_trim (t : Text) : visible t.trim = visible t := by
  rw [trim, visible_trimEnd, visible_trimStart]

/-- Joining lines by spaces. -/
theorem visible_joined (t : Text) : visible (t.replace '\n' [' ']) = visible t := by
  rw [replace, visible_flatMap]
  induction t with
  | nil => rfl
  | cons c t ih =>
    rw [List.flatMap_cons, ih]
    by_cases hc : c = '\n'
    · rw [if_pos hc, hc, visible_cons_blank isBlank_newline]
      rfl
    · rw [if_neg hc, ← visible_append]
      rfl

theorem visible_unlines (ls : List Text) : visible (unlines ls) = ls.flatMap visible := by
  unfold unlines
  induction ls with
  | nil => rfl
  | cons l ls ih =>
    cases ls with
    | nil => simp
    | cons l' ls =>
      rw [List.intercalate_cons_cons, visible_append, visible_append, ih,
        visible_cons_blank isBlank_newline, visible_nil, List.append_nil]
      rfl

theorem visible_lines (t : Text) : t.lines.flatMap visible = visible t := by
  rw [← visible_unlines, unlines_lines]

end MarkdownExport.Text

namespace MarkdownExport.Markdown
open Text

theorem visible_limitNewlines (n : Nat) (t : Text) : visible (limitNewlines n t) = visible t := by
  induction t generalizing n with
  | nil => rfl
  | cons c t ih =>
    unfold limitNewlines
    by_cases hc : c = '\n'
    · have hblank : isBlank c = true := hc ▸ isBlank_newline
      rw [if_pos hc, visible_cons_blank hblank]
      split
      · rw [visible_cons_blank hblank, ih]
      · exact ih n
    · rw [if_neg hc]
      by_cases hblank : isBlank c = true
      · rw [visible_cons_blank hblank, visible_cons_blank hblank, ih]
      · rw [Bool.not_eq_true] at hblank
        rw [visible_cons_nonblank hblank, visible_cons_nonblank hblank, ih]

theorem visible_normalize (t : Text) : visible (normalize t) = visible t := by
  rw [normalize, visible_append, visible_trimEnd, visible_limitNewlines,
    visible_cons_blank isBlank_newline, visible_nil, List.append_nil]

theorem sublist_escape (t : Text) : t.Sublist (escape t) := by
  induction t with
  | nil => exact List.Sublist.refl _
  | cons c t ih =>
    rw [escape_cons]
    split
    · exact (ih.cons_cons c).cons '\\'
    · exact ih.cons_cons c

/-- The Markdown shows all visible scalars of a text, in their order. -/
def Retains (t markdown : Text) : Prop := (visible t).Sublist (visible markdown)

namespace Retains
variable {s t u v : Text}

theorem nil (v : Text) : Retains [] v := List.nil_sublist _

theorem of_visible_eq_nil (h : visible t = []) (v : Text) : Retains t v := by
  rw [Retains, h]
  exact List.nil_sublist _

theorem of_sublist (h : t.Sublist v) : Retains t v := h.filter _

theorem append (hs : Retains s u) (ht : Retains t v) : Retains (s ++ t) (u ++ v) := by
  rw [Retains, visible_append, visible_append]
  exact List.Sublist.append hs ht

theorem trans (h : Retains t u) (h' : Retains u v) : Retains t v := List.Sublist.trans h h'

/-- More text around it does no harm. -/
theorem enclose (h : Retains t v) (before after : Text) : Retains t (before ++ v ++ after) :=
  h.trans (of_sublist ((List.sublist_append_right before v).trans (List.sublist_append_left _ _)))

theorem trim (h : Retains t v) : Retains t v.trim := by
  rw [Retains, visible_trim]
  exact h

theorem normalize (h : Retains t v) : Retains t (normalize v) := by
  rw [Retains, visible_normalize]
  exact h

theorem flatMap {α : Type} {f g : α → Text} {as : List α} (h : ∀ a ∈ as, Retains (f a) (g a)) :
    Retains (as.flatMap f) (as.flatMap g) := by
  rw [Retains, visible_flatMap, visible_flatMap]
  exact List.Sublist.flatMap_right as h

theorem quoteLines (t : Text) : Retains t (quoteLines t) := by
  rw [Retains, Markdown.quoteLines, visible_unlines, ← visible_lines t, List.flatMap_map]
  apply List.Sublist.flatMap_right
  intro line _
  rw [visible_append]
  exact List.sublist_append_right _ _

end Retains
end MarkdownExport.Markdown
