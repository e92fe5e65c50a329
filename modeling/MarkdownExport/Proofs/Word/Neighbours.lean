import Mathlib.Data.List.DropRight
import MarkdownExport.Proofs.Word.Grouping

/-! A run on its line, with the neighbours that share its marks. -/
namespace MarkdownExport.Word
open Document (Piece lineHtml lineHtml_markup IsGroup)

namespace Document.Piece

def isRunOf (f : RunFormat) : Piece → Bool
  | run g _ => g == f
  | markup _ => false

end Document.Piece

/-- The runs right before a run of that format that share its marks. -/
def joinedBefore (f : RunFormat) (ps : List Piece) : List Piece :=
  (ps.filter Piece.isShown).rtakeWhile (Piece.isRunOf f)

/-- The runs right behind a run of that format that share its marks. -/
def joinedAfter (f : RunFormat) (ps : List Piece) : List Piece :=
  (ps.filter Piece.isShown).takeWhile (Piece.isRunOf f)

/-- What stands before those runs. -/
def apartBefore (f : RunFormat) (ps : List Piece) : List Piece :=
  (ps.filter Piece.isShown).rdropWhile (Piece.isRunOf f)

/-- What stands behind those runs. -/
def apartAfter (f : RunFormat) (ps : List Piece) : List Piece :=
  (ps.filter Piece.isShown).dropWhile (Piece.isRunOf f)

/-- Neighbours that cannot be one group are written apart. -/
theorem lineHtml_append_apart {ps qs : List Piece}
    (h : ∀ p ∈ (ps.filter Piece.isShown).getLast?, ∀ q ∈ (qs.filter Piece.isShown).head?,
      Piece.joins p q = false) :
    lineHtml (ps ++ qs) = lineHtml ps ++ lineHtml qs := by
  unfold lineHtml
  rw [List.filter_append]
  cases hqs : qs.filter Piece.isShown with
  | nil => simp
  | cons q rest =>
    rw [List.splitBy_append_cons _ fun p hp => h p hp q (by rw [hqs]; rfl), List.flatMap_append]

theorem lineHtml_append_markup (ps : List Piece) (html : Text) (qs : List Piece) :
    lineHtml (ps ++ .markup html :: qs) = lineHtml ps ++ html ++ lineHtml qs := by
  rw [List.append_assoc, ← lineHtml_markup]
  refine lineHtml_append_apart fun p _ q hq => ?_
  rw [List.filter_cons_of_pos rfl] at hq
  cases hq
  cases p <;> rfl

theorem lineHtml_filter (ps : List Piece) : lineHtml (ps.filter Piece.isShown) = lineHtml ps := by
  unfold lineHtml
  rw [List.filter_filter]
  simp

theorem RunFormat.infix_wrap (f : RunFormat) (content : Text) : content <:+: f.wrap content := by
  have henclose (wanted : Bool) (name content : Text) :
      content <:+: encloseIf wanted name content := by
    cases wanted with
    | false => exact List.infix_rfl
    | true => exact ⟨openTag name, closeTag name, rfl⟩
  exact (((henclose _ _ _).trans (henclose _ _ _)).trans (henclose _ _ _)).trans (henclose _ _ _)

section Around
variable {f : RunFormat}

theorem isRunOf_iff {p : Piece} : p.isRunOf f = true ↔ ∃ html, p = .run f html := by
  cases p with
  | run g html =>
    simp only [Piece.isRunOf, beq_iff_eq, Piece.run.injEq]
    exact ⟨fun h => ⟨html, h, rfl⟩, fun ⟨_, h, _⟩ => h⟩
  | markup html => simp [Piece.isRunOf]

theorem joins_of_isRunOf {p q : Piece} (hp : p.isRunOf f = true) (hq : q.isRunOf f = false) :
    Piece.joins p q = false ∧ Piece.joins q p = false := by
  obtain ⟨html, rfl⟩ := isRunOf_iff.mp hp
  cases q with
  | run g html =>
    simp only [Piece.isRunOf, beq_eq_false_iff_ne] at hq
    simp [Piece.joins, hq, Ne.symm hq]
  | markup html => exact ⟨rfl, rfl⟩

/-- What stands around a whole group is written apart. -/
theorem lineHtml_group {left group right : List Piece} (hgroup : IsGroup f group)
    (hleft : left.filter Piece.isShown = left) (hright : right.filter Piece.isShown = right)
    (hlast : ∀ p ∈ left.getLast?, p.isRunOf f = false)
    (hhead : ∀ p ∈ right.head?, p.isRunOf f = false) :
    lineHtml (left ++ (group ++ right)) =
      lineHtml left ++ f.wrap (group.flatMap Piece.html) ++ lineHtml right := by
  have hrun : ∀ p ∈ group, p.isRunOf f = true := fun p hp =>
    isRunOf_iff.mpr ((hgroup.run p hp).imp fun _ h => h.1)
  have hinner : lineHtml (group ++ right) =
      f.wrap (group.flatMap Piece.html) ++ lineHtml right := by
    rw [← hgroup.lineHtml_eq]
    refine lineHtml_append_apart fun p hp q hq => ?_
    rw [hgroup.filter_isShown] at hp
    rw [hright] at hq
    exact (joins_of_isRunOf (hrun p (List.mem_of_getLast? hp)) (hhead q hq)).1
  rw [List.append_assoc, ← hinner]
  refine lineHtml_append_apart fun p hp q hq => ?_
  obtain ⟨first, rest, rfl⟩ := List.exists_cons_of_ne_nil hgroup.nonempty
  rw [hleft] at hp
  rw [List.filter_append, hgroup.filter_isShown] at hq
  cases hq
  exact (joins_of_isRunOf (hrun _ List.mem_cons_self) (hlast p hp)).2

theorem of_mem_joinedBefore {p : Piece} {ps : List Piece} (hp : p ∈ joinedBefore f ps) :
    p.isShown = true ∧ p.isRunOf f = true :=
  ⟨List.of_mem_filter ((List.rtakeWhile_suffix _ _).subset hp), List.mem_rtakeWhile_imp hp⟩

theorem of_mem_joinedAfter {p : Piece} {ps : List Piece} (hp : p ∈ joinedAfter f ps) :
    p.isShown = true ∧ p.isRunOf f = true :=
  ⟨List.of_mem_filter ((List.takeWhile_prefix _).subset hp), List.mem_takeWhile_imp hp⟩

theorem isGroup_joined (f : RunFormat) {html : Text} (h : html ≠ []) (before after : List Piece) :
    IsGroup f (joinedBefore f before ++ .run f html :: joinedAfter f after) where
  nonempty := by simp
  run p hp := by
    have hmember : p.isShown = true ∧ p.isRunOf f = true := by
      rcases List.mem_append.mp hp with hp | hp
      · exact of_mem_joinedBefore hp
      · rcases List.mem_cons.mp hp with rfl | hp
        · exact ⟨by simp [Piece.isShown, h], beq_self_eq_true f⟩
        · exact of_mem_joinedAfter hp
    obtain ⟨html, rfl⟩ := isRunOf_iff.mp hmember.2
    exact ⟨html, rfl, by simpa [Piece.isShown] using hmember.1⟩

/-- A run is written with its group. -/
theorem lineHtml_around (f : RunFormat) {html : Text} (h : html ≠ []) (before after : List Piece) :
    lineHtml (before ++ .run f html :: after) =
      lineHtml (apartBefore f before) ++
        f.wrap ((joinedBefore f before).flatMap Piece.html ++ html ++
          (joinedAfter f after).flatMap Piece.html) ++
        lineHtml (apartAfter f after) := by
  have hbefore : apartBefore f before ++ joinedBefore f before = before.filter Piece.isShown :=
    List.rdropWhile_append_rtakeWhile
  have hafter : joinedAfter f after ++ apartAfter f after = after.filter Piece.isShown :=
    List.takeWhile_append_dropWhile
  have hleft : (apartBefore f before).filter Piece.isShown = apartBefore f before :=
    List.filter_eq_self.mpr fun p hp =>
      List.of_mem_filter ((List.rdropWhile_prefix _ _).subset hp)
  have hright : (apartAfter f after).filter Piece.isShown = apartAfter f after :=
    List.filter_eq_self.mpr fun p hp =>
      List.of_mem_filter ((List.dropWhile_suffix _).subset hp)
  have hlast : ∀ p ∈ (apartBefore f before).getLast?, p.isRunOf f = false := by
    intro p hp
    obtain ⟨hne, rfl⟩ := List.mem_getLast?_eq_getLast hp
    exact Bool.eq_false_iff.mpr (List.rdropWhile_last_not _ _ hne)
  have hhead : ∀ p ∈ (apartAfter f after).head?, p.isRunOf f = false := by
    intro p hp
    have hnot := List.head?_dropWhile_not (Piece.isRunOf f) (after.filter Piece.isShown)
    rw [← apartAfter, Option.mem_def.mp hp] at hnot
    simpa using hnot
  have hwhole := lineHtml_group (isGroup_joined f h before after) hleft hright hlast hhead
  have hshown : (Piece.run f html).isShown = true := by simp [Piece.isShown, h]
  rw [← lineHtml_filter (before ++ _), List.filter_append, List.filter_cons_of_pos hshown,
    ← hbefore, ← hafter]
  simpa [Piece.html] using hwhole

end Around

end MarkdownExport.Word
