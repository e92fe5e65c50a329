import MarkdownExport.Tree.Query

/-! Searching in forests that are put together from others. -/
namespace MarkdownExport.Node

variable {previous p : Node → Bool}

@[simp] theorem findAll_nil (p : Node → Bool) : findAll p [] = [] := rfl

theorem findAll_cons (p : Node → Bool) (n : Node) (ns : List Node) :
    findAll p (n :: ns) = (if p n then [n] else []) ++ findBelow p n ++ findAll p ns := rfl

theorem findAll_append (p : Node → Bool) (ms ns : List Node) :
    findAll p (ms ++ ns) = findAll p ms ++ findAll p ns := by
  induction ms with
  | nil => rfl
  | cons m ms ih => simp [findAll_cons, ih]

theorem findBelow_eq (p : Node → Bool) (n : Node) : findBelow p n = findAll p n.children := by
  cases n <;> rfl

mutual

theorem locateBelow_eq_none : (n : Node) → findBelow p n = [] → locateBelow p n = none
  | .element _ _ children, h => locateFrom_eq_none 0 children h
  | .text _, _ | .comment _, _ | .doctype _, _ | .instruction _ _, _ => rfl

theorem locateFrom_eq_none (i : Nat) :
    (ns : List Node) → findAll p ns = [] → locateFrom p i ns = none
  | [], _ => rfl
  | n :: ns, h => by
    rw [findAll_cons, List.append_eq_nil_iff, List.append_eq_nil_iff] at h
    obtain ⟨⟨hn, hbelow⟩, hns⟩ := h
    have hp : p n ≠ true := by
      intro hp
      simp [hp] at hn
    rw [locateFrom, if_neg hp, locateBelow_eq_none n hbelow]
    exact locateFrom_eq_none (i + 1) ns hns

end

theorem adjacentAfter_of_not_isElement {n : Node} (h : n.isElement = false) (last : Option Node)
    (ns : List Node) :
    adjacentAfter previous p last (n :: ns) = adjacentAfter previous p last ns := by
  rw [adjacentAfter, h, if_neg Bool.false_ne_true]

/-- An element comes before what is in it, and that before what is behind it. -/
theorem adjacentAfter_of_isElement {n : Node} (h : n.isElement = true) (last : Option Node)
    (ns : List Node) :
    adjacentAfter previous p last (n :: ns) =
      (if p n && last.any previous then some n else none).or
        ((adjacentAfter previous p none n.children).or
          (adjacentAfter previous p (some n) ns)) := by
  have hbelow : adjacentBelow previous p n = adjacentAfter previous p none n.children := by
    cases n <;> rfl
  rw [adjacentAfter, h, if_pos rfl, hbelow]
  split
  · rfl
  · cases adjacentAfter previous p none n.children <;> rfl

end MarkdownExport.Node
