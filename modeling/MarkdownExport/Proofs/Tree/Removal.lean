import Mathlib.Data.List.Infix
import MarkdownExport.Proofs.Tree.DocumentOrder

/-! Taking a node out of a forest. A node is told by its place, so nodes that are equal to it stay,
and each of them is found again at the place that it moves to. -/
namespace MarkdownExport.Node

def mapChildren (f : List Node → List Node) : Node → Node
  | element tag attributes children => element tag attributes (f children)
  | n => n

/-- A forest without the node at a place and what is below it. -/
def removeAt : Path → List Node → List Node
  | [], ns => ns
  | [i], ns => ns.eraseIdx i
  | i :: j :: path, ns => ns.modify i (mapChildren (removeAt (j :: path)))

/-- Where the node at `place` is found once the node at `path` is taken out. -/
def placeAfter : (path place : Path) → Path
  | [i], j :: place => (if i < j then j - 1 else j) :: place
  | i :: k :: path, j :: place => j :: if i = j then placeAfter (k :: path) place else place
  | _, place => place

theorem removeAt_cons {path : Path} (hpath : path ≠ []) (i : Nat) (ns : List Node) :
    removeAt (i :: path) ns = ns.modify i (mapChildren (removeAt path)) := by
  obtain ⟨j, path, rfl⟩ := List.exists_cons_of_ne_nil hpath
  rfl

theorem exists_append_of_getElem? {ns : List Node} {i : Nat} {n : Node} (h : ns[i]? = some n) :
    ∃ before after, ns = before ++ n :: after ∧ before.length = i := by
  obtain ⟨hi, rfl⟩ := List.getElem?_eq_some_iff.mp h
  refine ⟨ns.take i, ns.drop (i + 1), ?_, List.length_take_of_le (Nat.le_of_lt hi)⟩
  rw [← List.drop_eq_getElem_cons hi, List.take_append_drop]

theorem getElem?_length_append (before : List Node) (n : Node) (after : List Node) :
    (before ++ n :: after)[before.length]? = some n := by
  rw [List.getElem?_append_right (Nat.le_refl _), Nat.sub_self, List.getElem?_cons_zero]

/-- A node at a place stands among its siblings, or below one of the nodes of the forest. -/
@[elab_as_elim]
theorem at?_induction {skip : Node}
    {motive : (path : Path) → (ns : List Node) → at? path ns = some skip → Prop}
    (here : ∀ before after h, motive [before.length] (before ++ skip :: after) h)
    (below : ∀ before tag attributes children after path h h', motive path children h →
      motive (before.length :: path) (before ++ element tag attributes children :: after) h')
    {path : Path} {ns : List Node} (h : at? path ns = some skip) : motive path ns h := by
  induction path generalizing ns with
  | nil => cases h
  | cons i path ih =>
    by_cases hpath : path = []
    · subst hpath
      obtain ⟨before, after, rfl, rfl⟩ := exists_append_of_getElem? h
      exact here before after h
    · have hat := h
      rw [at?_cons hpath, Option.bind_eq_some_iff] at hat
      obtain ⟨n, hn, hat⟩ := hat
      obtain ⟨before, after, rfl, rfl⟩ := exists_append_of_getElem? hn
      cases n with
      | element tag attributes children =>
        exact below before tag attributes children after path hat h (ih hat)
      | text | comment | doctype | instruction => cases (at?_nil path).symm.trans hat

theorem removeAt_here (before : List Node) (n : Node) (after : List Node) :
    removeAt [before.length] (before ++ n :: after) = before ++ after := by
  rw [removeAt, List.eraseIdx_append_of_length_le (Nat.le_refl _), Nat.sub_self,
    List.eraseIdx_cons_zero]

theorem removeAt_below {path : Path} (hpath : path ≠ []) (before : List Node) (tag : Text)
    (attributes : List Attribute) (children after : List Node) :
    removeAt (before.length :: path) (before ++ element tag attributes children :: after) =
      before ++ element tag attributes (removeAt path children) :: after := by
  rw [removeAt_cons hpath]
  induction before with
  | nil => rfl
  | cons m before ih => rw [List.cons_append, List.length_cons, List.modify_succ_cons, ih]; rfl

theorem removeAt_nil (path : Path) : removeAt path [] = [] := by
  match path with
  | [] | [_] | _ :: _ :: _ => simp [removeAt]

theorem children_mapChildren {f : List Node → List Node} (hf : f [] = []) (n : Node) :
    (mapChildren f n).children = f n.children := by
  cases n with
  | element => rfl
  | text | comment | doctype | instruction => exact hf.symm

/-- Every node that is not around the place or below it stays in the forest. -/
theorem at?_removeAt {path place : Path} (hbelow : ¬ path <+: place) (haround : ¬ place <+: path)
    (ns : List Node) : at? (placeAfter path place) (removeAt path ns) = at? place ns := by
  induction path generalizing place ns with
  | nil => exact absurd place.nil_prefix hbelow
  | cons i path ih =>
    cases place with
    | nil => exact absurd (List.nil_prefix) haround
    | cons j place =>
      rw [List.cons_prefix_cons, not_and] at hbelow haround
      cases path with
      | nil =>
        have hij : i ≠ j := fun h => hbelow h List.nil_prefix
        refine at?_cons_congr ?_ place
        rw [removeAt, List.getElem?_eraseIdx]
        split_ifs with hlt hshort hshort
        · omega
        · rw [Nat.sub_add_cancel (by omega)]
        · rfl
        · omega
      | cons k path =>
        rw [placeAfter, removeAt_cons (List.cons_ne_nil k path)]
        by_cases hij : i = j
        · subst hij
          have hplace : place ≠ [] := by
            rintro rfl
            exact haround rfl List.nil_prefix
          have hafter : placeAfter (k :: path) place ≠ [] := by
            obtain ⟨l, place, rfl⟩ := List.exists_cons_of_ne_nil hplace
            cases path <;> simp [placeAfter]
          rw [if_pos rfl, at?_cons hafter, at?_cons hplace, List.getElem?_modify]
          cases ns[i]? with
          | none => rfl
          | some n =>
            have hchildren := ih (hbelow rfl) (haround rfl) n.children
            rw [← children_mapChildren (removeAt_nil _)] at hchildren
            simpa using hchildren
        · rw [if_neg hij]
          refine at?_cons_congr ?_ place
          rw [List.getElem?_modify]
          simp [hij]

end MarkdownExport.Node
