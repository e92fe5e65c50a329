import MarkdownExport.Proofs.Tree.DocumentOrder

/-! The search for an element behind a certain sibling, told by the document order. With it every
search in a forest is told by the places of the nodes. -/
namespace MarkdownExport.Node

/-- The last element among nodes. -/
def lastElement? (ns : List Node) : Option Node := (ns.filter isElement).getLast?

mutual

def withPreviousBelow : Node → List (Option Node × Node)
  | element _ _ children => withPrevious none children
  | _ => []

/-- All nodes in document order, each with the element before it among its siblings. `last` is the
element before the first of them. -/
def withPrevious (last : Option Node) : List Node → List (Option Node × Node)
  | [] => []
  | n :: ns =>
    (last, n) :: (withPreviousBelow n ++ withPrevious (if n.isElement then some n else last) ns)

end

/-- The last element before a place among its siblings. -/
def elementBefore? : Path → List Node → Option Node
  | [], _ => none
  | [i], ns => lastElement? (ns.take i)
  | i :: j :: path, ns => ns[i]?.bind fun n => elementBefore? (j :: path) n.children

variable {previous p : Node → Bool}

theorem withPrevious_cons (last : Option Node) (n : Node) (ns : List Node) :
    withPrevious last (n :: ns) =
      (last, n) :: (withPrevious none n.children ++
        withPrevious (if n.isElement then some n else last) ns) := by
  cases n <;> rfl

theorem lastElement?_concat (ns : List Node) (n : Node) :
    lastElement? (ns ++ [n]) = if n.isElement then some n else lastElement? ns := by
  rw [lastElement?, List.filter_append, List.filter_singleton]
  cases n.isElement with
  | true => exact List.getLast?_concat
  | false => exact congrArg List.getLast? (List.append_nil _)

theorem elementBefore?_cons {path : Path} (hpath : path ≠ []) (i : Nat) (ns : List Node) :
    elementBefore? (i :: path) ns = ns[i]?.bind fun n => elementBefore? path n.children := by
  obtain ⟨j, path, rfl⟩ := List.exists_cons_of_ne_nil hpath
  rfl

/-- What is kept with a node is the last element before its place. The nodes `before` stand in front
of the others, which are counted from there on. -/
theorem withPrevious_eq_map (before ns : List Node) :
    withPrevious (lastElement? before) ns =
      (locatedFrom before.length ns).map fun e =>
        (elementBefore? e.path (before ++ ns), e.node) := by
  induction ns using children_induction generalizing before with
  | nil => rfl
  | cons n ns ihc ih =>
    have hhere : elementBefore? [before.length] (before ++ n :: ns) = lastElement? before :=
      congrArg lastElement? List.take_left
    have hbelow : withPrevious none n.children = (located n.children).map fun e =>
        (elementBefore? (before.length :: e.path) (before ++ n :: ns), e.node) := by
      refine (ihc []).trans (List.map_congr_left fun e he => ?_)
      rw [elementBefore?_cons (ne_nil_of_at? (mem_located.mp he)),
        List.getElem?_append_right (Nat.le_refl _), Nat.sub_self]
      rfl
    have hbehind := ih (before ++ [n])
    rw [lastElement?_concat, List.length_append, List.append_assoc] at hbehind
    rw [withPrevious_cons, locatedFrom_cons, List.map_cons, List.map_append, List.map_map, hhere,
      hbelow, hbehind]
    rfl

/-- The search finds the first element of the document order that it looks for. -/
theorem adjacentAfter_eq_find? (hp : ∀ n, p n = true → n.isElement = true) (last : Option Node)
    (ns : List Node) :
    adjacentAfter previous p last ns =
      ((withPrevious last ns).find? fun e => p e.2 && e.1.any previous).map Prod.snd := by
  induction ns using children_induction generalizing last with
  | nil => rfl
  | cons n ns ihc ih =>
    rw [withPrevious_cons, List.find?_cons]
    cases hn : n.isElement with
    | false =>
      have hpn : p n = false := Bool.eq_false_iff.mpr fun h => by rw [hp n h] at hn; cases hn
      have hchildren : n.children = [] := by
        cases n with
        | element => cases hn
        | text | comment | doctype | instruction => rfl
      rw [adjacentAfter_of_not_isElement hn, ih, hpn, Bool.false_and, hchildren]
      rfl
    | true =>
      rw [adjacentAfter_of_isElement hn, ihc, ih, List.find?_append]
      cases hfound : p n && last.any previous with
      | true => rfl
      | false =>
        rw [if_neg Bool.false_ne_true, Option.none_or, Option.map_or, if_pos rfl]

theorem findAdjacent?_eq_find? (hp : ∀ n, p n = true → n.isElement = true) (ns : List Node) :
    findAdjacent? previous p ns =
      ((withPrevious none ns).find? fun e => p e.2 && e.1.any previous).map Prod.snd :=
  adjacentAfter_eq_find? hp none ns

theorem isElement_of_isTag {tag : Text} {n : Node} (h : n.isTag tag = true) :
    n.isElement = true := by
  cases n with
  | element => rfl
  | text | comment | doctype | instruction => cases h

/-- All searches among the nodes of a document, or among the children of one node, go by the
document order, in which every node stands by its place. The search for all matches selects from it,
and the first match is the first of these. The search behind a certain sibling finds the first node
in this order that is as wanted and has such an element as the last one before it among its
siblings, whatever text and comments stand between the two. -/
theorem queries_follow_documentOrder (previous p : Node → Bool) (ns : List Node) :
    ((located ns).Pairwise fun e e' => e.path < e'.path) ∧
      (∀ e, e ∈ located ns ↔ at? e.path ns = some e.node) ∧
      preorder ns = (located ns).map Located.node ∧
      findAll p ns = (preorder ns).filter p ∧
      findFirst? p ns = (findAll p ns).head? ∧
      ((∀ n, p n = true → n.isElement = true) →
        findAdjacent? previous p ns =
          ((located ns).find? fun e =>
            p e.node && (elementBefore? e.path ns).any previous).map Located.node) := by
  refine ⟨pairwise_locatedFrom 0 ns, fun e => mem_located, (map_node_locatedFrom 0 ns).symm,
    findAll_eq_filter p ns, findFirst?_eq_head? p ns, fun hp => ?_⟩
  have hprevious : withPrevious none ns =
      (located ns).map fun e => (elementBefore? e.path ns, e.node) := withPrevious_eq_map [] ns
  rw [findAdjacent?_eq_find? hp, hprevious, List.find?_map, Option.map_map]
  rfl

/-- A paragraph deep in an earlier sibling comes before a later one, and a text and a comment
between it and its heading do not count. -/
theorem queries_follow_documentOrder_deep :
    let paragraph := Node.element "p" [] [.text "deep"]
    let deep := Node.element "div" [] [.element "h2" [] [], .text " ", .comment "note", paragraph]
    let ns := [.element "p" [] [.text "lead"], deep, .element "h2" [] [],
      .element "p" [] [.text "late"]]
    (∀ n, isTag "p" n = true → n.isElement = true) ∧
      findAdjacent? (isTag "h2") (isTag "p") ns = some paragraph := by
  intro paragraph deep ns
  obtain ⟨-, -, -, -, -, hadjacent⟩ := queries_follow_documentOrder (isTag "h2") (isTag "p") ns
  have hp : ∀ n, isTag "p" n = true → n.isElement = true := fun _ => isElement_of_isTag
  exact ⟨hp, hadjacent hp⟩

end MarkdownExport.Node
