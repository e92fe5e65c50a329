import Mathlib.Data.List.Infix
import MarkdownExport.Proofs.Tree.Forest

/-! The places of the nodes in a forest. In the order of places a node comes before the nodes below
it, and those before its following siblings, so the document order lists the nodes by their places,
and the search for the first match goes along this list. -/
namespace MarkdownExport.Node

/-- The node at a place. -/
def at? : Path → List Node → Option Node
  | [], _ => none
  | [i], ns => ns[i]?
  | i :: j :: path, ns => ns[i]?.bind fun n => at? (j :: path) n.children

/-- A node below a node with index `i`, told by its place below that one. -/
def Located.under (i : Nat) (e : Located) : Located := ⟨i :: e.path, e.node⟩

mutual

def locatedBelow : Node → List Located
  | element _ _ children => locatedFrom 0 children
  | _ => []

/-- The nodes of a forest in document order, each with its place. The first node of the forest has
index `i`. -/
def locatedFrom (i : Nat) : List Node → List Located
  | [] => []
  | n :: ns => ⟨[i], n⟩ :: ((locatedBelow n).map (Located.under i) ++ locatedFrom (i + 1) ns)

end

def located (forest : List Node) : List Located := locatedFrom 0 forest

theorem at?_cons {path : Path} (hpath : path ≠ []) (i : Nat) (ns : List Node) :
    at? (i :: path) ns = ns[i]?.bind fun n => at? path n.children := by
  obtain ⟨j, path, rfl⟩ := List.exists_cons_of_ne_nil hpath
  rfl

theorem at?_nil (path : Path) : at? path [] = none := by
  match path with
  | [] | [_] | _ :: _ :: _ => rfl

theorem ne_nil_of_at? {path : Path} {ns : List Node} {n : Node} (h : at? path ns = some n) :
    path ≠ [] := by
  rintro rfl
  cases h

theorem at?_cons_congr {ms ns : List Node} {i j : Nat} (h : ms[i]? = ns[j]?) (path : Path) :
    at? (i :: path) ms = at? (j :: path) ns := by
  by_cases hpath : path = []
  · rw [hpath]
    exact h
  · rw [at?_cons hpath, at?_cons hpath, h]

theorem at?_succ (i : Nat) (path : Path) (n : Node) (ns : List Node) :
    at? ((i + 1) :: path) (n :: ns) = at? (i :: path) ns :=
  at?_cons_congr List.getElem?_cons_succ path

theorem locatedFrom_cons (i : Nat) (n : Node) (ns : List Node) :
    locatedFrom i (n :: ns) =
      ⟨[i], n⟩ :: ((located n.children).map (Located.under i) ++ locatedFrom (i + 1) ns) := by
  cases n <;> rfl

theorem map_node_locatedFrom (i : Nat) (ns : List Node) :
    (locatedFrom i ns).map Located.node = preorder ns := by
  induction ns using children_induction generalizing i with
  | nil => rfl
  | cons n ns ihc ih =>
    rw [locatedFrom_cons, List.map_cons, List.map_append, List.map_map, ih, preorder_cons,
      ← ihc 0]
    rfl

theorem mem_locatedFrom {e : Located} {i : Nat} {ns : List Node} :
    e ∈ locatedFrom i ns ↔
      ∃ j path, e.path = (i + j) :: path ∧ at? (j :: path) ns = some e.node := by
  induction ns using children_induction generalizing e i with
  | nil => simp [locatedFrom, at?_nil]
  | cons n ns ihc ih =>
    rw [locatedFrom_cons, List.mem_cons, List.mem_append, List.mem_map, ih]
    constructor
    · rintro (rfl | ⟨e, he, rfl⟩ | ⟨j, path, hpath, hat⟩)
      · exact ⟨0, [], rfl, rfl⟩
      · obtain ⟨j, path, hpath, hat⟩ := ihc.mp he
        rw [Nat.zero_add] at hpath
        exact ⟨0, e.path, rfl, by rw [hpath]; exact hat⟩
      · refine ⟨j + 1, path, ?_, (at?_succ j path n ns).trans hat⟩
        rw [hpath, Nat.add_assoc, Nat.add_comm 1 j]
    -- A place that begins with index 0 is that of the first node or of one below it.
    · rintro ⟨_ | j, path, hpath, hat⟩
      · obtain ⟨path', m⟩ := e
        obtain rfl : path' = i :: path := hpath
        cases path with
        | nil =>
          cases hat
          exact Or.inl rfl
        | cons k path =>
          have hbelow : (⟨k :: path, m⟩ : Located) ∈ located n.children :=
            ihc.mpr ⟨k, path, by rw [Nat.zero_add], hat⟩
          exact Or.inr (Or.inl ⟨_, hbelow, rfl⟩)
      · refine Or.inr (Or.inr ⟨j, path, ?_, (at?_succ j path n ns).symm.trans hat⟩)
        rw [hpath, Nat.add_assoc, Nat.add_comm 1 j]

/-- The nodes of the document order are those at the places of the forest. -/
theorem mem_located {e : Located} {ns : List Node} :
    e ∈ located ns ↔ at? e.path ns = some e.node := by
  rw [located, mem_locatedFrom]
  constructor
  · rintro ⟨j, path, hpath, hat⟩
    rw [hpath, Nat.zero_add]
    exact hat
  · intro hat
    obtain ⟨j, path, hpath⟩ := List.exists_cons_of_ne_nil (ne_nil_of_at? hat)
    exact ⟨j, path, by rw [hpath, Nat.zero_add], hpath ▸ hat⟩

/-- Places grow along the document order. -/
theorem pairwise_locatedFrom (i : Nat) (ns : List Node) :
    (locatedFrom i ns).Pairwise fun e e' => e.path < e'.path := by
  induction ns using children_induction generalizing i with
  | nil => exact List.Pairwise.nil
  | cons n ns ihc ih =>
    rw [locatedFrom_cons, List.pairwise_cons, List.pairwise_append, List.pairwise_map]
    have hbehind : ∀ e ∈ locatedFrom (i + 1) ns, ∀ path : Path, i :: path < e.path := by
      intro e he path
      obtain ⟨j, path', hpath, -⟩ := mem_locatedFrom.mp he
      rw [hpath]
      exact List.cons_lt_cons_iff.mpr (Or.inl (by omega))
    refine ⟨fun e he => ?_, (ihc 0).imp fun h => ?_, ih (i + 1), ?_⟩
    · rcases List.mem_append.mp he with he | he
      · obtain ⟨m, hm, rfl⟩ := List.mem_map.mp he
        obtain ⟨k, path, hpath⟩ := List.exists_cons_of_ne_nil (ne_nil_of_at? (mem_located.mp hm))
        refine List.cons_lt_cons_iff.mpr (Or.inr ⟨rfl, ?_⟩)
        rw [hpath]
        exact List.nil_lt_cons k path
      · exact hbehind e he []
    · exact List.cons_lt_cons_iff.mpr (Or.inr ⟨rfl, h⟩)
    · intro e he e' he'
      obtain ⟨e, -, rfl⟩ := List.mem_map.mp he
      exact hbehind e' he' e.path

/-! The first match. -/

/-- The first node in document order that satisfies `p`, and its place. In the order of places a
node comes before the nodes below it, and those before its following siblings. -/
structure IsFirst (p : Node → Bool) (ns : List Node) (path : Path) (n : Node) : Prop where
  at_place : at? path ns = some n
  satisfies : p n = true
  first : ∀ place m, place < path → at? place ns = some m → p m = false

variable {p : Node → Bool}

/-- A search goes along the document order. -/
theorem locateFrom_eq_find? (p : Node → Bool) (i : Nat) (ns : List Node) :
    locateFrom p i ns = (locatedFrom i ns).find? fun e => p e.node := by
  induction ns using children_induction generalizing i with
  | nil => rfl
  | cons n ns ihc ih =>
    have hbelow : locateBelow p n = (located n.children).find? fun e => p e.node :=
      (locateBelow_eq p n).trans (ihc 0)
    rw [locateFrom, locatedFrom_cons, List.find?_cons, List.find?_append, List.find?_map, hbelow,
      ih]
    cases p n with
    | true => rfl
    | false =>
      show _ = (((located n.children).find? fun e => p e.node).map (Located.under i)).or _
      cases (located n.children).find? fun e => p e.node with
      | none => rfl
      | some found => rfl

theorem locateFrom_node (p : Node → Bool) (i : Nat) (ns : List Node) :
    (locateFrom p i ns).map Located.node = (findAll p ns).head? := by
  rw [locateFrom_eq_find?, findAll_eq_filter, List.head?_filter, ← map_node_locatedFrom i ns,
    List.find?_map]
  rfl

/-- The first match is the first of all matches. -/
theorem findFirst?_eq_head? (p : Node → Bool) (ns : List Node) :
    findFirst? p ns = (findAll p ns).head? :=
  locateFrom_node p 0 ns

theorem forall_of_locateFrom_eq_none {ns : List Node} {i : Nat} (h : locateFrom p i ns = none) :
    ∀ n ∈ preorder ns, p n = false := by
  rw [locateFrom_eq_find?, List.find?_eq_none] at h
  rw [← map_node_locatedFrom i ns, List.forall_mem_map]
  intro e he
  exact Bool.eq_false_iff.mpr (h e he)

theorem isFirst_of_locate? {ns : List Node} {found : Located} (h : locate? p ns = some found) :
    IsFirst p ns found.path found.node := by
  rw [locate?, locateFrom_eq_find?, List.find?_eq_some_iff_append] at h
  obtain ⟨hfound, before, after, horder, hbefore⟩ := h
  have hmem : found ∈ located ns := by
    rw [located, horder]
    exact List.mem_append_right before List.mem_cons_self
  refine ⟨mem_located.mp hmem, hfound, fun place m hlt hat => ?_⟩
  have hm : (⟨place, m⟩ : Located) ∈ located ns := mem_located.mpr hat
  have hpairwise := pairwise_locatedFrom 0 ns
  rw [horder, List.pairwise_append, List.pairwise_cons] at hpairwise
  rw [located, horder, List.mem_append, List.mem_cons] at hm
  rcases hm with hm | rfl | hm
  · exact (Bool.not_eq_true' _).mp (hbefore _ hm)
  · exact absurd hlt (List.lt_irrefl place)
  · exact absurd hlt (List.lt_asymm (hpairwise.2.1.1 _ hm))

end MarkdownExport.Node
