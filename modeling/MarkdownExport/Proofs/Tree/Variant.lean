import Mathlib.Logic.Relation
import MarkdownExport.Proofs.Tree.DocumentOrder

/-! Forests that say the same. Comments, doctypes and instructions may come and go, a text may be
split, and the letters in the names of elements and attributes may change their case. Searches that
look at those names only find nodes that say the same again. -/
namespace MarkdownExport.Node

/-- What is read of attributes: their values, under names without the case of letters. -/
def entries (attributes : List Attribute) : List (Text × Text) :=
  attributes.map fun a => (a.name.lower, a.value)

/-- A forest, and the same with one change that says nothing. -/
inductive Variant : List Node → List Node → Prop
  | same (ns : List Node) : Variant ns ns
  | silent {n : Node} (ns : List Node) : n.isSilent = true → Variant (n :: ns) ns
  | empty (ns : List Node) : Variant (.text [] :: ns) ns
  | split (s t : Text) (ns : List Node) : Variant (.text (s ++ t) :: ns) (.text s :: .text t :: ns)
  | element {tag tag' : Text} {attributes attributes' : List Attribute}
      {children children' : List Node} (ns : List Node) : tag.lower = tag'.lower →
      entries attributes = entries attributes' → Variant children children' →
      Variant (.element tag attributes children :: ns) (.element tag' attributes' children' :: ns)
  | behind (n : Node) {ns ns' : List Node} : Variant ns ns' → Variant (n :: ns) (n :: ns')

/-- Forests that any number of such changes, there and back, lead from one to the other. -/
def Equivalent : List Node → List Node → Prop := Relation.EqvGen Variant

/-- What no single change touches is the same for equivalent forests. -/
theorem Equivalent.eq_of_variant {β : Type} {f : List Node → β}
    (hf : ∀ {ns ns'}, Variant ns ns' → f ns = f ns') {ns ns' : List Node}
    (h : Equivalent ns ns') : f ns = f ns' := by
  induction h with
  | rel ns ns' h => exact hf h
  | refl ns => rfl
  | symm ns ns' _ ih => exact ih.symm
  | trans ns ns' ns'' _ _ ih ih' => exact ih.trans ih'

theorem find?_eq_entries (name : Text) (attributes : List Attribute) :
    Attribute.find? name attributes =
      ((entries attributes).find? fun e => e.1 == name.lower).map Prod.snd := by
  rw [entries, List.find?_map, Option.map_map]
  rfl

theorem find?_congr {attributes attributes' : List Attribute}
    (h : entries attributes = entries attributes') (name : Text) :
    Attribute.find? name attributes = Attribute.find? name attributes' := by
  rw [find?_eq_entries, find?_eq_entries, h]

/-- The value is the same for an element and for what a change makes of it. -/
def Respects {β : Type} (g : Node → β) : Prop :=
  ∀ {tag tag' : Text} {attributes attributes' : List Attribute} {children children' : List Node},
    tag.lower = tag'.lower → entries attributes = entries attributes' →
    Variant children children' →
    g (.element tag attributes children) = g (.element tag' attributes' children')

/-- The predicate holds of elements only, and goes by their names and attributes. -/
structure IsSelector (p : Node → Bool) : Prop where
  respects : Respects p
  text (content : Text) : p (.text content) = false
  silent {n : Node} : n.isSilent = true → p n = false

namespace IsSelector

theorem isTag (name : Text) : IsSelector (isTag name) where
  respects htag _ _ := by
    rw [Node.isTag, Node.isTag, Text.equalsIgnoringCase, Text.equalsIgnoringCase, htag]
  text _ := rfl
  silent h := isTag_of_isSilent h name

theorem isCheckbox : IsSelector isCheckbox where
  respects htag hattributes h := by
    rw [Node.isCheckbox, (isTag "input").respects htag hattributes h, attribute?, Node.attributes,
      find?_congr hattributes]
    rfl
  text _ := rfl
  silent h := isCheckbox_of_isSilent h

theorem or {p q : Node → Bool} (hp : IsSelector p) (hq : IsSelector q) :
    IsSelector fun n => p n || q n where
  respects htag hattributes h := by
    show (p _ || q _) = (p _ || q _)
    rw [hp.respects htag hattributes h, hq.respects htag hattributes h]
  text content := by
    show (p _ || q _) = false
    rw [hp.text, hq.text, Bool.or_false]
  silent h := by
    show (p _ || q _) = false
    rw [hp.silent h, hq.silent h, Bool.or_false]

end IsSelector

namespace Variant
variable {β : Type} {p previous : Node → Bool} {g : Node → β} {ns ns' : List Node}

theorem map_findAll (hp : IsSelector p) (hg : Respects g) (h : Variant ns ns') :
    (findAll p ns).map g = (findAll p ns').map g := by
  induction h with
  | same => rfl
  | silent ns hn => rw [findAll_of_isSilent hn (hp.silent hn)]
  | empty ns => rw [findAll_text (hp.text [])]
  | split s t ns =>
    rw [findAll_text (hp.text _), findAll_text (hp.text _), findAll_text (hp.text _)]
  | element ns htag hattributes h ih =>
    rw [findAll_element, findAll_element, hp.respects htag hattributes h]
    simp only [List.map_append, ih]
    split
    · rw [List.map_singleton, List.map_singleton, hg htag hattributes h]
    · rfl
  | behind n h ih => simp only [findAll_cons, List.map_append, ih]

/-- The same for the nodes of the forest itself. -/
theorem map_filter (hp : IsSelector p) (hg : Respects g) (h : Variant ns ns') :
    (ns.filter p).map g = (ns'.filter p).map g := by
  induction h with
  | same => rfl
  | silent ns hn => rw [List.filter_cons, hp.silent hn, if_neg Bool.false_ne_true]
  | empty ns => rw [List.filter_cons, hp.text, if_neg Bool.false_ne_true]
  | split s t ns => simp only [List.filter_cons, hp.text, Bool.false_eq_true, if_false]
  | element ns htag hattributes h ih =>
    rw [List.filter_cons, List.filter_cons, hp.respects htag hattributes h]
    split
    · rw [List.map_cons, List.map_cons, hg htag hattributes h]
    · rfl
  | behind n h ih =>
    rw [List.filter_cons, List.filter_cons]
    split
    · rw [List.map_cons, List.map_cons, ih]
    · exact ih

theorem map_findFirst? (hp : IsSelector p) (hg : Respects g) (h : Variant ns ns') :
    (findFirst? p ns).map g = (findFirst? p ns').map g := by
  rw [findFirst?_eq_head?, findFirst?_eq_head?, ← List.head?_map, ← List.head?_map,
    map_findAll hp hg h]

/-- Of the sibling before only this counts: whether it is as wanted. -/
theorem adjacentAfter_congr {last last' : Option Node}
    (h : last.any previous = last'.any previous) (ns : List Node) :
    adjacentAfter previous p last ns = adjacentAfter previous p last' ns := by
  induction ns with
  | nil => rfl
  | cons n ns ih =>
    rw [adjacentAfter, adjacentAfter, h, ih]

theorem map_adjacentAfter (hprevious : IsSelector previous) (hp : IsSelector p) (hg : Respects g)
    (h : Variant ns ns') (last : Option Node) :
    (adjacentAfter previous p last ns).map g = (adjacentAfter previous p last ns').map g := by
  induction h generalizing last with
  | same => rfl
  | silent ns hn => rw [adjacentAfter_of_not_isElement (isElement_of_isSilent hn)]
  | empty ns => rfl
  | split s t ns => rfl
  | @element tag tag' attributes attributes' children children' ns htag hattributes h ih =>
    have hbefore : (some (.element tag attributes children)).any previous =
        (some (.element tag' attributes' children')).any previous :=
      hprevious.respects htag hattributes h
    rw [adjacentAfter_of_isElement rfl, adjacentAfter_of_isElement rfl,
      hp.respects htag hattributes h, adjacentAfter_congr hbefore]
    simp only [Option.map_or, Node.children, ih]
    split
    · rw [Option.map_some, Option.map_some, hg htag hattributes h]
    · rfl
  | behind n h ih =>
    cases helement : n.isElement with
    | false =>
      rw [adjacentAfter_of_not_isElement helement, adjacentAfter_of_not_isElement helement, ih]
    | true =>
      rw [adjacentAfter_of_isElement helement, adjacentAfter_of_isElement helement]
      simp only [Option.map_or, ih]

end Variant
end MarkdownExport.Node
