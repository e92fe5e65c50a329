import MarkdownExport.Proofs.Tree.Query

/-! Induction on forests, and what the searches in a forest have to do with its document order. Text
and elements are what a forest shows; comments, doctypes and instructions show nothing. -/
namespace MarkdownExport.Node

/-- Nodes that say nothing about the document. -/
def isSilent : Node → Bool
  | comment _ | doctype _ | instruction _ _ => true
  | text _ | element .. => false

/-- A statement about the children of the first node, which are a forest too, and about the nodes
behind it carries over to the whole forest. -/
@[elab_as_elim]
theorem children_induction {motive : List Node → Prop} (nil : motive [])
    (cons : ∀ n ns, motive n.children → motive ns → motive (n :: ns)) (ns : List Node) :
    motive ns :=
  match ns with
  | [] => nil
  | .element tag attributes children :: ns =>
    cons (.element tag attributes children) ns (children_induction nil cons children)
      (children_induction nil cons ns)
  | .text content :: ns => cons (.text content) ns nil (children_induction nil cons ns)
  | .comment content :: ns => cons (.comment content) ns nil (children_induction nil cons ns)
  | .doctype name :: ns => cons (.doctype name) ns nil (children_induction nil cons ns)
  | .instruction target data :: ns =>
    cons (.instruction target data) ns nil (children_induction nil cons ns)

/-- The same by what the first node is. -/
@[elab_as_elim]
theorem forest_induction {motive : List Node → Prop} (nil : motive [])
    (text : ∀ content ns, motive ns → motive (.text content :: ns))
    (element : ∀ tag attributes children ns, motive children → motive ns →
      motive (.element tag attributes children :: ns))
    (silent : ∀ n ns, n.isSilent = true → motive ns → motive (n :: ns)) (ns : List Node) :
    motive ns := by
  induction ns using children_induction with
  | nil => exact nil
  | cons n ns ihc ih =>
    cases n with
    | text content => exact text content ns ih
    | element tag attributes children => exact element tag attributes children ns ihc ih
    | comment content => exact silent (.comment content) ns rfl ih
    | doctype name => exact silent (.doctype name) ns rfl ih
    | instruction target data => exact silent (.instruction target data) ns rfl ih

theorem textContent_of_isSilent {n : Node} (h : n.isSilent = true) : n.textContent = [] := by
  cases n with
  | text | element => cases h
  | comment | doctype | instruction => rfl

theorem isElement_of_isSilent {n : Node} (h : n.isSilent = true) : n.isElement = false := by
  cases n with
  | text | element => cases h
  | comment | doctype | instruction => rfl

theorem isTag_of_isSilent {n : Node} (h : n.isSilent = true) (tag : Text) :
    n.isTag tag = false := by
  cases n with
  | text | element => cases h
  | comment | doctype | instruction => rfl

theorem isCheckbox_of_isSilent {n : Node} (h : n.isSilent = true) : n.isCheckbox = false := by
  rw [isCheckbox, isTag_of_isSilent h, Bool.false_and]

theorem isTag_of_lower {tag name : Text} (h : tag.lower = name) (hname : name.lower = name)
    (attributes : List Attribute) (children : List Node) :
    isTag name (.element tag attributes children) = true := by
  rw [isTag, Text.equalsIgnoringCase, h, hname, beq_self_eq_true]

theorem textOf_cons (n : Node) (ns : List Node) : textOf (n :: ns) = n.textContent ++ textOf ns :=
  rfl

theorem textContent_of_isTag {tag : Text} {n : Node} (h : n.isTag tag = true) :
    n.textContent = textOf n.children := by
  cases n with
  | element => rfl
  | text | comment | doctype | instruction => cases h

theorem findAll_element (p : Node → Bool) (tag : Text) (attributes : List Attribute)
    (children ns : List Node) :
    findAll p (.element tag attributes children :: ns) =
      (if p (.element tag attributes children) then [.element tag attributes children] else []) ++
        findAll p children ++ findAll p ns := rfl

theorem findAll_text {p : Node → Bool} {content : Text} (hp : p (.text content) = false)
    (ns : List Node) : findAll p (.text content :: ns) = findAll p ns := by
  rw [findAll_cons, hp, if_neg Bool.false_ne_true]
  rfl

theorem findAll_of_isSilent {p : Node → Bool} {n : Node} (h : n.isSilent = true)
    (hp : p n = false) (ns : List Node) : findAll p (n :: ns) = findAll p ns := by
  have hbelow : findBelow p n = [] := by
    cases n with
    | text | element => cases h
    | comment | doctype | instruction => rfl
  rw [findAll_cons, hp, if_neg Bool.false_ne_true, hbelow]
  rfl

/-! Document order. -/

theorem preorder_cons (n : Node) (ns : List Node) :
    preorder (n :: ns) = n :: (preorder n.children ++ preorder ns) := by
  cases n <;> rfl

theorem forall_preorder_cons {P : Node → Prop} {n : Node} {ns : List Node} :
    (∀ m ∈ preorder (n :: ns), P m) ↔
      P n ∧ (∀ m ∈ preorder n.children, P m) ∧ ∀ m ∈ preorder ns, P m := by
  rw [preorder_cons, List.forall_mem_cons, List.forall_mem_append]

theorem mem_preorder_of_mem {c : Node} {ns : List Node} (hc : c ∈ ns) {n : Node}
    (hn : n ∈ preorder c.children) : n ∈ preorder ns := by
  induction ns with
  | nil => cases hc
  | cons m ns ih =>
    rw [preorder_cons, List.mem_cons, List.mem_append]
    rcases List.mem_cons.mp hc with rfl | hc
    · exact Or.inr (Or.inl hn)
    · exact Or.inr (Or.inr (ih hc))

/-- A search for all matches is a selection from the document order. -/
theorem findAll_eq_filter (p : Node → Bool) (ns : List Node) :
    findAll p ns = (preorder ns).filter p := by
  induction ns using children_induction with
  | nil => rfl
  | cons n ns ihc ih =>
    rw [findAll_cons, findBelow_eq, ihc, ih, preorder_cons, List.filter_cons, List.filter_append]
    split
    · rfl
    · rfl

theorem findAll_eq_nil {p : Node → Bool} {ns : List Node}
    (h : ∀ n ∈ preorder ns, p n = false) : findAll p ns = [] := by
  rw [findAll_eq_filter, List.filter_eq_nil_iff]
  intro n hn
  rw [h n hn]
  exact Bool.false_ne_true

theorem locateBelow_eq (p : Node → Bool) (n : Node) :
    locateBelow p n = locateFrom p 0 n.children := by
  cases n <;> rfl

end MarkdownExport.Node
