import MarkdownExport.Proofs.Markdown.Rules

/-! What the two dialects differ in. Without tables and checkboxes it is struck text alone, and the
standard dialect treats that as any other. -/
namespace MarkdownExport.Markdown

def isStrike (n : Node) : Bool := n.isTag "s" || n.isTag "strike" || n.isTag "del"

mutual

/-- The same node with plain spans in place of struck text. -/
def spanStrike : Node → Node
  | .element tag attributes children =>
    .element (if isStrike (.element tag attributes children) then "span" else tag) attributes
      (spanStrikes children)
  | n => n

def spanStrikes : List Node → List Node
  | [] => []
  | n :: ns => spanStrike n :: spanStrikes ns

end

theorem spanStrikes_eq_map (ns : List Node) : spanStrikes ns = ns.map spanStrike := by
  induction ns with
  | nil => rfl
  | cons n ns ih => rw [spanStrikes, ih, List.map_cons]

theorem spanStrike_children (n : Node) : (spanStrike n).children = spanStrikes n.children := by
  cases n <;> rfl

theorem spanStrike_attributes (n : Node) : (spanStrike n).attributes = n.attributes := by
  cases n <;> rfl

theorem spanStrike_of_isSilent {n : Node} (h : n.isSilent = true) : spanStrike n = n := by
  cases n with
  | text | element => cases h
  | comment | doctype | instruction => rfl

theorem spanStrikes_eq_self {ns : List Node} (h : ∀ n ∈ Node.preorder ns, isStrike n = false) :
    spanStrikes ns = ns := by
  induction ns using Node.forest_induction with
  | nil => rfl
  | text content ns ih =>
    rw [Node.forall_preorder_cons] at h
    rw [spanStrikes, ih h.2.2]
    rfl
  | element tag attributes children ns ihc ih =>
    rw [Node.forall_preorder_cons] at h
    rw [spanStrikes, spanStrike, h.1, if_neg Bool.false_ne_true, ihc h.2.1, ih h.2.2]
  | silent n ns hn ih =>
    rw [Node.forall_preorder_cons] at h
    rw [spanStrikes, spanStrike_of_isSilent hn, ih h.2.2]

theorem isStrike_element {tag : Text} {attributes : List Attribute} {children : List Node} :
    isStrike (.element tag attributes children) = true ↔
      tag.lower = "s" ∨ tag.lower = "strike" ∨ tag.lower = "del" := by
  have hstrike (name : Text) : (Node.element tag attributes children).isTag name =
      (tag.lower == name.lower) := rfl
  rw [isStrike, hstrike, hstrike, hstrike]
  simp only [Bool.or_eq_true, beq_iff_eq, or_assoc]
  rfl

/-- They are the elements that are struck through in a line. -/
theorem isStrike_iff_ofTag {tag : Text} {attributes : List Attribute} {children : List Node} :
    isStrike (.element tag attributes children) = true ↔
      Phrase.ofTag tag.lower = .strikethrough := by
  rw [isStrike_element]
  constructor
  · intro h
    rcases h with h | h | h
    · rw [h]
      rfl
    · rw [h]
      rfl
    · rw [h]
      rfl
  · intro h
    have hmem := Phrase.mem_tags h (by decide)
    simpa only [Phrase.tags, List.mem_cons, Prod.mk.injEq, reduceCtorEq, and_false, and_true,
      false_or, or_false, List.not_mem_nil] using hmem

/-! Searches find the same nodes, unless they are for struck text or for spans. -/

theorem preorder_spanStrikes (ns : List Node) :
    Node.preorder (spanStrikes ns) = (Node.preorder ns).map spanStrike := by
  induction ns using Node.children_induction with
  | nil => rfl
  | cons n ns ihc ih =>
    rw [spanStrikes, Node.preorder_cons, Node.preorder_cons, spanStrike_children, ihc, ih,
      List.map_cons, List.map_append]

theorem findAll_spanStrikes {p : Node → Bool} (hp : ∀ n, p (spanStrike n) = p n)
    (ns : List Node) : Node.findAll p (spanStrikes ns) = (Node.findAll p ns).map spanStrike := by
  have hcomp : p ∘ spanStrike = p := funext hp
  rw [Node.findAll_eq_filter, Node.findAll_eq_filter, preorder_spanStrikes, List.filter_map, hcomp]

theorem isTag_spanStrike {name : Text}
    (hname : ∀ other ∈ (["s", "strike", "del", "span"] : List Text), name.lower ≠ other)
    (n : Node) : (spanStrike n).isTag name = n.isTag name := by
  simp only [List.forall_mem_cons, List.not_mem_nil, false_implies, implies_true, and_true] at hname
  obtain ⟨hs, hstrike, hdel, hspan⟩ := hname
  cases n with
  | element tag attributes children =>
    rw [spanStrike]
    split
    next h =>
      have hnew : Text.lower "span" ≠ name.lower := hspan.symm
      have hold : tag.lower ≠ name.lower := by
        rcases isStrike_element.mp h with h | h | h
        · rw [h]
          exact hs.symm
        · rw [h]
          exact hstrike.symm
        · rw [h]
          exact hdel.symm
      show (Text.lower "span" == name.lower) = (tag.lower == name.lower)
      rw [beq_false_of_ne hnew, beq_false_of_ne hold]
    next => rfl
  | text | comment | doctype | instruction => rfl

theorem isCheckbox_spanStrike (n : Node) : (spanStrike n).isCheckbox = n.isCheckbox := by
  rw [Node.isCheckbox, Node.isCheckbox, isTag_spanStrike (by decide), Node.attribute?,
    Node.attribute?, spanStrike_attributes]

/-! What is copied as text does not change. -/

theorem textOf_spanStrikes (ns : List Node) :
    Node.textOf (spanStrikes ns) = Node.textOf ns := by
  induction ns using Node.forest_induction with
  | nil => rfl
  | text content ns ih => rw [spanStrikes, Node.textOf_cons, ih, Node.textOf_cons]; rfl
  | element tag attributes children ns ihc ih =>
    rw [spanStrikes, Node.textOf_cons, Node.textOf_cons, spanStrike, Node.textContent, ihc, ih,
      Node.textContent]
  | silent n ns hn ih =>
    rw [spanStrikes, Node.textOf_cons, Node.textOf_cons, ih, spanStrike_of_isSilent hn]

theorem textContent_spanStrike (n : Node) : (spanStrike n).textContent = n.textContent := by
  cases n with
  | element tag attributes children => exact textOf_spanStrikes children
  | text | comment | doctype | instruction => rfl

/-! Lines. -/

/-- Only struck text is written in another way in another dialect. -/
theorem render_gfm {phrase : Phrase} (h : phrase ≠ .strikethrough) (attributes : List Attribute)
    {children children' : List Node} (htext : Node.textOf children = Node.textOf children')
    (inner : Text) :
    phrase.render .gfm attributes children inner =
      phrase.render .standard attributes children' inner := by
  cases phrase with
  | strikethrough => exact absurd rfl h
  | code => rw [Phrase.render, Phrase.render, htext]
  | link => rw [Phrase.render, Phrase.render, htext]
  | strong | emphasis | image | superscript | plain => rfl

theorem inlineAll_spanStrikes (ns : List Node) :
    inlineAll .gfm (spanStrikes ns) = inlineAll .standard ns := by
  induction ns using Node.forest_induction with
  | nil => rfl
  | text content ns ih =>
    rw [spanStrikes, inlineAll_cons, inlineAll_cons, ih]
    rfl
  | element tag attributes children ns ihc ih =>
    rw [spanStrikes, inlineAll_cons, inlineAll_cons, ih, spanStrike, inlineNode_element,
      inlineNode_element]
    rw [inlineAll, inlineAll] at ihc
    rw [ihc]
    split
    next h =>
      -- both a span and, in the standard dialect, struck text are what is inside
      rw [isStrike_iff_ofTag.mp h]
      rfl
    next h =>
      have hphrase : Phrase.ofTag tag.lower ≠ .strikethrough := fun hp =>
        h (isStrike_iff_ofTag.mpr hp)
      rw [render_gfm hphrase attributes (textOf_spanStrikes children)]
  | silent n ns hn ih =>
    rw [spanStrikes, inlineAll_cons, inlineAll_cons, ih, spanStrike_of_isSilent hn,
      inlineNode_of_isSilent hn, inlineNode_of_isSilent hn]

/-! Blocks. -/

/-- In a forest without tables and checkboxes the dialects have the same constructs, struck text
apart. -/
def IsCommon (n : Node) : Prop := n.isTag "table" = false ∧ n.isCheckbox = false

instance (n : Node) : Decidable (IsCommon n) := inferInstanceAs (Decidable (_ ∧ _))

theorem itemLine_spanStrike {item : Node}
    (h : ∀ n ∈ Node.preorder item.children, n.isCheckbox = false) (kind : ListKind) (i : Nat) :
    itemLine .gfm kind i (spanStrike item) = itemLine .standard kind i item := by
  have hspan : ∀ n ∈ Node.preorder (spanStrike item).children, n.isCheckbox = false := by
    rw [spanStrike_children, preorder_spanStrikes, List.forall_mem_map]
    intro n hn
    rw [isCheckbox_spanStrike, h n hn]
  rw [itemLine_of_no_box hspan, itemLine_standard, plainLine, plainLine, spanStrike_children,
    inlineAll_spanStrikes]

theorem map_findFirst?_spanStrikes {α : Type} {name : Text} {f : Node → α}
    (hname : ∀ other ∈ (["s", "strike", "del", "span"] : List Text), name.lower ≠ other)
    (hf : ∀ n, f (spanStrike n) = f n) (ns : List Node) :
    (Node.findTag? name (spanStrikes ns)).map f = (Node.findTag? name ns).map f := by
  have hcomp : f ∘ spanStrike = f := funext hf
  rw [Node.findTag?, Node.findTag?, Node.findFirst?_eq_head?, Node.findFirst?_eq_head?,
    findAll_spanStrikes (isTag_spanStrike hname), List.head?_map, Option.map_map, hcomp]

theorem agree_spanStrikes (tag tag' : Text) (attributes : List Attribute) {children : List Node}
    (h : ∀ n ∈ Node.preorder children, IsCommon n)
    (hblock : blockAll .gfm defaultRules (spanStrikes children) =
      blockAll .standard defaultRules children) :
    (subject .gfm tag attributes (spanStrikes children)).Agree
      (subject .standard tag' attributes children) where
  text := textOf_spanStrikes children
  inline := inlineAll_spanStrikes children
  block := hblock
  attribute? _ := rfl
  lines kind := by
    show (items (spanStrikes children)).map _ = (items children).map _
    have hitem : Node.isTag "li" ∘ spanStrike = Node.isTag "li" :=
      funext (isTag_spanStrike (by decide))
    rw [items, items, spanStrikes_eq_map, List.filter_map, hitem, List.map_map]
    apply List.map_congr_left
    intro item hitem
    funext i
    apply itemLine_spanStrike
    intro n hn
    exact (h n (Node.mem_preorder_of_mem (List.mem_filter.mp hitem).1 hn)).2
  picture := map_findFirst?_spanStrikes (by decide)
    (fun n => by rw [spanStrike_attributes]) children
  legend := map_findFirst?_spanStrikes (by decide)
    (fun n => by rw [caption, caption, textContent_spanStrike]) children
  notes := by
    show (Node.findTags "li" (spanStrikes children)).map _ = (Node.findTags "li" children).map _
    have hline : footnoteLine ∘ spanStrike = footnoteLine := by
      funext n
      rw [Function.comp, footnoteLine, footnoteLine, textContent_spanStrike, Node.attribute?,
        Node.attribute?, spanStrike_attributes]
    rw [Node.findTags, Node.findTags, findAll_spanStrikes (isTag_spanStrike (by decide)),
      List.map_map, hline]

/-- Neither struck text nor a span has a rule. -/
theorem find?_of_isStrike {tag : Text} {attributes : List Attribute} {children : List Node}
    (h : isStrike (.element tag attributes children) = true) :
    defaultRules.find? tag.lower = defaultRules.find? (Text.lower "span") := by
  rcases isStrike_element.mp h with h | h | h
  · rw [h]
    rfl
  · rw [h]
    rfl
  · rw [h]
    rfl

theorem blockAll_spanStrikes {ns : List Node} (h : ∀ n ∈ Node.preorder ns, IsCommon n) :
    blockAll .gfm defaultRules (spanStrikes ns) = blockAll .standard defaultRules ns := by
  induction ns using Node.forest_induction with
  | nil => rfl
  | text content ns ih =>
    rw [Node.forall_preorder_cons] at h
    rw [spanStrikes, blockAll_cons, blockAll_cons, ih h.2.2]
    rfl
  | element tag attributes children ns ihc ih =>
    rw [Node.forall_preorder_cons] at h
    obtain ⟨⟨htable, -⟩, hchildren, hns⟩ := h
    obtain ⟨tag', htag', hrule⟩ : ∃ tag' : Text,
        spanStrike (.element tag attributes children) =
          .element tag' attributes (spanStrikes children) ∧
        defaultRules.find? tag'.lower = defaultRules.find? tag.lower := by
      refine ⟨_, rfl, ?_⟩
      split
      next h => exact (find?_of_isStrike h).symm
      next => rfl
    rw [spanStrikes, blockAll_cons, blockAll_cons, ih hns, htag', blockNode, blockNode, hrule]
    cases hfound : defaultRules.find? tag.lower with
    | none => exact congrArg (· ++ blockAll .standard defaultRules ns) (ihc hchildren)
    | some rule =>
      have hother : tag.lower ≠ "table" := by
        intro htag
        have hsame := Node.isTag_of_lower htag rfl attributes children
        rw [htable] at hsame
        cases hsame
      have hagree := agree_spanStrikes tag' tag attributes hchildren (ihc hchildren)
      have hsame := rule_congr (isDefault_of_find? hfound) hagree fun htag => absurd htag hother
      exact congrArg (· ++ blockAll .standard defaultRules ns) hsame
  | silent n ns hn ih =>
    rw [Node.forall_preorder_cons] at h
    rw [spanStrikes, blockAll_cons, blockAll_cons, ih h.2.2, spanStrike_of_isSilent hn,
      blockNode_of_isSilent hn, blockNode_of_isSilent hn]

theorem rawMarkdown_spanStrikes {document : List Node}
    (h : ∀ n ∈ Node.preorder document, IsCommon n) :
    rawMarkdown .gfm [] (spanStrikes document) = rawMarkdown .standard [] document :=
  blockAll_spanStrikes h

/-- Without tables and checkboxes, the standard dialect is the other one with spans for struck
text, and where nothing is struck the two are one. -/
theorem standard_eq_gfm {document : List Node} (h : ∀ n ∈ Node.preorder document, IsCommon n) :
    (rawMarkdown .standard [] document = rawMarkdown .gfm [] (spanStrikes document) ∧
      markdown .standard [] document = markdown .gfm [] (spanStrikes document) ∧
      inlineAll .standard document = inlineAll .gfm (spanStrikes document)) ∧
    ((∀ n ∈ Node.preorder document, isStrike n = false) →
      rawMarkdown .standard [] document = rawMarkdown .gfm [] document ∧
      markdown .standard [] document = markdown .gfm [] document ∧
      inlineAll .standard document = inlineAll .gfm document) := by
  have hraw := (rawMarkdown_spanStrikes h).symm
  have hspans := And.intro hraw
    (And.intro (congrArg normalize hraw) (inlineAll_spanStrikes document).symm)
  refine ⟨hspans, ?_⟩
  intro hstrike
  rw [spanStrikes_eq_self hstrike] at hspans
  exact hspans

/-- A quoted list and a struck link without a label of its own. -/
def struckDocument : List Node :=
  [.element "blockquote" [] [.element "UL" [] [.element "li" []
    [.text "a", .element "DEL" [⟨"id", "x"⟩] [.text "*b*"]]]],
   .element "p" [] [.element "a" [⟨"href", "u"⟩] [.element "s" [] [.element "img" [] []]],
     .element "strike" [] [.element "code" [] [.text "_"]]]]

def unstruckDocument : List Node :=
  [.element "p" [] [.element "span" [] [.text "a*"], .element "em" [] [.text "b"]]]

theorem standard_eq_gfm_struckDocument :
    (∀ n ∈ Node.preorder struckDocument, IsCommon n) ∧
      (∀ n ∈ Node.preorder unstruckDocument, IsCommon n ∧ isStrike n = false) ∧
      markdown .gfm [] struckDocument ≠ markdown .standard [] struckDocument ∧
      markdown .standard [] struckDocument = markdown .gfm [] (spanStrikes struckDocument) ∧
      markdown .standard [] unstruckDocument = markdown .gfm [] unstruckDocument := by
  have hstruck : ∀ n ∈ Node.preorder struckDocument, IsCommon n := by decide
  have hunstruck : ∀ n ∈ Node.preorder unstruckDocument, IsCommon n ∧ isStrike n = false := by
    decide
  refine ⟨hstruck, hunstruck, by decide +kernel, (standard_eq_gfm hstruck).1.2.1, ?_⟩
  have hsame := (standard_eq_gfm fun n hn => (hunstruck n hn).1).2 fun n hn => (hunstruck n hn).2
  exact hsame.2.1

end MarkdownExport.Markdown
