import MarkdownExport.Markdown.Default
import MarkdownExport.Proofs.Tree.DocumentOrder

/-! The default rules by their tags, and task items without the places of their checkboxes. -/
namespace MarkdownExport.Markdown

/-- The rules that tags in lower case have. -/
inductive IsDefault : Text → Rule → Prop
  | heading (level : Nat) : 1 ≤ level → level ≤ 3 → IsDefault ('h' :: decimal level) (heading level)
  | paragraph : IsDefault "p" paragraph
  | lineBreak : IsDefault "br" lineBreak
  | horizontalRule : IsDefault "hr" horizontalRule
  | blockquote : IsDefault "blockquote" blockquote
  | bulletedList : IsDefault "ul" bulletedList
  | numberedList : IsDefault "ol" numberedList
  | table : IsDefault "table" table
  | preformatted : IsDefault "pre" preformatted
  | figure : IsDefault "figure" figure
  | standaloneImage : IsDefault "img" standaloneImage
  | sectionRule : IsDefault "section" sectionRule

theorem mem_of_dictionary_find? {α : Type} {d : Dictionary α} {k : Text} {v : α}
    (h : d.find? k = some v) : (k, v) ∈ d := by
  induction d with
  | nil => cases h
  | cons e d ih =>
    obtain ⟨j, w⟩ := e
    unfold Dictionary.find? at h
    split at h
    next hk =>
      cases h
      rw [hk]
      exact List.mem_cons_self
    next => exact List.mem_cons_of_mem _ (ih h)

theorem isDefault_of_find? {tag : Text} {rule : Rule} (h : defaultRules.find? tag = some rule) :
    IsDefault tag rule := by
  have hmem := mem_of_dictionary_find? h
  simp only [defaultRules, List.mem_cons, Prod.mk.injEq, List.not_mem_nil, or_false] at hmem
  rcases hmem with ⟨rfl, rfl⟩ | ⟨rfl, rfl⟩ | ⟨rfl, rfl⟩ | ⟨rfl, rfl⟩ | ⟨rfl, rfl⟩ | ⟨rfl, rfl⟩ |
    ⟨rfl, rfl⟩ | ⟨rfl, rfl⟩ | ⟨rfl, rfl⟩ | ⟨rfl, rfl⟩ | ⟨rfl, rfl⟩ | ⟨rfl, rfl⟩ | ⟨rfl, rfl⟩ |
    ⟨rfl, rfl⟩
  · exact .heading 1 (by omega) (by omega)
  · exact .heading 2 (by omega) (by omega)
  · exact .heading 3 (by omega) (by omega)
  · exact .paragraph
  · exact .lineBreak
  · exact .horizontalRule
  · exact .blockquote
  · exact .bulletedList
  · exact .numberedList
  · exact .table
  · exact .preformatted
  · exact .figure
  · exact .standaloneImage
  · exact .sectionRule

/-- A tag that means something in a line is listed with it. -/
theorem Phrase.mem_tags {tag : Text} {phrase : Phrase} (h : Phrase.ofTag tag = phrase)
    (hne : phrase ≠ .plain) : (tag, phrase) ∈ Phrase.tags := by
  unfold Phrase.ofTag at h
  cases hfound : Phrase.tags.find? tag with
  | none =>
    rw [hfound] at h
    exact absurd h.symm hne
  | some found =>
    rw [hfound, Option.getD_some] at h
    subst h
    exact mem_of_dictionary_find? hfound

/-- What a rule is asked to render for an element, if all rules are the default ones. -/
def subject (dialect : Dialect) (tag : Text) (attributes : List Attribute) (children : List Node) :
    Subject :=
  ⟨tag, attributes, children, dialect, .mk fun _ => blockEach dialect defaultRules children⟩

/-- An element is rendered by a default rule, or stands for its children. -/
theorem blockNode_element (dialect : Dialect) (tag : Text) (attributes : List Attribute)
    (children : List Node) :
    (∃ rule, IsDefault tag.lower rule ∧
        blockNode dialect defaultRules (.element tag attributes children) =
          rule (subject dialect tag attributes children)) ∨
      blockNode dialect defaultRules (.element tag attributes children) =
        blockAll dialect defaultRules children := by
  unfold blockNode
  cases hrule : defaultRules.find? tag.lower with
  | none => exact Or.inr rfl
  | some rule => exact Or.inl ⟨rule, isDefault_of_find? hrule, rfl⟩

theorem inlineNode_element (dialect : Dialect) (skip : Node.Path) (tag : Text)
    (attributes : List Attribute) (children : List Node) :
    inlineNode dialect skip (.element tag attributes children) =
      (Phrase.ofTag tag.lower).render dialect attributes children
        (inlineWithout dialect skip children) := rfl

theorem inlineNode_of_isSilent {n : Node} (h : n.isSilent = true) (dialect : Dialect)
    (skip : Node.Path) : inlineNode dialect skip n = [] := by
  cases n with
  | text | element => cases h
  | comment | doctype | instruction => rfl

theorem blockNode_of_isSilent {n : Node} (h : n.isSilent = true) (dialect : Dialect)
    (rules : RuleTable) : blockNode dialect rules n = [] := by
  cases n with
  | text | element => cases h
  | comment | doctype | instruction => rfl

/-! Task items. -/

section Around
variable (dialect : Dialect) (p : Node → Bool)

mutual

/-- The inline Markdown of an element without the first match in it, if there is one. -/
def inlineInside? : Node → Option Text
  | .element tag attributes children =>
    (inlineAround? children).map fun inner =>
      (Phrase.ofTag tag.lower).render dialect attributes children inner
  | _ => none

/-- The inline Markdown of a forest without the first match in it, if there is one. -/
def inlineAround? : List Node → Option Text
  | [] => none
  | n :: ns =>
    if p n then some (inlineAll dialect ns)
    else match inlineInside? n with
      | some t => some (t ++ inlineAll dialect ns)
      | none => (inlineAround? ns).map fun t => inlineNode dialect [] n ++ t

end

variable {dialect p}

theorem inlineInside?_eq_none {n : Node} (h : inlineAround? dialect p n.children = none) :
    inlineInside? dialect p n = none := by
  cases n with
  | element =>
    rw [inlineInside?, Option.map_eq_none_iff]
    exact h
  | text | comment | doctype | instruction => rfl

theorem inlineInside?_eq_some {n : Node} {skip : Node.Path}
    (h : inlineAround? dialect p n.children = some (inlineWithout dialect skip n.children)) :
    inlineInside? dialect p n = some (inlineNode dialect skip n) := by
  cases n with
  | element tag attributes children =>
    replace h : inlineAround? dialect p children = some (inlineWithout dialect skip children) := h
    rw [inlineInside?, h]
    rfl
  | text | comment | doctype | instruction => cases h

theorem inlineAround?_of_isSilent {n : Node} (h : n.isSilent = true) (hp : p n = false)
    (ns : List Node) : inlineAround? dialect p (n :: ns) = inlineAround? dialect p ns := by
  have hinside : inlineInside? dialect p n = none := by
    cases n with
    | text | element => cases h
    | comment | doctype | instruction => rfl
  rw [inlineAround?, hp, if_neg Bool.false_ne_true, hinside, inlineNode_of_isSilent h]
  exact Option.map_id'

variable (dialect p) in
/-- What is found at a place among nodes of which the first has index `i` is left out. -/
theorem inlineAround?_of_locateFrom (ns : List Node) (i : Nat) :
    (Node.locateFrom p i ns = none ∧ inlineAround? dialect p ns = none) ∨
      ∃ k path n, Node.locateFrom p i ns = some ⟨(i + k) :: path, n⟩ ∧
        inlineAround? dialect p ns = some (inlineWithout dialect (k :: path) ns) := by
  induction ns using Node.children_induction generalizing i with
  | nil => exact Or.inl ⟨rfl, rfl⟩
  | cons n ns ihc ih =>
    rw [Node.locateFrom, inlineAround?, Node.locateBelow_eq]
    by_cases hp : p n
    · rw [if_pos hp, if_pos hp]
      exact Or.inr ⟨0, [], n, rfl, rfl⟩
    · rw [if_neg hp, if_neg hp]
      rcases ihc 0 with ⟨hfound, haround⟩ | ⟨k, path, m, hfound, haround⟩
      · rw [hfound, inlineInside?_eq_none haround]
        rcases ih (i + 1) with ⟨hfound, haround⟩ | ⟨k, path, m, hfound, haround⟩
        · exact Or.inl ⟨hfound, by rw [haround]; rfl⟩
        · refine Or.inr ⟨k + 1, path, m, ?_, ?_⟩
          · rw [hfound, show i + 1 + k = i + (k + 1) by omega]
          · rw [haround]
            rfl
      · rw [hfound, inlineInside?_eq_some haround]
        exact Or.inr ⟨0, (0 + k) :: path, m, rfl, by rw [Nat.zero_add]; rfl⟩

end Around

/-- The line of an item whose first checkbox is left out of its text. -/
def taskLine (isChecked : Bool) (text : Text) : Text :=
  "- [" ++ (if isChecked then "x" else " " : Text) ++ "] " ++ text.trim ++ "\n"

def plainLine (dialect : Dialect) (kind : ListKind) (i : Nat) (item : Node) : Text :=
  kind.marker i ++ (inlineAll dialect item.children).trim ++ "\n"

theorem itemLine_standard (kind : ListKind) (i : Nat) (item : Node) :
    itemLine .standard kind i item = plainLine .standard kind i item := rfl

theorem itemLine_gfm (kind : ListKind) (i : Nat) (item : Node) :
    itemLine .gfm kind i item =
      match ((Node.findAll Node.isCheckbox item.children).map (Node.hasAttribute "checked")).head?,
        inlineAround? .gfm Node.isCheckbox item.children with
      | some isChecked, some text => taskLine isChecked text
      | _, _ => plainLine .gfm kind i item := by
  rw [List.head?_map, ← Node.locateFrom_node _ 0]
  unfold itemLine taskBox? Node.locate?
  rcases inlineAround?_of_locateFrom .gfm Node.isCheckbox item.children 0 with
    ⟨hfound, haround⟩ | ⟨k, path, box, hfound, haround⟩
  · rw [hfound, haround]
    rfl
  · rw [hfound, haround, Nat.zero_add]
    rfl

theorem itemLine_of_no_box {item : Node}
    (h : ∀ n ∈ Node.preorder item.children, n.isCheckbox = false) (dialect : Dialect)
    (kind : ListKind) (i : Nat) : itemLine dialect kind i item = plainLine dialect kind i item := by
  cases dialect with
  | standard => exact itemLine_standard kind i item
  | gfm =>
    rw [itemLine_gfm, Node.findAll_eq_nil h]
    rfl

/-- The lines of a list are told by what each item gives at each place. -/
theorem itemLinesFrom_congr {dialect dialect' : Dialect} {kind : ListKind} {lis lis' : List Node}
    (h : lis.map (fun item i => itemLine dialect kind i item) =
      lis'.map fun item i => itemLine dialect' kind i item) (i : Nat) :
    itemLinesFrom dialect kind i lis = itemLinesFrom dialect' kind i lis' := by
  induction lis generalizing lis' i with
  | nil =>
    rw [List.map_nil, eq_comm, List.map_eq_nil_iff] at h
    rw [h]
    rfl
  | cons item lis ih =>
    cases lis' with
    | nil => cases h
    | cons item' lis' =>
      rw [List.map_cons, List.map_cons, List.cons.injEq] at h
      rw [itemLinesFrom, itemLinesFrom, ih h.2 (i + 1)]
      rw [show itemLine dialect kind i item = itemLine dialect' kind i item' from congrFun h.1 i]

theorem list_congr {kind : ListKind} {s s' : Subject}
    (h : (items s.children).map (fun item i => itemLine s.dialect kind i item) =
      (items s'.children).map fun item i => itemLine s'.dialect kind i item) :
    list kind s = list kind s' := by
  have hlines := itemLinesFrom_congr h 0
  have hlength := congrArg List.length h
  rw [List.length_map, List.length_map] at hlength
  unfold list
  cases hitems : items s.children with
  | nil =>
    rw [hitems, List.length_nil, eq_comm, List.length_eq_zero_iff] at hlength
    rw [hlength]
  | cons item lis =>
    cases hitems' : items s'.children with
    | nil =>
      rw [hitems, hitems'] at hlength
      cases hlength
    | cons item' lis' =>
      rw [hitems, hitems'] at hlines
      exact congrArg (fun lines : Text => ("\n" : Text) ++ lines ++ ("\n" : Text)) hlines

/-! Rules that search: they are told by what their matches give. -/

theorem footnoteList_congr {children children' : List Node}
    (h : (Node.findTags "li" children).map footnoteLine =
      (Node.findTags "li" children').map footnoteLine) :
    footnoteList children = footnoteList children' := by
  have hlength := congrArg List.length h
  rw [List.length_map, List.length_map] at hlength
  unfold footnoteList
  cases hnotes : Node.findTags "li" children with
  | nil =>
    rw [hnotes, List.length_nil, eq_comm, List.length_eq_zero_iff] at hlength
    rw [hlength]
  | cons note notes =>
    cases hnotes' : Node.findTags "li" children' with
    | nil =>
      rw [hnotes, hnotes'] at hlength
      cases hlength
    | cons note' notes' =>
      rw [hnotes, hnotes'] at h
      simp only [List.flatMap_def, h]

def caption (n : Node) : Text := "\n*" ++ n.textContent.trim ++ "*"

theorem figure_eq (s : Subject) : figure s =
    ((Node.findTag? "img" s.children).map fun n => image n.attributes).getD [] ++
      ((Node.findTag? "figcaption" s.children).map caption).getD [] ++ "\n\n" := by
  unfold figure
  cases Node.findTag? "img" s.children <;> cases Node.findTag? "figcaption" s.children <;> rfl

/-- What the default rules see of two elements is the same, tables apart. -/
structure Subject.Agree (s s' : Subject) : Prop where
  text : s.text = s'.text
  inline : s.inline = s'.inline
  block : s.block = s'.block
  attribute? (name : Text) : s.attribute? name = s'.attribute? name
  lines (kind : ListKind) :
    (items s.children).map (fun item i => itemLine s.dialect kind i item) =
      (items s'.children).map fun item i => itemLine s'.dialect kind i item
  picture : (Node.findTag? "img" s.children).map (fun n => image n.attributes) =
    (Node.findTag? "img" s'.children).map fun n => image n.attributes
  legend : (Node.findTag? "figcaption" s.children).map caption =
    (Node.findTag? "figcaption" s'.children).map caption
  notes : (Node.findTags "li" s.children).map footnoteLine =
    (Node.findTags "li" s'.children).map footnoteLine

theorem preformatted_eq (s : Subject) :
    preformatted s = "\n\x60\x60\x60" ++ (s.attribute? "data-lang").getD [] ++ "\n" ++ s.text ++
      "\n\x60\x60\x60\n\n" := rfl

/-- A default rule gives the same for elements in which it sees the same. -/
theorem rule_congr {tag : Text} {rule : Rule} (hrule : IsDefault tag rule) {s s' : Subject}
    (h : s.Agree s') (htable : tag = "table" → table s = table s') : rule s = rule s' := by
  cases hrule with
  | heading level => simp only [heading, h.inline]
  | paragraph => simp only [paragraph, h.inline]
  | lineBreak | horizontalRule => rfl
  | blockquote => simp only [blockquote, h.block]
  | bulletedList => exact list_congr (h.lines .bulleted)
  | numberedList =>
    have hlist (kind : ListKind) : list kind s = list kind s' := list_congr (h.lines kind)
    simp only [numberedList, h.attribute?, hlist]
  | table => exact htable rfl
  | preformatted => rw [preformatted_eq, preformatted_eq, h.attribute?, h.text]
  | figure => rw [figure_eq, figure_eq, h.picture, h.legend]
  | standaloneImage =>
    have himage (s : Subject) : image s.attributes = "![" ++ (s.attribute? "alt").getD "image" ++
        "](" ++ (s.attribute? "src").getD [] ++ ")" := rfl
    simp only [standaloneImage, himage, h.attribute?]
  | sectionRule =>
    have hmark : isFootnoteSection s = isFootnoteSection s' :=
      congrArg (Option.any _) (h.attribute? "data-word-footnotes")
    simp only [sectionRule, hmark, footnoteList_congr h.notes, h.block]

end MarkdownExport.Markdown
