import MarkdownExport.Proofs.Markdown.Copied
import MarkdownExport.Proofs.Markdown.Rules
import MarkdownExport.Proofs.Text.Visible

/-! The default rules show all visible text of a document, unless it stands where a rule does not
look: in an image, beside the items of a list, beside the cells of a table, in a figure, or in a
section of footnotes. -/
namespace MarkdownExport.Markdown
open Text

/-- Elements that are rendered without their content. -/
def isVoid (n : Node) : Bool := n.isTag "img" || n.isTag "br" || n.isTag "hr" || n.isCheckbox

def isList (n : Node) : Bool := n.isTag "ul" || n.isTag "ol"

section Loose

mutual

/-- The text of a node outside cells; a cell counts where there is a row around it. -/
def looseContent (inRow : Bool) : Node → Text
  | .text content => content
  | .element tag attributes children =>
    if inRow && isCell (.element tag attributes children) then []
    else looseText (inRow || Node.isTag "tr" (.element tag attributes children)) children
  | _ => []

def looseText (inRow : Bool) : List Node → Text
  | [] => []
  | n :: ns => looseContent inRow n ++ looseText inRow ns

end

end Loose

theorem looseText_of_isSilent {n : Node} (h : n.isSilent = true) (inRow : Bool) (ns : List Node) :
    looseText inRow (n :: ns) = looseText inRow ns := by
  cases n with
  | text | element => cases h
  | comment | doctype | instruction => rfl

/-- The node has no visible text where its rule does not look. -/
structure IsShown (n : Node) : Prop where
  void : isVoid n = true → visible n.textContent = []
  list : isList n = true → ∀ c ∈ n.children, c.isTag "li" = false → visible c.textContent = []
  table : n.isTag "table" = true → visible (looseText false n.children) = []
  figure : n.isTag "figure" = false
  footnotes : n.isTag "section" = true → (n.attribute? "data-word-footnotes").getD [] = []

instance : DecidablePred IsShown := fun n =>
  decidable_of_iff
    ((isVoid n = true → visible n.textContent = []) ∧
      (isList n = true → ∀ c ∈ n.children, c.isTag "li" = false → visible c.textContent = []) ∧
      (n.isTag "table" = true → visible (looseText false n.children) = []) ∧
      n.isTag "figure" = false ∧
      (n.isTag "section" = true → (n.attribute? "data-word-footnotes").getD [] = []))
    ⟨fun ⟨void, list, table, figure, footnotes⟩ => ⟨void, list, table, figure, footnotes⟩,
      fun ⟨void, list, table, figure, footnotes⟩ => ⟨void, list, table, figure, footnotes⟩⟩

/-! Lines. -/

theorem Phrase.ofTag_eq_image {tag : Text} (h : Phrase.ofTag tag = .image) : tag = "img" := by
  have hmem := Phrase.mem_tags h (by decide)
  simp only [Phrase.tags, List.mem_cons, Prod.mk.injEq, reduceCtorEq, and_false, and_true,
    false_or, or_false, List.not_mem_nil] at hmem
  exact hmem

variable {dialect : Dialect}

/-- What an element adds to its inner Markdown hides no text. -/
theorem Retains.render {phrase : Phrase} {attributes : List Attribute} {children : List Node}
    {inner : Text} (h : Retains (Node.textOf children) inner)
    (himage : phrase = .image → visible (Node.textOf children) = []) :
    Retains (Node.textOf children) (phrase.render dialect attributes children inner) := by
  cases phrase with
  | strong => exact h.enclose _ _
  | emphasis => exact h.enclose _ _
  | code => exact (Retains.of_sublist (List.Sublist.refl _)).enclose _ _
  | link =>
    unfold Phrase.render link
    have hlabel : Retains (Node.textOf children)
        (if inner.isEmpty then Node.textOf children else inner) := by
      split
      · exact .of_sublist (List.Sublist.refl _)
      · exact h
    have hline := hlabel.enclose ("[" : Text)
      ("](" ++ (Attribute.find? "href" attributes).getD [] ++ ")")
    simpa only [List.append_assoc] using hline
  | image => exact .of_visible_eq_nil (himage rfl) _
  | strikethrough =>
    cases dialect with
    | gfm => exact h.enclose _ _
    | standard => exact h
  | superscript =>
    unfold Phrase.render
    simpa only [List.append_nil] using h.enclose ("^" : Text) []
  | plain => exact h

theorem IsShown.image {tag : Text} {attributes : List Attribute} {children : List Node}
    (h : IsShown (.element tag attributes children)) (hphrase : Phrase.ofTag tag.lower = .image) :
    visible (Node.textOf children) = [] := by
  apply h.void
  unfold isVoid
  rw [Node.isTag_of_lower (Phrase.ofTag_eq_image hphrase) rfl]
  rfl

theorem retains_inlineAll {ns : List Node} (h : ∀ n ∈ Node.preorder ns, IsShown n) :
    Retains (Node.textOf ns) (inlineAll dialect ns) := by
  induction ns using Node.forest_induction with
  | nil => exact .nil _
  | text content ns ih =>
    rw [Node.forall_preorder_cons] at h
    rw [Node.textOf_cons, inlineAll_cons]
    exact (Retains.of_sublist (sublist_escape content)).append (ih h.2.2)
  | element tag attributes children ns ihc ih =>
    rw [Node.forall_preorder_cons] at h
    rw [Node.textOf_cons, inlineAll_cons, inlineNode_element]
    exact ((ihc h.2.1).render h.1.image).append (ih h.2.2)
  | silent n ns hn ih =>
    rw [Node.forall_preorder_cons] at h
    rw [Node.textOf_cons, inlineAll_cons, Node.textContent_of_isSilent hn]
    exact (Retains.nil _).append (ih h.2.2)

/-- Nothing visible is lost with a checkbox. -/
theorem retains_inlineAround? {ns : List Node} (h : ∀ n ∈ Node.preorder ns, IsShown n) {t : Text}
    (ht : inlineAround? dialect Node.isCheckbox ns = some t) : Retains (Node.textOf ns) t := by
  induction ns using Node.forest_induction generalizing t with
  | nil => cases ht
  | text content ns ih =>
    rw [Node.forall_preorder_cons] at h
    obtain ⟨u, hu, rfl⟩ := Option.map_eq_some_iff.mp ht
    exact (Retains.of_sublist (sublist_escape content)).append (ih h.2.2 hu)
  | element tag attributes children ns ihc ih =>
    rw [Node.forall_preorder_cons] at h
    rw [Node.textOf_cons]
    unfold inlineAround? at ht
    split at ht
    next hbox =>
      cases ht
      have hvoid : isVoid (.element tag attributes children) = true := by
        rw [isVoid, hbox, Bool.or_true]
      exact (Retains.of_visible_eq_nil (h.1.void hvoid) []).append (retains_inlineAll h.2.2)
    next =>
      split at ht
      next u hinside =>
        cases ht
        obtain ⟨inner, hinner, rfl⟩ := Option.map_eq_some_iff.mp hinside
        exact ((ihc h.2.1 hinner).render h.1.image).append (retains_inlineAll h.2.2)
      next =>
        obtain ⟨u, hu, rfl⟩ := Option.map_eq_some_iff.mp ht
        have hinline : Retains (Node.textOf children) (inlineAll dialect children) :=
          retains_inlineAll h.2.1
        exact (hinline.render h.1.image).append (ih h.2.2 hu)
  | silent n ns hn ih =>
    rw [Node.forall_preorder_cons] at h
    rw [inlineAround?_of_isSilent hn (Node.isCheckbox_of_isSilent hn)] at ht
    rw [Node.textOf_cons, Node.textContent_of_isSilent hn]
    exact ih h.2.2 ht

/-! Tables. -/

theorem isCell_of_isSilent {n : Node} (h : n.isSilent = true) : isCell n = false := by
  rw [isCell, Node.isTag_of_isSilent h, Node.isTag_of_isSilent h, Bool.or_false]

/-- Elements are found with all visible text if none of it stands loose, and if what stands loose in
an element that is not wanted is what stands loose in its children. -/
theorem retains_findAll {p : Node → Bool} {inRow : Bool} {shown : Node → Text}
    (hsilent : ∀ n, n.isSilent = true → p n = false) (htext : ∀ content, p (.text content) = false)
    (hfound : ∀ tag attributes children, p (.element tag attributes children) = true →
      visible (looseContent inRow (.element tag attributes children)) = [] →
      Retains (Node.textOf children) (shown (.element tag attributes children)))
    (hother : ∀ tag attributes children, p (.element tag attributes children) = false →
      looseContent inRow (.element tag attributes children) = looseText inRow children)
    {ns : List Node} (h : visible (looseText inRow ns) = []) :
    Retains (Node.textOf ns) ((Node.findAll p ns).flatMap shown) := by
  induction ns using Node.forest_induction with
  | nil => exact .nil _
  | text content ns ih =>
    obtain ⟨hcontent, hns⟩ := List.append_eq_nil_iff.mp ((visible_append _ _).symm.trans h)
    rw [Node.findAll_text (htext content)]
    exact (Retains.of_visible_eq_nil hcontent []).append (ih hns)
  | element tag attributes children ns ihc ih =>
    obtain ⟨hcontent, hns⟩ := List.append_eq_nil_iff.mp ((visible_append _ _).symm.trans h)
    rw [Node.textOf_cons, Node.findAll_cons, List.flatMap_append, List.flatMap_append]
    refine Retains.append ?_ (ih hns)
    cases hp : p (.element tag attributes children) with
    | true =>
      rw [if_pos rfl, List.flatMap_singleton]
      exact (hfound tag attributes children hp hcontent).trans
        (.of_sublist (List.sublist_append_left _ _))
    | false =>
      rw [if_neg Bool.false_ne_true]
      rw [hother tag attributes children hp] at hcontent
      exact ihc hcontent
  | silent n ns hn ih =>
    rw [looseText_of_isSilent hn] at h
    rw [Node.textOf_cons, Node.textContent_of_isSilent hn,
      Node.findAll_of_isSilent hn (hsilent n hn)]
    exact ih h

theorem retains_cells {ns : List Node} (h : visible (looseText true ns) = []) :
    Retains (Node.textOf ns) ((Node.findAll isCell ns).flatMap Node.textContent) := by
  refine retains_findAll (fun _ => isCell_of_isSilent) (fun _ => rfl)
    (fun _ _ _ _ _ => .of_sublist (List.Sublist.refl _)) (fun tag attributes children hcell => ?_) h
  rw [looseContent, hcell]
  rfl

/-- Of the rows that stand in one another the outermost has all their cells. -/
theorem retains_rows {ns : List Node} (h : visible (looseText false ns) = []) :
    Retains (Node.textOf ns) ((Node.findTags "tr" ns).flatMap fun row =>
      (Node.findAll isCell row.children).flatMap Node.textContent) := by
  refine retains_findAll (fun n hn => Node.isTag_of_isSilent hn _) (fun _ => rfl)
    (fun tag attributes children hrow hcontent => ?_) (fun tag attributes children hrow => ?_) h
  · rw [looseContent, hrow] at hcontent
    exact retains_cells hcontent
  · rw [looseContent, hrow]
    rfl

theorem retains_cellText (cell : Node) : Retains cell.textContent (cellText cell) := by
  rw [Retains, cellText, visible_joined, visible_trim]

/-- Padding to the widths of the columns cuts nothing off. -/
theorem flatten_sublist_padRow {row : Row} {widths : List Nat}
    (hwidths : ∀ (i w : Nat), widths[i]? = some w → (row[i]?.getD []).length ≤ w) :
    row.flatten.Sublist (padRow row widths).flatten := by
  induction row generalizing widths with
  | nil => exact List.Sublist.refl _
  | cons cell cells ih =>
    cases widths with
    | nil => exact List.Sublist.refl _
    | cons width widths =>
      have hlength : cell.length ≤ width := hwidths 0 width rfl
      rw [padRow, List.flatten_cons, List.flatten_cons, padCell,
        List.take_of_length_le hlength]
      exact (List.sublist_append_left _ _).append (ih fun i w hw => hwidths (i + 1) w hw)

theorem flatten_sublist_intercalate (between : Text) (cells : List Text) :
    cells.flatten.Sublist (List.intercalate between cells) := by
  induction cells with
  | nil => exact List.Sublist.refl _
  | cons cell cells ih =>
    cases cells with
    | nil => simp
    | cons cell' cells =>
      rw [List.intercalate_cons_cons, List.flatten_cons]
      exact (List.sublist_append_left _ _).append ih

theorem flatten_sublist_tableLine {rows : List Row} {row : Row} (hrow : row ∈ rows) :
    row.flatten.Sublist (tableLine (padRow row (columnWidths rows))) := by
  have hpadded := flatten_sublist_padRow (length_le_of_columnWidths hrow)
  have hjoined := hpadded.trans (flatten_sublist_intercalate " | " _)
  unfold tableLine
  exact hjoined.trans ((List.sublist_append_right _ _).trans (List.sublist_append_left _ _))

theorem flatten_sublist_tableText (rows : List Row) :
    (rows.flatMap List.flatten).Sublist (tableText rows) := by
  cases rows with
  | nil => exact List.Sublist.refl _
  | cons header body =>
    by_cases hempty : (header :: body).all List.isEmpty = true
    · have hnone : (header :: body).flatMap List.flatten = [] := by
        rw [List.flatMap_eq_nil_iff]
        intro row hrow
        rw [List.isEmpty_iff.mp (List.all_eq_true.mp hempty row hrow)]
        rfl
      rw [tableText, if_pos hempty, hnone]
    · have hmem : header ∈ header :: body := List.mem_cons_self
      have hheader := flatten_sublist_tableLine hmem
      have hbody : (body.flatMap List.flatten).Sublist
          (body.flatMap fun row => tableLine (padRow row (columnWidths (header :: body)))) :=
        List.Sublist.flatMap_right body fun row hrow =>
          flatten_sublist_tableLine (List.mem_cons_of_mem header hrow)
      rw [tableText, if_neg hempty, List.flatMap_cons]
      refine List.Sublist.trans (List.Sublist.append ?_ hbody) (List.sublist_append_left _ _)
      exact (hheader.trans (List.sublist_append_right _ _)).trans (List.sublist_append_left _ _)

theorem retains_tableText {children : List Node} (h : visible (looseText false children) = []) :
    Retains (Node.textOf children) (tableText (tableRows children)) := by
  refine (retains_rows h).trans (Retains.trans ?_ (.of_sublist (flatten_sublist_tableText _)))
  unfold tableRows
  rw [List.flatMap_map]
  refine Retains.flatMap fun row _ => ?_
  rw [rowCells, ← List.flatMap_def]
  exact Retains.flatMap fun cell _ => retains_cellText cell

/-! Lists. -/

theorem retains_plainLine {item : Node} (h : ∀ n ∈ Node.preorder item.children, IsShown n)
    (kind : ListKind) (i : Nat) :
    Retains (Node.textOf item.children) (plainLine dialect kind i item) :=
  (retains_inlineAll h).trim.enclose _ _

theorem retains_itemLine {item : Node} (h : ∀ n ∈ Node.preorder item.children, IsShown n)
    (kind : ListKind) (i : Nat) :
    Retains (Node.textOf item.children) (itemLine dialect kind i item) := by
  cases dialect with
  | standard => exact retains_plainLine h kind i
  | gfm =>
    rw [itemLine_gfm]
    split
    next isChecked text _ haround => exact (retains_inlineAround? h haround).trim.enclose _ _
    next => exact retains_plainLine h kind i

theorem retains_itemLines {lis : List Node}
    (h : ∀ item ∈ lis, ∀ n ∈ Node.preorder item.children, IsShown n) (kind : ListKind) (i : Nat) :
    Retains (lis.flatMap fun item => Node.textOf item.children)
      (itemLinesFrom dialect kind i lis) := by
  induction lis generalizing i with
  | nil => exact .nil _
  | cons item lis ih =>
    rw [List.forall_mem_cons] at h
    exact (retains_itemLine h.1 kind i).append (ih h.2 (i + 1))

/-- Beside the items of a list there is nothing visible. -/
theorem retains_items {children : List Node}
    (h : ∀ c ∈ children, c.isTag "li" = false → visible c.textContent = []) :
    Retains (Node.textOf children)
      ((items children).flatMap fun item => Node.textOf item.children) := by
  unfold items
  induction children with
  | nil => exact .nil _
  | cons c cs ih =>
    rw [List.forall_mem_cons] at h
    rw [Node.textOf_cons]
    by_cases hitem : c.isTag "li" = true
    · rw [List.filter_cons_of_pos hitem, List.flatMap_cons, Node.textContent_of_isTag hitem]
      exact (Retains.of_sublist (List.Sublist.refl _)).append (ih h.2)
    · rw [List.filter_cons_of_neg hitem]
      rw [Bool.not_eq_true] at hitem
      exact (Retains.of_visible_eq_nil (h.1 hitem) []).append (ih h.2)

theorem retains_list {s : Subject}
    (hlist : ∀ c ∈ s.children, c.isTag "li" = false → visible c.textContent = [])
    (h : ∀ n ∈ Node.preorder s.children, IsShown n) (kind : ListKind) :
    Retains s.text (list kind s) := by
  have hlis : ∀ item ∈ items s.children, ∀ n ∈ Node.preorder item.children, IsShown n := by
    intro item hitem n hn
    exact h n (Node.mem_preorder_of_mem (List.mem_filter.mp hitem).1 hn)
  have hlines : Retains s.text (itemLinesFrom s.dialect kind 0 (items s.children)) :=
    (retains_items hlist).trans (retains_itemLines hlis kind 0)
  unfold list
  cases hitems : items s.children with
  | nil =>
    rw [hitems] at hlines
    exact hlines.trans (.nil _)
  | cons item lis =>
    rw [hitems] at hlines
    exact hlines.enclose _ _

/-! Blocks. -/

theorem retains_blockquote {s : Subject} (h : Retains s.text s.block) :
    Retains s.text (blockquote s) := by
  have htrim := h.trim
  unfold blockquote
  split
  next hnone =>
    rw [hnone] at htrim
    exact htrim
  next => exact (htrim.trans (.quoteLines _)).enclose _ _

theorem retains_sectionRule {s : Subject}
    (hnotes : (s.attribute? "data-word-footnotes").getD [] = [])
    (h : Retains s.text s.block) : Retains s.text (sectionRule s) := by
  have hplain : isFootnoteSection s = false := by
    unfold isFootnoteSection
    cases hmark : s.attribute? "data-word-footnotes" with
    | none => rfl
    | some mark =>
      rw [hmark] at hnotes
      rw [show mark = [] from hnotes]
      rfl
  rw [sectionRule, hplain, if_neg Bool.false_ne_true]
  exact h

theorem retains_table {s : Subject} (h : visible (looseText false s.children) = []) :
    Retains s.text (table s) := by
  unfold table
  cases s.dialect with
  | gfm => exact retains_tableText h
  | standard => exact (Retains.of_sublist (List.Sublist.refl _)).enclose _ _

theorem retains_preformatted (s : Subject) : Retains s.text (preformatted s) :=
  (Retains.of_sublist (List.sublist_append_right _ _)).trans
    (.of_sublist ((List.sublist_append_left _ _)))

/-- No rule hides the text of an element that is shown. -/
theorem IsDefault.retains {tag : Text} {rule : Rule} (hrule : IsDefault tag.lower rule)
    {attributes : List Attribute} {children : List Node}
    (hn : IsShown (.element tag attributes children)) (h : ∀ n ∈ Node.preorder children, IsShown n)
    (hblock : Retains (Node.textOf children) (blockAll dialect defaultRules children)) :
    Retains (Node.textOf children) (rule (subject dialect tag attributes children)) := by
  let s := subject dialect tag attributes children
  have hinline : Retains s.text s.inline := retains_inlineAll h
  have htag (name : Text) (hlower : tag.lower = name) (hname : name.lower = name) :
      Node.isTag name (.element tag attributes children) = true :=
    Node.isTag_of_lower hlower hname attributes children
  have hvoid (hn' : isVoid (.element tag attributes children) = true) : Retains s.text (rule s) :=
    .of_visible_eq_nil (hn.void hn') _
  generalize hkey : tag.lower = key at hrule
  cases hrule with
  | heading level =>
    have hline := hinline.enclose ("\n" ++ List.replicate level '#' ++ " ") "\n\n"
    exact hline
  | paragraph => exact hinline.enclose [] "\n\n"
  | lineBreak => exact hvoid (by rw [isVoid, htag "br" hkey rfl, Bool.or_true]; rfl)
  | horizontalRule => exact hvoid (by rw [isVoid, htag "hr" hkey rfl, Bool.or_true]; rfl)
  | blockquote => exact retains_blockquote (s := s) hblock
  | bulletedList =>
    have hlist : isList (.element tag attributes children) = true := by
      rw [isList, htag "ul" hkey rfl, Bool.true_or]
    exact retains_list (s := s) (hn.list hlist) h _
  | numberedList =>
    have hlist : isList (.element tag attributes children) = true := by
      rw [isList, htag "ol" hkey rfl, Bool.or_true]
    exact retains_list (s := s) (hn.list hlist) h _
  | table => exact retains_table (s := s) (hn.table (htag "table" hkey rfl))
  | preformatted => exact retains_preformatted s
  | figure =>
    have hfigure := hn.figure
    rw [htag "figure" hkey rfl] at hfigure
    cases hfigure
  | standaloneImage => exact hvoid (by rw [isVoid, htag "img" hkey rfl]; rfl)
  | sectionRule =>
    exact retains_sectionRule (s := s) (hn.footnotes (htag "section" hkey rfl)) hblock

theorem retains_blockAll {ns : List Node} (h : ∀ n ∈ Node.preorder ns, IsShown n) :
    Retains (Node.textOf ns) (blockAll dialect defaultRules ns) := by
  induction ns using Node.forest_induction with
  | nil => exact .nil _
  | text content ns ih =>
    rw [Node.forall_preorder_cons] at h
    rw [Node.textOf_cons, blockAll_cons]
    exact (Retains.of_sublist (sublist_escape content)).append (ih h.2.2)
  | element tag attributes children ns ihc ih =>
    rw [Node.forall_preorder_cons] at h
    rw [Node.textOf_cons, blockAll_cons]
    refine Retains.append ?_ (ih h.2.2)
    rcases blockNode_element dialect tag attributes children with ⟨rule, hrule, hblock⟩ | hblock
    · rw [hblock]
      exact hrule.retains h.1 h.2.1 (ihc h.2.1)
    · rw [hblock]
      exact ihc h.2.1
  | silent n ns hn ih =>
    rw [Node.forall_preorder_cons] at h
    rw [Node.textOf_cons, blockAll_cons, Node.textContent_of_isSilent hn]
    exact (Retains.nil _).append (ih h.2.2)

/-- What is visible of a document stands in its Markdown, in the same order. -/
theorem visible_sublist_markdown (dialect : Dialect) {document : List Node}
    (h : ∀ n ∈ Node.preorder document, IsShown n) :
    (visible (Node.textOf document)).Sublist (markdown dialect [] document) := by
  have hblocks : Retains (Node.textOf document) (blockAll dialect defaultRules document) :=
    retains_blockAll h
  exact List.Sublist.trans hblocks.normalize (visible_sublist _)

/-- A list in a quotation, with a quotation in an item, and a table in a cell. -/
def nestedDocument : List Node :=
  [.element "blockquote" [] [.element "ul" []
     [.text "\n", .element "li" []
        [.element "INPUT" [⟨"Type", "checkbox"⟩] [], .text " a*", .element "ol" []
          [.element "li" [] [.text "b"]]],
      .element "li" [] [.element "blockquote" [] [.element "p" [] [.text "c\nd"]]]]],
   .element "table" [] [.element "tbody" []
     [.element "tr" []
       [.element "td" [] [.text "e", .element "table" [] [.element "tr" []
          [.element "th" [] [.text "f"]]]],
        .element "td" [] [.text "g"]],
      .comment "row", .element "tr" [] [.element "td" [] [.text " h\ni "]]]],
   .element "p" [] [.element "a" [⟨"href", "#"⟩] [.element "del" [] [.text "j k"]]]]

/-- Nothing of it is lost, though its checkbox is left out and its inner row comes twice. -/
theorem visible_sublist_nestedDocument :
    (∀ n ∈ Node.preorder nestedDocument, IsShown n) ∧
      visible (Node.textOf nestedDocument) = "a*bcdefghijk" ∧
      List.Sublist ("a*bcdefghijk" : Text) (markdown .gfm [] nestedDocument) := by
  have hshown : ∀ n ∈ Node.preorder nestedDocument, IsShown n := by decide +kernel
  have hvisible : visible (Node.textOf nestedDocument) = "a*bcdefghijk" := by decide +kernel
  have hsublist := visible_sublist_markdown .gfm hshown
  rw [hvisible] at hsublist
  exact ⟨hshown, hvisible, hsublist⟩

end MarkdownExport.Markdown
