import MarkdownExport.Markdown.Footnotes
import MarkdownExport.Markdown.Table
import MarkdownExport.Proofs.Markdown.ScriptLink
import MarkdownExport.Proofs.Tree.Query

/-! Texts that are copied without an escape: the targets of links, the texts of cells, and the
identifiers and texts of footnotes. All else that the rules write for them makes no link to a
script. -/
namespace MarkdownExport.Markdown

def linkTargets (ns : List Node) : List Text :=
  (Node.findTags "a" ns).filterMap (Node.attribute? "href")

def cellTexts (children : List Node) : List Text :=
  (Node.findTags "tr" children).flatMap fun row =>
    (Node.findAll isCell row.children).map Node.textContent

/-- The identifiers of footnotes, and their texts behind their numbers. -/
def noteTexts (children : List Node) : List Text :=
  (Node.findTags "li" children).flatMap fun item =>
    [(item.attribute? "data-word-footnote-id").getD [], dropMarker item.textContent.trim]

/-- What is copied from a top-level node. -/
def copiedFrom (n : Node) : List Text :=
  if n.isTag "table" then cellTexts n.children
  else if n.isTag "section" then noteTexts n.children
  else linkTargets [n]

def copiedTexts (ns : List Node) : List Text := ns.flatMap copiedFrom

theorem linkTargets_append (ms ns : List Node) :
    linkTargets (ms ++ ns) = linkTargets ms ++ linkTargets ns := by
  rw [linkTargets, Node.findTags, Node.findAll_append, List.filterMap_append]
  rfl

theorem linkTargets_cons (n : Node) (ns : List Node) :
    linkTargets (n :: ns) = linkTargets [n] ++ linkTargets ns := linkTargets_append [n] ns

/-- The targets in an element that is no link. -/
theorem linkTargets_element {tag : Text} (htag : tag.equalsIgnoringCase "a" = false)
    (attributes : List Attribute) (ns : List Node) :
    linkTargets [.element tag attributes ns] = linkTargets ns := by
  rw [linkTargets, Node.findTags, Node.findAll_cons, Node.isTag, htag, Node.findBelow_eq]
  simp [linkTargets, Node.findTags, Node.children]

theorem linkTargets_link (target : Text) (ns : List Node) :
    linkTargets [.element "a" [⟨"href", target⟩] ns] = target :: linkTargets ns := by
  have htag : Text.equalsIgnoringCase "a" "a" = true := by decide
  have hname : Text.equalsIgnoringCase "href" "href" = true := by decide
  have hvalue : Node.attribute? "href" (.element "a" [⟨"href", target⟩] ns) = some target := by
    change Option.map Attribute.value (List.find? (fun a => a.name.equalsIgnoringCase "href")
      [⟨"href", target⟩]) = some target
    rw [List.find?_cons_of_pos (by exact hname)]
    rfl
  rw [linkTargets, Node.findTags, Node.findAll_cons, Node.isTag, if_pos htag, Node.findBelow_eq,
    Node.findAll_nil, List.append_nil, List.singleton_append, List.filterMap_cons_some hvalue]
  rfl

/-- A line that shows nothing has no text. -/
theorem escape_eq_nil {t : Text} (h : escape t = []) : t = [] := by
  rw [← unescape_escape t, h]
  rfl

mutual

theorem textContent_eq_nil {dialect : Dialect} :
    (n : Node) → inlineNode dialect [] n = [] → n.textContent = []
  | .text _, h => escape_eq_nil h
  | .element tag attributes children, h => by
    have hchildren : inlineWithout dialect [] children = [] → Node.textOf children = [] :=
      textOf_eq_nil children
    unfold inlineNode at h
    unfold Node.textContent
    cases hphrase : Phrase.ofTag tag.lower with
    | strong | emphasis | code | link | image | superscript =>
      rw [hphrase] at h
      cases h
    | strikethrough =>
      rw [hphrase] at h
      cases dialect with
      | gfm => cases h
      | standard => exact hchildren h
    | plain =>
      rw [hphrase] at h
      exact hchildren h
  | .comment _, _ | .doctype _, _ | .instruction _ _, _ => rfl

theorem textOf_eq_nil {dialect : Dialect} :
    (ns : List Node) → inlineWithout dialect [] ns = [] → Node.textOf ns = []
  | [], _ => rfl
  | n :: ns, h => by
    unfold inlineWithout at h
    obtain ⟨hn, hns⟩ := List.append_eq_nil_iff.mp h
    rw [Node.textOf, textContent_eq_nil n hn, textOf_eq_nil ns hns]
    rfl

end

/-! Tables. -/

theorem isInfix_intercalate (between : Text) {cell : Text} {cells : List Text}
    (h : cell ∈ cells) : cell <:+: List.intercalate between cells := by
  induction cells with
  | nil => cases h
  | cons c cells ih =>
    cases cells with
    | nil =>
      rw [List.mem_singleton.mp h, List.intercalate_singleton]
    | cons d cells =>
      rw [List.intercalate_cons_cons]
      rcases List.mem_cons.mp h with rfl | h
      · rw [List.append_assoc]
        exact (List.prefix_append _ _).isInfix
      · exact (ih h).trans (List.suffix_append _ _).isInfix

theorem le_foldl_max {n start : Nat} {ns : List Nat} (h : n ≤ start ∨ n ∈ ns) :
    n ≤ ns.foldl max start := by
  induction ns generalizing start with
  | nil => simpa using h
  | cons k ns ih =>
    rw [List.foldl_cons]
    refine ih ?_
    rw [List.mem_cons] at h
    rcases h with h | rfl | h
    · exact Or.inl (h.trans (Nat.le_max_left _ _))
    · exact Or.inl (Nat.le_max_right _ _)
    · exact Or.inr h

theorem length_le_columnWidth {rows : List Row} {row : Row} (h : row ∈ rows) (column : Nat) :
    (row[column]?.getD []).length ≤ columnWidth rows column := by
  refine le_foldl_max (Or.inr ?_)
  exact List.mem_map_of_mem h

/-- Padding to the widths of the columns cuts nothing off. -/
theorem exists_padRow {row : Row} {widths : List Nat}
    (hwidths : ∀ (i : Nat) (w : Nat), widths[i]? = some w → (row[i]?.getD []).length ≤ w)
    {cell : Text} (h : cell ∈ row) : ∃ padded ∈ padRow row widths, cell <:+: padded := by
  induction row generalizing widths with
  | nil => cases h
  | cons c cells ih =>
    cases widths with
    | nil => exact ⟨cell, h, List.infix_rfl⟩
    | cons w widths =>
      rw [padRow]
      rcases List.mem_cons.mp h with rfl | h
      · have hlength : cell.length ≤ w := hwidths 0 w rfl
        refine ⟨_, List.mem_cons_self, ?_⟩
        rw [padCell, List.take_of_length_le hlength]
        exact (List.prefix_append _ _).isInfix
      · obtain ⟨padded, hpadded, hcell⟩ := ih (fun i w hw => hwidths (i + 1) w hw) h
        exact ⟨padded, List.mem_cons_of_mem _ hpadded, hcell⟩

theorem length_le_of_columnWidths {rows : List Row} {row : Row} (hrow : row ∈ rows) (i w : Nat)
    (hw : (columnWidths rows)[i]? = some w) : (row[i]?.getD []).length ≤ w := by
  unfold columnWidths at hw
  rw [List.getElem?_map, Option.map_eq_some_iff] at hw
  obtain ⟨j, hj, rfl⟩ := hw
  obtain ⟨-, rfl⟩ := List.getElem?_eq_some_iff.mp hj
  rw [List.getElem_range]
  exact length_le_columnWidth hrow i

theorem isInfix_tableLine {rows : List Row} {row : Row} (hrow : row ∈ rows) {cell : Text}
    (h : cell ∈ row) : cell <:+: tableLine (padRow row (columnWidths rows)) := by
  obtain ⟨padded, hpadded, hcell⟩ := exists_padRow (length_le_of_columnWidths hrow) h
  have hline := hcell.trans (isInfix_intercalate " | " hpadded)
  unfold tableLine
  rw [List.append_assoc]
  exact (hline.trans (List.prefix_append _ _).isInfix).trans (List.suffix_append _ _).isInfix

/-- Every cell stands in the Markdown of its table. -/
theorem isInfix_tableText {rows : List Row} {row : Row} (hrow : row ∈ rows) {cell : Text}
    (h : cell ∈ row) : cell <:+: tableText rows := by
  have hline := isInfix_tableLine hrow h
  cases rows with
  | nil => cases hrow
  | cons header body =>
    have hcells : ¬ (header :: body).all List.isEmpty = true := by
      intro hempty
      have := List.all_eq_true.mp hempty row hrow
      rw [List.isEmpty_iff] at this
      rw [this] at h
      cases h
    rw [tableText, if_neg hcells]
    simp only [List.append_assoc]
    refine List.IsInfix.trans ?_ (List.suffix_append _ _).isInfix
    rcases List.mem_cons.mp hrow with rfl | hrow
    · exact hline.trans (List.prefix_append _ _).isInfix
    · have hbody : tableLine (padRow row (columnWidths (header :: body))) <:+:
          body.flatMap fun row => tableLine (padRow row (columnWidths (header :: body))) := by
        obtain ⟨before, after, rfl⟩ := List.append_of_mem hrow
        rw [List.flatMap_append, List.flatMap_cons]
        exact ⟨_, _, (List.append_assoc _ _ _)⟩
      refine List.IsInfix.trans ?_ (List.suffix_append _ _).isInfix
      refine List.IsInfix.trans ?_ (List.suffix_append _ _).isInfix
      exact (hline.trans hbody).trans (List.prefix_append _ _).isInfix

theorem not_hasScriptLink_intercalate {cells : List Text}
    (h : ∀ cell ∈ cells, ¬ HasScriptLink cell) :
    ¬ HasScriptLink (List.intercalate " | " cells) := by
  induction cells with
  | nil => exact HasScriptLink.not_nil
  | cons c cells ih =>
    rw [List.forall_mem_cons] at h
    cases cells with
    | nil => simpa using h.1
    | cons d cells =>
      rw [List.intercalate_cons_cons, List.append_assoc]
      have hrest := IsClosed.of_notMem (t := " | ") (by decide) _ (ih h.2)
      exact HasScriptLink.not_append h.1 (by decide) hrest

theorem tableLine_isClosed {cells : Row} (h : ∀ cell ∈ cells, ¬ HasScriptLink cell) :
    IsClosed (tableLine cells) := by
  unfold tableLine
  rw [List.append_assoc]
  refine (IsClosed.of_notMem (by decide)).append ?_
  exact IsClosed.append_of_continues (not_hasScriptLink_intercalate h) (by decide)
    (IsClosed.of_notMem (by decide))

theorem padCell_not_hasScriptLink {cell : Text} (h : ¬ HasScriptLink cell) (width : Nat) :
    ¬ HasScriptLink (padCell cell width) := by
  have htake : ¬ HasScriptLink (cell.take width) :=
    fun htake => h (htake.mono (List.take_prefix width cell).isInfix)
  unfold padCell
  cases hfill : width - cell.length with
  | zero => simpa using htake
  | succ n =>
    refine HasScriptLink.not_append htake (by decide) ?_
    refine HasScriptLink.not_of_notMem ?_
    intro hmem
    have := List.eq_of_mem_replicate (n := n + 1) hmem
    contradiction

theorem padRow_not_hasScriptLink {row : Row} (h : ∀ cell ∈ row, ¬ HasScriptLink cell)
    (widths : List Nat) : ∀ cell ∈ padRow row widths, ¬ HasScriptLink cell := by
  induction row generalizing widths with
  | nil => simp [padRow]
  | cons c cells ih =>
    cases widths with
    | nil => exact h
    | cons w widths =>
      rw [List.forall_mem_cons] at h
      rw [padRow, List.forall_mem_cons]
      exact ⟨padCell_not_hasScriptLink h.1 w, ih h.2 widths⟩

theorem tableText_isClosed {rows : List Row}
    (h : ∀ row ∈ rows, ∀ cell ∈ row, ¬ HasScriptLink cell) :
    IsClosed (tableText rows) := by
  cases rows with
  | nil => exact IsClosed.nil
  | cons header body =>
    rw [tableText]
    split
    · exact IsClosed.nil
    · have hline (row : Row) (hrow : row ∈ header :: body) :
          IsClosed (tableLine (padRow row (columnWidths (header :: body)))) :=
        tableLine_isClosed (padRow_not_hasScriptLink (h row hrow) _)
      have hdashes : ∀ cell ∈ (columnWidths (header :: body)).map (List.replicate · '-'),
          ¬ HasScriptLink cell := by
        intro cell hcell
        obtain ⟨width, -, rfl⟩ := List.mem_map.mp hcell
        apply HasScriptLink.not_of_notMem
        intro hmem
        have := List.eq_of_mem_replicate hmem
        contradiction
      have hbody := IsClosed.flatMap fun row hrow => hline row (List.mem_cons_of_mem header hrow)
      have hstart := (IsClosed.of_notMem (t := "\n") (by decide)).append
        (hline header List.mem_cons_self)
      exact ((hstart.append (tableLine_isClosed hdashes)).append hbody).append
        (IsClosed.of_notMem (t := "\n") (by decide))

/-- A script link survives the trimming of its cell and the joining of the cell's lines. -/
theorem hasScriptLink_cellText (cell : Node) :
    HasScriptLink (cellText cell) ↔ HasScriptLink cell.textContent :=
  HasScriptLink.joined_iff.trans HasScriptLink.trim_iff

theorem tableText_copies (children : List Node) :
    Copies (cellTexts children) (tableText (tableRows children)) where
  isClosed h := by
    apply tableText_isClosed
    intro row hrow cell hcell hlink
    obtain ⟨tr, htr, rfl⟩ := List.mem_map.mp hrow
    obtain ⟨td, htd, rfl⟩ := List.mem_map.mp hcell
    refine h td.textContent ?_ ((hasScriptLink_cellText td).mp hlink)
    exact List.mem_flatMap.mpr ⟨tr, htr, List.mem_map_of_mem htd⟩
  hasScriptLink t ht hlink := by
    obtain ⟨tr, htr, ht⟩ := List.mem_flatMap.mp ht
    obtain ⟨td, htd, rfl⟩ := List.mem_map.mp ht
    have hrow : rowCells tr ∈ tableRows children := List.mem_map_of_mem htr
    have hcell : cellText td ∈ rowCells tr := List.mem_map_of_mem htd
    exact ((hasScriptLink_cellText td).mpr hlink).mono (isInfix_tableText hrow hcell)

/-! Footnotes. -/

theorem footnoteLine_isClosed {item : Node}
    (hid : ¬ HasScriptLink ((item.attribute? "data-word-footnote-id").getD []))
    (htext : ¬ HasScriptLink (dropMarker item.textContent.trim)) :
    IsClosed (footnoteLine item) := by
  have hend := IsClosed.append_of_continues (c := '\n') (s := []) htext (by decide)
    (IsClosed.of_notMem (by decide))
  have hrest : IsClosed (']' :: ':' :: ' ' :: (dropMarker item.textContent.trim ++ "\n")) :=
    IsClosed.bracket (by decide) ((IsClosed.of_notMem (t := ": ") (by decide)).append hend)
  have hline := (IsClosed.of_notMem (t := "[^") (by decide)).append
    (IsClosed.append_of_continues hid (by decide) hrest)
  unfold footnoteLine
  simpa using hline

theorem footnoteList_isClosed {children : List Node}
    (h : ∀ t ∈ noteTexts children, ¬ HasScriptLink t) : IsClosed (footnoteList children) := by
  unfold noteTexts at h
  unfold footnoteList
  split
  · exact IsClosed.nil
  · rename_i notes hnotes
    have hlines : IsClosed ((Node.findTags "li" children).flatMap footnoteLine) := by
      refine IsClosed.flatMap fun item hitem => footnoteLine_isClosed (h _ ?_) (h _ ?_)
      · exact List.mem_flatMap.mpr ⟨item, hitem, by simp⟩
      · exact List.mem_flatMap.mpr ⟨item, hitem, by simp⟩
    exact ((IsClosed.of_notMem (by decide)).append hlines).append
      (IsClosed.of_notMem (t := "\n") (by decide))

theorem isInfix_footnoteList {children : List Node} {t : Text} (h : t ∈ noteTexts children) :
    t <:+: footnoteList children := by
  obtain ⟨item, hitem, ht⟩ := List.mem_flatMap.mp h
  have hline : t <:+: footnoteLine item := by
    unfold footnoteLine
    rcases List.mem_cons.mp ht with rfl | ht
    · exact ⟨"[^", "]: " ++ dropMarker item.textContent.trim ++ "\n", by simp⟩
    · obtain rfl := List.mem_singleton.mp ht
      exact ⟨_, _, rfl⟩
  obtain ⟨before, after, hnotes⟩ := List.append_of_mem hitem
  have hall : footnoteList children = "\n## References\n\n" ++
      (Node.findTags "li" children).flatMap footnoteLine ++ "\n" := by
    unfold footnoteList
    split
    · rename_i hnone
      rw [hnone] at hitem
      cases hitem
    · rfl
  rw [hall, hnotes, List.flatMap_append, List.flatMap_cons]
  refine hline.trans ⟨"\n## References\n\n" ++ before.flatMap footnoteLine,
    after.flatMap footnoteLine ++ "\n", ?_⟩
  simp only [List.append_assoc]

theorem footnoteList_copies (children : List Node) :
    Copies (noteTexts children) (footnoteList children) where
  isClosed := footnoteList_isClosed
  hasScriptLink _ ht hlink := hlink.mono (isInfix_footnoteList ht)

end MarkdownExport.Markdown
