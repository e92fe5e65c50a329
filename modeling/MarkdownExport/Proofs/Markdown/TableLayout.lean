import Mathlib.Algebra.GroupWithZero.Nat
import Mathlib.Order.Bounds.Basic
import MarkdownExport.Proofs.Markdown.TableReading
import MarkdownExport.Proofs.Tree.Forest

/-! The layout of a table. Its columns are those of the first row, each as wide as its widest cell
in any row. So no cell is cut, and all lines with a cell for each column are of the same length. -/
namespace MarkdownExport.Markdown

/-- The rows of a table in document order, each the texts of its cells. -/
def rowsBelow (children : List Node) : List Row :=
  ((Node.preorder children).filter (Node.isTag "tr")).map fun row =>
    ((Node.preorder row.children).filter isCell).map cellText

/-- The widths that a column has to reach: three, and the length of each of its cells. -/
def columnLengths (rows : List Row) (column : Nat) : Set Nat :=
  {k | k = 3 ∨ ∃ row ∈ rows, ∃ cell, row[column]? = some cell ∧ k = cell.length}

/-- The cells of a row in a table: each one in a column is filled up with spaces to the width of the
column, and those beyond the last column are as they are. -/
structure LaidOut (widths : List Nat) (row cells : Row) : Prop where
  length_eq : cells.length = row.length
  filled : ∀ (column w : Nat) cell, widths[column]? = some w → row[column]? = some cell →
    ∃ k, cells[column]? = some (cell ++ List.replicate k ' ') ∧ cell.length + k = w
  beyond : ∀ (column : Nat) cell, widths.length ≤ column → row[column]? = some cell →
    cells[column]? = some cell

/-- A way to lay out a table with these rows. -/
structure TableLayout (first : Row) (rest : List Row) where
  widths : List Nat
  header : Row
  body : List Row
  columns : widths.length = first.length
  widest : ∀ column w, widths[column]? = some w →
    IsGreatest (columnLengths (first :: rest) column) w
  header_laidOut : LaidOut widths first header
  body_laidOut : List.Forall₂ (LaidOut widths) rest body

def TableLayout.lines {first : Row} {rest : List Row} (l : TableLayout first rest) : List Text :=
  rowLine l.header :: rowLine (dashes l.widths) :: l.body.map rowLine

theorem tableRows_eq_rowsBelow (children : List Node) :
    tableRows children = rowsBelow children := by
  have hcells : rowCells = fun row =>
      ((Node.preorder row.children).filter isCell).map cellText := by
    funext row
    rw [rowCells, Node.findAll_eq_filter]
  rw [tableRows, Node.findTags, Node.findAll_eq_filter, hcells]
  rfl

/-! Widths. -/

theorem foldl_max_eq_or_mem (start : Nat) (ns : List Nat) :
    ns.foldl max start = start ∨ ns.foldl max start ∈ ns := by
  induction ns generalizing start with
  | nil => exact Or.inl rfl
  | cons n ns ih =>
    rw [List.foldl_cons, List.mem_cons]
    rcases ih (max start n) with h | h
    · rw [h]
      rcases Nat.le_total n start with hle | hle
      · exact Or.inl (Nat.max_eq_left hle)
      · exact Or.inr (Or.inl (Nat.max_eq_right hle))
    · exact Or.inr (Or.inr h)

theorem isGreatest_columnWidth (rows : List Row) (column : Nat) :
    IsGreatest (columnLengths rows column) (columnWidth rows column) := by
  have hmin : 3 ≤ columnWidth rows column := le_foldl_max (Or.inl (Nat.le_refl _))
  constructor
  · rcases foldl_max_eq_or_mem minimalWidth (rows.map fun row => (row[column]?.getD []).length)
      with h | h
    · exact Or.inl h
    · obtain ⟨row, hrow, hlength⟩ := List.mem_map.mp h
      cases hcell : row[column]? with
      | none =>
        rw [hcell] at hlength
        have hzero : columnWidth rows column = 0 := hlength.symm
        omega
      | some cell =>
        rw [hcell] at hlength
        exact Or.inr ⟨row, hrow, cell, hcell, hlength.symm⟩
  · rintro k (rfl | ⟨row, hrow, cell, hcell, rfl⟩)
    · exact hmin
    · have hlength := length_le_columnWidth hrow column
      rwa [hcell] at hlength

theorem getElem?_columnWidths {rows : List Row} {column w : Nat}
    (h : (columnWidths rows)[column]? = some w) : w = columnWidth rows column := by
  rw [columnWidths, List.getElem?_map, Option.map_eq_some_iff] at h
  obtain ⟨i, hi, rfl⟩ := h
  obtain ⟨-, rfl⟩ := List.getElem?_eq_some_iff.mp hi
  rw [List.getElem_range]

/-! Rows. -/

theorem laidOut_padRow {row : Row} {widths : List Nat}
    (hwidths : ∀ (i : Nat) (w : Nat), widths[i]? = some w → (row[i]?.getD []).length ≤ w) :
    LaidOut widths row (padRow row widths) := by
  induction row generalizing widths with
  | nil => exact ⟨rfl, fun column w cell _ h => by simp at h, fun column cell _ h => by simp at h⟩
  | cons cell cells ih =>
    cases widths with
    | nil => exact ⟨rfl, fun column w cell h => by simp at h, fun column cell _ h => h⟩
    | cons w widths =>
      have hrest := ih fun i w hw => hwidths (i + 1) w hw
      refine ⟨congrArg Nat.succ hrest.length_eq, ?_, ?_⟩
      · rintro (_ | column) v c hv hc
        · cases hv
          cases hc
          have hlength : cell.length ≤ w := hwidths 0 w rfl
          refine ⟨w - cell.length, ?_, Nat.add_sub_cancel' hlength⟩
          rw [padRow, padCell, List.take_of_length_le hlength]
          rfl
        · exact hrest.filled column v c hv hc
      · rintro (_ | column) c hcolumn hc
        · cases hcolumn
        · exact hrest.beyond column c (Nat.le_of_succ_le_succ hcolumn) hc

/-- With a cell in each column, the cells have the widths of the columns. -/
theorem LaidOut.map_length {widths : List Nat} {row cells : Row} (h : LaidOut widths row cells)
    (hcells : cells.length = widths.length) : cells.map List.length = widths := by
  refine List.ext_getElem? fun column => ?_
  by_cases hcolumn : column < widths.length
  · have hrow : column < row.length := by rw [← h.length_eq, hcells]; exact hcolumn
    obtain ⟨k, hcell, hk⟩ := h.filled column _ _ (List.getElem?_eq_getElem hcolumn)
      (List.getElem?_eq_getElem hrow)
    rw [List.getElem?_map, hcell, List.getElem?_eq_getElem hcolumn, ← hk]
    simp
  · rw [List.getElem?_eq_none (Nat.le_of_not_lt hcolumn), List.getElem?_eq_none]
    rw [List.length_map, hcells]
    exact Nat.le_of_not_lt hcolumn

theorem map_length_dashes (widths : List Nat) : (dashes widths).map List.length = widths := by
  simp [dashes, Function.comp_def]

theorem length_rowLine {cells : Row} (h : cells ≠ []) :
    (rowLine cells).length = (cells.map List.length).sum + 3 * cells.length + 1 := by
  have hbetween : (List.intercalate (" | " : Text) cells).length + 3 =
      (cells.map List.length).sum + 3 * cells.length := by
    induction cells with
    | nil => contradiction
    | cons cell cells ih =>
      cases cells with
      | nil => simp
      | cons cell' cells =>
        have hrest := ih (List.cons_ne_nil cell' cells)
        rw [List.intercalate_cons_cons, List.length_append, List.length_append]
        simp only [List.map_cons, List.sum_cons, List.length_cons] at hrest ⊢
        have hthree : (" | " : Text).length = 3 := rfl
        omega
  have hends : (rowLine cells).length = (List.intercalate (" | " : Text) cells).length + 4 := by
    simp [rowLine]
  omega

namespace TableLayout
variable {first : Row} {rest : List Row}

theorem exists_laidOut (l : TableLayout first rest) {cells : Row}
    (h : cells ∈ l.header :: l.body) : ∃ row, LaidOut l.widths row cells := by
  rcases List.mem_cons.mp h with rfl | h
  · exact ⟨first, l.header_laidOut⟩
  · obtain ⟨i, hi, rfl⟩ := List.getElem_of_mem h
    have hrest : i < rest.length := l.body_laidOut.length_eq.symm ▸ hi
    exact ⟨rest[i], l.body_laidOut.get hrest hi⟩

/-- The lines with a cell in each column are as long as the line of dashes. -/
theorem length_line (l : TableLayout first rest) (hfirst : first ≠ []) :
    (rowLine (dashes l.widths)).length = l.widths.sum + 3 * first.length + 1 ∧
      ∀ cells ∈ l.header :: l.body, cells.length = first.length →
        (rowLine cells).length = l.widths.sum + 3 * first.length + 1 := by
  have hpos : 0 < first.length := List.length_pos_iff.mpr hfirst
  have hline {cells : Row} (hcells : cells.map List.length = l.widths) :
      (rowLine cells).length = l.widths.sum + 3 * first.length + 1 := by
    have hlength : cells.length = first.length := by
      rw [← l.columns, ← hcells, List.length_map]
    have hne : cells ≠ [] := by
      rw [← List.length_pos_iff, hlength]
      exact hpos
    rw [length_rowLine hne, hcells, hlength]
  refine ⟨hline (map_length_dashes _), fun cells hmem hlength => ?_⟩
  obtain ⟨row, hrow⟩ := l.exists_laidOut hmem
  exact hline (hrow.map_length (hlength.trans l.columns.symm))

end TableLayout

/-- Padding every row to the widths of the columns. -/
def padded (first : Row) (rest : List Row) : TableLayout first rest where
  widths := columnWidths (first :: rest)
  header := padRow first (columnWidths (first :: rest))
  body := rest.map fun row => padRow row (columnWidths (first :: rest))
  columns := length_columnWidths first rest
  widest column w hw := by
    rw [getElem?_columnWidths hw]
    exact isGreatest_columnWidth (first :: rest) column
  header_laidOut := laidOut_padRow (length_le_of_columnWidths List.mem_cons_self)
  body_laidOut := by
    rw [List.forall₂_map_right_iff, List.forall₂_same]
    intro row hrow
    exact laidOut_padRow (length_le_of_columnWidths (List.mem_cons_of_mem first hrow))

theorem lines_padded (first : Row) (rest : List Row) :
    (padded first rest).lines = tableLines first rest := by
  rw [TableLayout.lines, tableLines, padded, List.map_map]
  rfl

/-- A table with a cell is written in a line for its first row, a line of dashes as wide as its
columns, and a line for each further row, between newlines that leave these lines alone. Each column
is as wide as its widest cell, and at least three; every cell is there in full; and the lines with a
cell in each column are as long as the line of dashes. -/
theorem blockNode_tableLayout {tag : Text} {attributes : List Attribute} {children : List Node}
    (htag : tag.lower = "table") (hcell : ∃ row ∈ rowsBelow children, row ≠ []) :
    ∃ first rest, rowsBelow children = first :: rest ∧ ∃ l : TableLayout first rest,
      blockNode .gfm defaultRules (.element tag attributes children) =
        '\n' :: (l.lines.map (· ++ ['\n'])).flatten ++ ['\n'] ∧
      l.lines.length = rest.length + 2 ∧
      (∀ line ∈ l.lines, '\n' ∉ line) ∧
      (first ≠ [] →
        (rowLine (dashes l.widths)).length = l.widths.sum + 3 * first.length + 1 ∧
          ∀ cells ∈ l.header :: l.body, cells.length = first.length →
            (rowLine cells).length = l.widths.sum + 3 * first.length + 1) := by
  have hblock : blockNode .gfm defaultRules (.element tag attributes children) =
      tableText (rowsBelow children) := by
    rw [blockNode, htag, ← tableRows_eq_rowsBelow]
    rfl
  have hnewline : ∀ row ∈ rowsBelow children, ∀ cell ∈ row, '\n' ∉ cell := by
    intro row hrow cell hcell
    rw [← tableRows_eq_rowsBelow] at hrow
    obtain ⟨n, rfl⟩ := exists_cellText hrow hcell
    exact newline_notMem_cellText n
  obtain ⟨row, hrow, hne⟩ := hcell
  obtain ⟨first, rest, hrows⟩ := List.exists_cons_of_ne_nil (List.ne_nil_of_mem hrow)
  rw [hrows] at hrow hnewline
  have hsome : ¬ (first :: rest).all List.isEmpty = true := by
    intro hall
    exact hne (List.isEmpty_iff.mp (List.all_eq_true.mp hall row hrow))
  refine ⟨first, rest, hrows, padded first rest, ?_, ?_, ?_, (padded first rest).length_line⟩
  · rw [hblock, hrows, tableText_eq hsome, lines_padded]
    simp
  · rw [lines_padded, tableLines]
    simp
  · rw [lines_padded]
    exact newline_notMem_tableLines hnewline

/-- Rows of three lengths, a row in a table in a cell, and columns that are wider below the first
row. -/
def nestedTable : List Node :=
  [.element "tr" [] [.element "th" [] [.text "a"], .element "td" [] [.text "b\nc"]],
   .element "TR" [] [.element "td" [] [.text "d",
     .element "table" [] [.element "tr" [] [.element "td" [] [.text " efgh "]]]]],
   .element "tr" [] [.element "td" [] [], .element "td" [] [.text "i"],
     .element "td" [] [.text "j"]]]

theorem blockNode_nestedTable :
    Text.lower "Table" = "table" ∧ (∃ row ∈ rowsBelow nestedTable, row ≠ []) ∧
      ∃ l : TableLayout ["a", "b c"] [["d efgh", "efgh"], ["efgh"], [[], "i", "j"]],
        blockNode .gfm defaultRules (.element "Table" [] nestedTable) =
            '\n' :: (l.lines.map (· ++ ['\n'])).flatten ++ ['\n'] ∧
          (rowLine (dashes l.widths)).length = l.widths.sum + 7 := by
  have htag : Text.lower "Table" = "table" := by decide
  have hcell : ∃ row ∈ rowsBelow nestedTable, row ≠ [] := by decide
  obtain ⟨first, rest, hrows, l, htext, -, -, hlength⟩ :=
    @blockNode_tableLayout _ [] _ htag hcell
  have hnested : rowsBelow nestedTable =
      ([["a", "b c"], ["d efgh", "efgh"], ["efgh"], [[], "i", "j"]] : List Row) := by decide
  rw [hnested] at hrows
  cases hrows
  exact ⟨htag, hcell, l, htext, (hlength (by simp)).1⟩

end MarkdownExport.Markdown
