import Mathlib.Data.List.Forall2
import MarkdownExport.Markdown.Default
import MarkdownExport.Proofs.Markdown.Copied
import MarkdownExport.Proofs.Text.Lines
import MarkdownExport.Proofs.Text.Trimming

/-! Reading a table back from its Markdown. Padding and the spaces at the pipes are trimmed away
again, and no pipe between two cells stands behind a backslash. So a row is read as its cells, each
cut at the pipes of its own text. -/
namespace MarkdownExport.Markdown

/-- The pieces of a text between pipes that have no backslash before them, when the scalar `before`
stands before the text. -/
def splitCells (before : Char) : Text → List Text
  | [] => [[]]
  | c :: t =>
    if c = '|' ∧ before ≠ '\\' then [] :: splitCells c t
    else (splitCells c t).modifyHead (c :: ·)

def dropOuterPipes? : Text → Option Text
  | '|' :: t => if t.getLast? = some '|' then some t.dropLast else none
  | _ => none

def readLine? (line : Text) : Option Row :=
  (dropOuterPipes? line).map fun t => (splitCells '|' t).map Text.trim

structure TableReading where
  header : Row
  delimiter : Row
  body : List Row
  deriving DecidableEq

/-- A table is read from the first lines that are not empty. -/
def readTable? (t : Text) : Option TableReading :=
  match ((t.lines.dropWhile List.isEmpty).takeWhile (!·.isEmpty)).mapM readLine? with
  | some (header :: delimiter :: body) => some ⟨header, delimiter, body⟩
  | _ => none

/-- Every pipe of a cell stands behind a backslash; a space stands before the cell. -/
def PipesEscaped (cell : Text) : Prop :=
  List.IsChain (fun c d => d = '|' → c = '\\') (' ' :: cell)

instance : DecidablePred PipesEscaped := fun cell =>
  inferInstanceAs (Decidable (List.IsChain _ (' ' :: cell)))

def cellPieces (cell : Text) : Row := (splitCells ' ' cell).map Text.trim

/-- A row without cells still has its outer pipes, with one blank piece between them. -/
def readsAs (row : Row) : Row := if row = [] then [[]] else row.flatMap cellPieces

/-! Splitting at pipes. -/

theorem splitCells_ne_nil (before : Char) (t : Text) : splitCells before t ≠ [] := by
  induction t generalizing before with
  | nil => simp [splitCells]
  | cons c t ih =>
    unfold splitCells
    split
    · simp
    · obtain ⟨l, ls, hl⟩ := List.exists_cons_of_ne_nil (ih c)
      simp [hl]

theorem splitCells_cons {before c : Char} (h : ¬ (c = '|' ∧ before ≠ '\\')) (t : Text) :
    splitCells before (c :: t) = (splitCells c t).modifyHead (c :: ·) := by
  rw [splitCells, if_neg h]

theorem splitCells_pipe {before c : Char} (h : c = '|' ∧ before ≠ '\\') (t : Text) :
    splitCells before (c :: t) = [] :: splitCells c t := by
  rw [splitCells, if_pos h]

/-- A pipe behind a space splits whatever stands around it. -/
theorem splitCells_append_pipe (before : Char) (s t : Text) :
    splitCells before (s ++ ' ' :: '|' :: t) =
      splitCells before (s ++ [' ']) ++ splitCells '|' t := by
  have hspace {before : Char} : ¬ (' ' = '|' ∧ before ≠ '\\') := fun h => by simp at h
  induction s generalizing before with
  | nil =>
    rw [List.nil_append, List.nil_append, splitCells_cons hspace, splitCells_cons hspace,
      splitCells_pipe ⟨rfl, by decide⟩]
    rfl
  | cons c s ih =>
    rw [List.cons_append, List.cons_append]
    by_cases hc : c = '|' ∧ before ≠ '\\'
    · rw [splitCells_pipe hc, splitCells_pipe hc, ih, List.cons_append]
    · obtain ⟨l, ls, hl⟩ := List.exists_cons_of_ne_nil (splitCells_ne_nil c (s ++ [' ']))
      rw [splitCells_cons hc, splitCells_cons hc, ih, hl]
      rfl

/-- A space at the end is on the last piece. -/
theorem exists_splitCells_append_space (before : Char) (t : Text) :
    ∃ ls l, splitCells before t = ls ++ [l] ∧
      splitCells before (t ++ [' ']) = ls ++ [l ++ [' ']] := by
  induction t generalizing before with
  | nil => exact ⟨[], [], rfl, splitCells_cons (by simp) []⟩
  | cons c t ih =>
    obtain ⟨ls, l, ht, hspace⟩ := ih c
    rw [List.cons_append]
    unfold splitCells
    rw [ht, hspace]
    split_ifs
    · exact ⟨[] :: ls, l, rfl, rfl⟩
    · cases ls with
      | nil => exact ⟨[], c :: l, rfl, rfl⟩
      | cons l' ls => exact ⟨(c :: l') :: ls, l, rfl, rfl⟩

theorem map_trim_splitCells_append_spaces (before : Char) (t : Text) (k : Nat) :
    (splitCells before (t ++ List.replicate k ' ')).map Text.trim =
      (splitCells before t).map Text.trim := by
  induction k with
  | zero => rw [List.replicate_zero, List.append_nil]
  | succ k ih =>
    obtain ⟨ls, l, ht, hspace⟩ := exists_splitCells_append_space before (t ++ List.replicate k ' ')
    rw [List.replicate_succ', ← List.append_assoc, hspace, ← ih, ht, List.map_append,
      List.map_append, List.map_singleton, List.map_singleton,
      Text.trim_append_blank _ isBlank_space]

theorem map_trim_splitCells_cons_space (before : Char) (t : Text) :
    (splitCells before (' ' :: t)).map Text.trim = cellPieces t := by
  obtain ⟨l, ls, hl⟩ := List.exists_cons_of_ne_nil (splitCells_ne_nil ' ' t)
  rw [splitCells_cons (by simp), cellPieces, hl, List.modifyHead_cons, List.map_cons,
    List.map_cons, Text.trim_cons_blank isBlank_space]

theorem splitCells_of_isChain {before : Char} {t : Text}
    (h : List.IsChain (fun c d => d = '|' → c = '\\') (before :: t)) :
    splitCells before t = [t] := by
  induction t generalizing before with
  | nil => rfl
  | cons c t ih =>
    rw [List.isChain_cons_cons] at h
    rw [splitCells_cons (by simpa using h.1), ih h.2, List.modifyHead_cons]

theorem cellPieces_eq_singleton {cell : Text} (htrim : Text.IsTrimmed cell)
    (h : PipesEscaped cell) : cellPieces cell = [cell] := by
  rw [cellPieces, splitCells_of_isChain h, List.map_singleton, htrim.trim_eq]

theorem readsAs_eq_self {row : Row} (hrow : row ≠ []) (htrim : ∀ cell ∈ row, Text.IsTrimmed cell)
    (h : ∀ cell ∈ row, PipesEscaped cell) : readsAs row = row := by
  have hpieces : row.flatMap cellPieces = row.flatMap ([·]) :=
    List.flatMap_congr fun cell hcell => cellPieces_eq_singleton (htrim cell hcell) (h cell hcell)
  rw [readsAs, if_neg hrow, hpieces, List.flatMap_singleton']

/-! The lines of a table. -/

def IsPadded (cell padded : Text) : Prop := ∃ k, padded = cell ++ List.replicate k ' '

theorem forall₂_isPadded_self (row : Row) : List.Forall₂ IsPadded row row :=
  List.forall₂_same.mpr fun _ _ => ⟨0, (List.append_nil _).symm⟩

theorem forall₂_padRow {row : Row} {widths : List Nat}
    (hwidths : ∀ (i : Nat) (w : Nat), widths[i]? = some w → (row[i]?.getD []).length ≤ w) :
    List.Forall₂ IsPadded row (padRow row widths) := by
  induction row generalizing widths with
  | nil => exact .nil
  | cons cell cells ih =>
    cases widths with
    | nil => exact forall₂_isPadded_self _
    | cons w widths =>
      have hlength : cell.length ≤ w := hwidths 0 w rfl
      refine .cons ⟨w - cell.length, ?_⟩ (ih fun i w hw => hwidths (i + 1) w hw)
      rw [padCell, List.take_of_length_le hlength]

def rowLine (cells : Row) : Text := "| " ++ List.intercalate (" | " : Text) cells ++ " |"

theorem tableLine_eq (cells : Row) : tableLine cells = rowLine cells ++ ['\n'] := by
  simp [tableLine, rowLine]

theorem map_trim_splitCells_padded {cell padded : Text} (h : IsPadded cell padded) (before : Char) :
    (splitCells before (' ' :: padded ++ [' '])).map Text.trim = cellPieces cell := by
  obtain ⟨k, rfl⟩ := h
  rw [List.cons_append, map_trim_splitCells_cons_space, List.append_assoc,
    ← List.replicate_succ']
  exact map_trim_splitCells_append_spaces ' ' cell (k + 1)

theorem map_trim_splitCells_intercalate {row cells : Row} (h : List.Forall₂ IsPadded row cells)
    (hrow : row ≠ []) (before : Char) :
    (splitCells before (' ' :: List.intercalate (" | " : Text) cells ++ [' '])).map Text.trim =
      row.flatMap cellPieces := by
  induction h generalizing before with
  | nil => contradiction
  | cons hcell hcells ih =>
    rename_i cell padded row cells
    cases hcells with
    | nil =>
      rw [List.intercalate_singleton, map_trim_splitCells_padded hcell]
      simp
    | cons hcell' hcells' =>
      rename_i cell' padded' row' cells'
      have hsplit : ' ' :: List.intercalate (" | " : Text) (padded :: padded' :: cells') ++ [' '] =
          (' ' :: padded) ++ ' ' :: '|' ::
            (' ' :: List.intercalate (" | " : Text) (padded' :: cells') ++ [' ']) := by
        simp [List.intercalate_cons_cons]
      rw [hsplit, splitCells_append_pipe, List.map_append, map_trim_splitCells_padded hcell,
        ih (by simp), ← List.flatMap_cons]

theorem readLine?_rowLine {row cells : Row} (h : List.Forall₂ IsPadded row cells) :
    readLine? (rowLine cells) = some (readsAs row) := by
  have hpipes : rowLine cells =
      '|' :: (' ' :: List.intercalate (" | " : Text) cells ++ [' ']) ++ ['|'] := by
    simp [rowLine]
  have houter : dropOuterPipes? (rowLine cells) =
      some (' ' :: List.intercalate (" | " : Text) cells ++ [' ']) := by
    rw [hpipes, List.cons_append, dropOuterPipes?, if_pos List.getLast?_concat,
      List.dropLast_concat]
  rw [readLine?, houter, Option.map_some, readsAs]
  split_ifs with hrow
  · rw [hrow, List.forall₂_nil_left_iff] at h
    rw [h]
    rfl
  · rw [map_trim_splitCells_intercalate h hrow]

theorem replace_newline_eq_map (t : Text) :
    t.replace '\n' [' '] = t.map fun c => if c = '\n' then ' ' else c := by
  induction t with
  | nil => rfl
  | cons c t ih => rw [joined_cons, ih, List.map_cons]

theorem isBlank_joined (c : Char) : isBlank (if c = '\n' then ' ' else c) = isBlank c := by
  split_ifs with hc
  · rw [hc, isBlank_space, isBlank_newline]
  · rfl

theorem isTrimmed_cellText (cell : Node) : Text.IsTrimmed (cellText cell) where
  start c hc := by
    rw [cellText, replace_newline_eq_map, List.head?_map, Option.mem_def,
      Option.map_eq_some_iff] at hc
    obtain ⟨d, hd, rfl⟩ := hc
    rw [isBlank_joined]
    exact (Text.isTrimmed_trim _).start d hd
  ending c hc := by
    rw [cellText, replace_newline_eq_map, List.getLast?_map, Option.mem_def,
      Option.map_eq_some_iff] at hc
    obtain ⟨d, hd, rfl⟩ := hc
    rw [isBlank_joined]
    exact (Text.isTrimmed_trim _).ending d hd

theorem newline_notMem_cellText (cell : Node) : '\n' ∉ cellText cell := by
  rw [cellText, replace_newline_eq_map, List.mem_map]
  rintro ⟨c, -, hc⟩
  split_ifs at hc
  · simp at hc
  · contradiction

theorem exists_cellText {children : List Node} {row : Row} (hrow : row ∈ tableRows children)
    {cell : Text} (hcell : cell ∈ row) : ∃ n, cellText n = cell := by
  obtain ⟨r, -, rfl⟩ := List.mem_map.mp hrow
  obtain ⟨n, -, hn⟩ := List.mem_map.mp hcell
  exact ⟨n, hn⟩

theorem newline_notMem_intercalate {between : Text} (hbetween : '\n' ∉ between) {cells : Row}
    (h : ∀ cell ∈ cells, '\n' ∉ cell) : '\n' ∉ List.intercalate between cells := by
  rw [Text.newline_mem_intercalate hbetween]
  rintro ⟨cell, hcell, hnewline⟩
  exact h cell hcell hnewline

theorem newline_notMem_rowLine {row cells : Row} (h : List.Forall₂ IsPadded row cells)
    (hrow : ∀ cell ∈ row, '\n' ∉ cell) : '\n' ∉ rowLine cells := by
  have hcells : ∀ cell ∈ cells, '\n' ∉ cell := by
    induction h with
    | nil => simp
    | cons hcell _ ih =>
      rw [List.forall_mem_cons] at hrow ⊢
      obtain ⟨k, rfl⟩ := hcell
      refine ⟨?_, ih hrow.2⟩
      simp [hrow.1]
  have hline : '\n' ∉ List.intercalate (" | " : Text) cells :=
    newline_notMem_intercalate (by decide) hcells
  unfold rowLine
  rw [List.mem_append, List.mem_append, not_or, not_or]
  exact ⟨⟨by decide, hline⟩, by decide⟩

def dashes (widths : List Nat) : Row := widths.map fun width => List.replicate width '-'

theorem pipesEscaped_of_notMem {cell : Text} (h : '|' ∉ cell) : PipesEscaped cell := by
  have hnone : '|' ∉ ' ' :: cell := by simp [h]
  refine (List.pairwise_of_forall_mem_list fun c _ d hd hpipe => ?_).isChain
  exact absurd (hpipe ▸ hd) hnone

theorem isTrimmed_replicate_dash (w : Nat) : Text.IsTrimmed (List.replicate w '-') where
  start c hc := by
    rw [List.eq_of_mem_replicate (List.mem_of_mem_head? hc)]
    decide
  ending c hc := by
    rw [List.eq_of_mem_replicate (List.mem_of_getLast? hc)]
    decide

theorem readsAs_dashes {widths : List Nat} (h : widths ≠ []) :
    readsAs (dashes widths) = dashes widths := by
  refine readsAs_eq_self (by simpa [dashes] using h) ?_ ?_
  · intro cell hcell
    obtain ⟨w, -, rfl⟩ := List.mem_map.mp hcell
    exact isTrimmed_replicate_dash w
  · intro cell hcell
    obtain ⟨w, -, rfl⟩ := List.mem_map.mp hcell
    exact pipesEscaped_of_notMem fun h => absurd (List.eq_of_mem_replicate h) (by decide)

theorem length_readsAs_dashes (widths : List Nat) :
    (readsAs (dashes widths)).length = max widths.length 1 := by
  by_cases h : widths = []
  · rw [h]
    rfl
  · rw [readsAs_dashes h, dashes, List.length_map,
      Nat.max_eq_left (List.length_pos_iff.mpr h)]

/-- The lines of a table between the empty lines around it. -/
def tableLines (header : Row) (body : List Row) : List Text :=
  let widths := columnWidths (header :: body)
  rowLine (padRow header widths) :: rowLine (dashes widths) ::
    body.map fun row => rowLine (padRow row widths)

theorem tableText_eq {header : Row} {body : List Row}
    (h : ¬ (header :: body).all List.isEmpty = true) :
    tableText (header :: body) =
      (([] :: (tableLines header body ++ [[]])).map (· ++ ['\n'])).flatten := by
  rw [tableText, if_neg h]
  simp [tableLines, dashes, tableLine_eq, List.flatMap_def, Function.comp_def]

theorem rowLine_ne_nil (cells : Row) : rowLine cells ≠ [] := by
  simp [rowLine]

section Lines
variable {header : Row} {body : List Row}

theorem forall₂_padRow_columnWidths {rows : List Row} {row : Row} (hrow : row ∈ rows) :
    List.Forall₂ IsPadded row (padRow row (columnWidths rows)) :=
  forall₂_padRow (length_le_of_columnWidths hrow)

theorem newline_notMem_tableLines (h : ∀ row ∈ header :: body, ∀ cell ∈ row, '\n' ∉ cell) :
    ∀ l ∈ tableLines header body, '\n' ∉ l := by
  have hrow : ∀ row ∈ header :: body,
      '\n' ∉ rowLine (padRow row (columnWidths (header :: body))) := fun row hrow =>
    newline_notMem_rowLine (forall₂_padRow_columnWidths hrow) (h row hrow)
  have hdashes : '\n' ∉ rowLine (dashes (columnWidths (header :: body))) := by
    refine newline_notMem_rowLine (forall₂_isPadded_self _) fun cell hcell => ?_
    obtain ⟨w, -, rfl⟩ := List.mem_map.mp hcell
    exact fun hmem => absurd (List.eq_of_mem_replicate hmem) (by decide)
  rw [List.forall_mem_cons] at hrow
  refine List.forall_mem_cons.mpr ⟨hrow.1, List.forall_mem_cons.mpr ⟨hdashes, ?_⟩⟩
  exact List.forall_mem_map.mpr hrow.2

theorem tableLines_ne_nil : ∀ l ∈ tableLines header body, l ≠ [] := by
  simp [tableLines, rowLine_ne_nil]

theorem mapM_readLine?_tableLines : (tableLines header body).mapM readLine? =
    some (readsAs header :: readsAs (dashes (columnWidths (header :: body))) ::
      body.map readsAs) := by
  have hrow : ∀ row ∈ header :: body,
      readLine? (rowLine (padRow row (columnWidths (header :: body)))) = some (readsAs row) :=
    fun row hrow => readLine?_rowLine (forall₂_padRow_columnWidths hrow)
  rw [List.forall_mem_cons] at hrow
  rw [tableLines, List.mapM_cons, hrow.1, List.mapM_cons,
    readLine?_rowLine (forall₂_isPadded_self _), Text.mapM_map_eq_some hrow.2]
  rfl

theorem readTable?_tableText (hcells : ¬ (header :: body).all List.isEmpty = true)
    (h : ∀ row ∈ header :: body, ∀ cell ∈ row, '\n' ∉ cell) :
    readTable? (tableText (header :: body)) =
      some ⟨readsAs header, readsAs (dashes (columnWidths (header :: body))),
        body.map readsAs⟩ := by
  have hnewline : ∀ l ∈ [] :: (tableLines header body ++ [[]]), '\n' ∉ l := by
    have hlines := newline_notMem_tableLines h
    simpa [or_imp, forall_and] using hlines
  have hshown : ∀ l ∈ tableLines header body, (!l.isEmpty) = true := by
    intro l hl
    simpa using tableLines_ne_nil l hl
  have hdrop : (([] : Text) :: (tableLines header body ++ [[]]) ++ [[]]).dropWhile List.isEmpty =
      tableLines header body ++ [[], []] := by
    simp [tableLines, rowLine_ne_nil]
  rw [readTable?, tableText_eq hcells, Text.lines_flatten_of_notMem hnewline, hdrop,
    List.takeWhile_append_of_pos hshown]
  have hstop : ([[], []] : List Text).takeWhile (!·.isEmpty) = [] := rfl
  rw [hstop, List.append_nil, mapM_readLine?_tableLines]

end Lines

theorem length_columnWidths (header : Row) (body : List Row) :
    (columnWidths (header :: body)).length = header.length := by
  simp [columnWidths]

theorem minimalWidth_le_of_mem {rows : List Row} {w : Nat} (h : w ∈ columnWidths rows) :
    minimalWidth ≤ w := by
  obtain ⟨column, -, rfl⟩ := List.mem_map.mp h
  exact le_foldl_max (Or.inl (Nat.le_refl _))

/-- A table with a cell is read back from its Markdown. Its header and its body are read as its
rows, in their order, and the line of dashes has a piece for each cell of the first row. Rows whose
pipes are all escaped are read as they are. -/
theorem readTable?_blockNode {tag : Text} {attributes : List Attribute} {children : List Node}
    (htag : tag.lower = "table") (hcell : ∃ row ∈ tableRows children, row ≠ []) :
    ∃ first rest delimiter, tableRows children = first :: rest ∧
      readTable? (blockNode .gfm defaultRules (.element tag attributes children)) =
        some ⟨readsAs first, delimiter, rest.map readsAs⟩ ∧
      delimiter.length = max first.length 1 ∧
      (first ≠ [] → ∀ cell ∈ delimiter, ∃ n, 3 ≤ n ∧ cell = List.replicate n '-') ∧
      ∀ row ∈ tableRows children, row ≠ [] → (∀ cell ∈ row, PipesEscaped cell) →
        readsAs row = row := by
  have hblock : blockNode .gfm defaultRules (.element tag attributes children) =
      tableText (tableRows children) := by
    rw [blockNode, htag]
    rfl
  have hcells : ∀ row ∈ tableRows children, ∀ cell ∈ row, Text.IsTrimmed cell ∧ '\n' ∉ cell := by
    intro row hrow cell hcell
    obtain ⟨n, rfl⟩ := exists_cellText hrow hcell
    exact ⟨isTrimmed_cellText n, newline_notMem_cellText n⟩
  have hself : ∀ row ∈ tableRows children, row ≠ [] → (∀ cell ∈ row, PipesEscaped cell) →
      readsAs row = row := fun row hrow hne hescaped =>
    readsAs_eq_self hne (fun cell hcell => (hcells row hrow cell hcell).1) hescaped
  obtain ⟨row, hrow, hne⟩ := hcell
  obtain ⟨first, rest, hrows⟩ := List.exists_cons_of_ne_nil (List.ne_nil_of_mem hrow)
  rw [hrows] at hrow hcells
  have hsome : ¬ (first :: rest).all List.isEmpty = true := by
    intro hall
    exact hne (List.isEmpty_iff.mp (List.all_eq_true.mp hall row hrow))
  refine ⟨first, rest, readsAs (dashes (columnWidths (first :: rest))), hrows, ?_, ?_, ?_, hself⟩
  · rw [hblock, hrows]
    exact readTable?_tableText hsome fun row hrow cell hcell => (hcells row hrow cell hcell).2
  · rw [length_readsAs_dashes, length_columnWidths]
  · intro hfirst cell hcell
    have hwidths : columnWidths (first :: rest) ≠ [] := by
      rwa [← List.length_pos_iff, length_columnWidths, List.length_pos_iff]
    rw [readsAs_dashes hwidths] at hcell
    obtain ⟨w, hw, rfl⟩ := List.mem_map.mp hcell
    exact ⟨w, minimalWidth_le_of_mem hw, rfl⟩

/-- Rows of three lengths, one of them zero, with blanks, a newline and an escaped pipe. -/
def raggedTable : List Node :=
  [.element "thead" [] [.element "tr" []
    [.element "th" [] [.text " x\ny "], .element "td" [] [.text "a\\|b"]]],
   .element "tr" [] [],
   .element "TR" []
    [.element "td" [] [.text "c"], .element "td" [] [], .element "th" [] [.text "d"]]]

theorem readTable?_raggedTable :
    Text.lower "TABLE" = "table" ∧ (∃ row ∈ tableRows raggedTable, row ≠ []) ∧
      ∃ delimiter, delimiter.length = 2 ∧
        (∀ cell ∈ delimiter, ∃ n, 3 ≤ n ∧ cell = List.replicate n '-') ∧
        readTable? (blockNode .gfm defaultRules (.element "TABLE" [] raggedTable)) =
          some ⟨["x y", "a\\|b"], delimiter, [[[]], ["c", [], "d"]]⟩ := by
  have htag : Text.lower "TABLE" = "table" := by decide
  have hcell : ∃ row ∈ tableRows raggedTable, row ≠ [] := by decide
  obtain ⟨first, rest, delimiter, hrows, hread, hlength, hdashes, -⟩ :=
    @readTable?_blockNode _ [] _ htag hcell
  have hragged : tableRows raggedTable =
      ([["x y", "a\\|b"], [], ["c", [], "d"]] : List Row) := by decide
  rw [hragged] at hrows
  cases hrows
  exact ⟨htag, hcell, delimiter, hlength, hdashes (by simp), hread⟩

/-- A pipe in a cell cuts it, and a first row without cells has a blank delimiter. -/
theorem readTable?_unescapedPipe :
    tableRows [.element "tr" [] [.element "td" [] [.text "a|b"]]] = ([["a|b"]] : List Row) ∧
      readTable? (blockNode .gfm defaultRules
        (.element "table" [] [.element "tr" [] [.element "td" [] [.text "a|b"]]])) =
        some ⟨["a", "b"], ["---"], []⟩ ∧
      tableRows [.element "tr" [] [], .element "tr" [] [.element "td" [] [.text "a"]]] =
        ([[], ["a"]] : List Row) ∧
      readTable? (blockNode .gfm defaultRules (.element "table" []
        [.element "tr" [] [], .element "tr" [] [.element "td" [] [.text "a"]]])) =
        some ⟨[[]], [[]], [["a"]]⟩ := by
  decide +kernel

end MarkdownExport.Markdown
