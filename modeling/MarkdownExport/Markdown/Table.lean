import MarkdownExport.Markdown.Rule

/-! Tables. A row has the cells of all levels below it, and every column of the first row is as
wide as its widest cell. -/
namespace MarkdownExport.Markdown

abbrev Row := List Text

def minimalWidth : Nat := 3

def cellText (cell : Node) : Text := (cell.textContent.trim).replace '\n' [' ']

def isCell (n : Node) : Bool := n.isTag "th" || n.isTag "td"

def rowCells (row : Node) : Row := (Node.findAll isCell row.children).map cellText

def tableRows (children : List Node) : List Row := (Node.findTags "tr" children).map rowCells

def columnWidth (rows : List Row) (column : Nat) : Nat :=
  (rows.map fun row => (row[column]?.getD []).length).foldl max minimalWidth

def columnWidths (rows : List Row) : List Nat :=
  (List.range (rows.headD []).length).map (columnWidth rows)

/-- Fills a cell to its column's width, which is that of the widest cell. -/
def padCell (cell : Text) (width : Nat) : Text :=
  cell.take width ++ List.replicate (width - cell.length) ' '

/-- The cells of a row, those beyond the last width unpadded. -/
def padRow : Row → List Nat → Row
  | [], _ => []
  | cells, [] => cells
  | cell :: cells, width :: widths => padCell cell width :: padRow cells widths

def tableLine (cells : Row) : Text :=
  "| " ++ List.intercalate (" | " : Text) cells ++ " |\n"

def tableText (rows : List Row) : Text :=
  match rows with
  | [] => []
  | header :: body =>
    if rows.all List.isEmpty then []
    else
      let widths := columnWidths rows
      "\n" ++ tableLine (padRow header widths) ++
        tableLine (widths.map fun width => List.replicate width '-') ++
        body.flatMap (fun row => tableLine (padRow row widths)) ++ "\n"

/-- The standard dialect has no tables and shows the text as code. -/
def table : Rule := fun s =>
  match s.dialect with
  | .gfm => tableText (tableRows s.children)
  | .standard => "\x60\x60\x60\n" ++ s.text ++ "\n\x60\x60\x60\n\n"

end MarkdownExport.Markdown
