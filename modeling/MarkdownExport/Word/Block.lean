import MarkdownExport.Text.Digit
import MarkdownExport.Word.Markup

/-! Blocks, footnotes and their HTML. List items next to each other share one list if they are of
one kind. -/
namespace MarkdownExport.Word

inductive BlockKind where
  | paragraph
  | heading (level : Nat)
  | listItem (ordered : Bool)
  deriving DecidableEq, Repr

inductive Block where
  | text (kind : BlockKind) (html : Text)
  | table (html : Text)
  deriving DecidableEq, Repr

structure Footnote where
  id : Text
  html : Text
  deriving DecidableEq, Repr

def Block.html : Block → Text
  | text _ html => html
  | table html => html

/-- The kind of the list that a block is an item of. -/
def Block.list? : Block → Option Bool
  | text (.listItem ordered) _ => some ordered
  | _ => none

def listTag (ordered : Bool) : Text := if ordered then "ol" else "ul"

def Block.render : Block → Text
  | text .paragraph html => enclose "p" html
  | text (.heading level) html => enclose ('h' :: decimal level) html
  | text (.listItem _) html => enclose "li" html
  | table html => html

/-- What has to be written between two blocks, of which the first is in the list `before` and the
second in the list `after`. -/
def listChange (before after : Option Bool) : Text :=
  if before = after then []
  else (before.elim [] fun ordered => closeTag (listTag ordered)) ++
    (after.elim [] fun ordered => openTag (listTag ordered))

def renderBlocksFrom (list? : Option Bool) : List Block → Text
  | [] => listChange list? none
  | b :: bs => listChange list? b.list? ++ b.render ++ renderBlocksFrom b.list? bs

def renderBlocks (blocks : List Block) : Text := renderBlocksFrom none blocks

def renderTable (rows : List (List Text)) : Text :=
  enclose "table" (rows.flatMap fun row => enclose "tr" (row.flatMap (enclose "td")))

/-- The item of the footnote with index `i`, which shows its number. -/
def Footnote.render (i : Nat) (note : Footnote) : Text :=
  "<li data-word-footnote-id=\"" ++ escapeValue note.id ++ "\">[" ++ decimal (i + 1) ++ "] " ++
    note.html ++ "</li>"

def renderFootnotesFrom (i : Nat) : List Footnote → Text
  | [] => []
  | note :: notes => note.render i ++ renderFootnotesFrom (i + 1) notes

def renderFootnotes (notes : List Footnote) : Text :=
  if notes.isEmpty then []
  else "<section data-word-footnotes=\"true\"><ol>" ++ renderFootnotesFrom 0 notes ++
    "</ol></section>"

end MarkdownExport.Word
