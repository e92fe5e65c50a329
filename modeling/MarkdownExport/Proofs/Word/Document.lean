import Mathlib.Data.List.SplitBy
import MarkdownExport.Proofs.Word.Grammar
import MarkdownExport.Proofs.Xml.Content
import MarkdownExport.Word.Feature
import MarkdownExport.Word.Inline
import MarkdownExport.Word.Numbering
import MarkdownExport.Word.Relationships
import MarkdownExport.Word.Style

/-! Documents without markup: paragraphs of runs, revisions and links, and tables of cells that hold
blocks again. Each has one form in WordprocessingML and one rendition. -/
namespace MarkdownExport.Word.Document

structure Run where
  format : RunFormat
  text : Text

inductive Target where
  | relationship (id : Text)
  | anchor (name : Text)

inductive Item where
  | run (r : Run)
  | inserted (rs : List Run)
  | deleted (rs : List Run)
  | link (target : Target) (rs : List Run)

structure Paragraph where
  style : Option Text
  numberingId : Option Text
  items : List Item

inductive Block where
  | paragraph (p : Paragraph)
  | table (rows : List (List (List Block)))

/-! WordprocessingML. -/

section Xml
open Xml Xml.Content

def runPropertiesName : Name := ⟨"w:rPr", by decide⟩
def runName : Name := ⟨"w:r", by decide⟩
def textName : Name := ⟨"w:t", by decide⟩
def deletedTextName : Name := ⟨"w:delText", by decide⟩
def insertedName : Name := ⟨"w:ins", by decide⟩
def deletedName : Name := ⟨"w:del", by decide⟩
def hyperlinkName : Name := ⟨"w:hyperlink", by decide⟩
def relationshipIdName : Name := ⟨"r:id", by decide⟩
def anchorName : Name := ⟨"w:anchor", by decide⟩
def paragraphName : Name := ⟨"w:p", by decide⟩
def paragraphPropertiesName : Name := ⟨"w:pPr", by decide⟩
def paragraphStyleName : Name := ⟨"w:pStyle", by decide⟩
def numberingPropertiesName : Name := ⟨"w:numPr", by decide⟩
def numberingIdName : Name := ⟨"w:numId", by decide⟩
def cellName : Name := ⟨"w:tc", by decide⟩
def rowName : Name := ⟨"w:tr", by decide⟩
def tableName : Name := ⟨"w:tbl", by decide⟩
def bodyName : Name := ⟨"w:body", by decide⟩
def documentName : Name := ⟨"w:document", by decide⟩
def valueName : Name := ⟨"w:val", by decide⟩

/-- An element around properties, if there are any. -/
def properties (name : Name) (children : List Content) : List Content :=
  if children.isEmpty then [] else [element name .nil children]

def flag (wanted : Bool) (name : Name) : List Content :=
  if wanted then [empty name .nil] else []

def formatXml (f : RunFormat) : List Content :=
  flag f.bold ⟨"w:b", by decide⟩ ++ flag f.italic ⟨"w:i", by decide⟩ ++
    flag f.strike ⟨"w:strike", by decide⟩ ++
    if f.superscript then
      [empty ⟨"w:vertAlign", by decide⟩ (.single valueName "superscript")]
    else []

/-- Within a deletion text has a name of its own. -/
def Run.xml (textName : Name) (r : Run) : Content :=
  element runName .nil
    (properties runPropertiesName (formatXml r.format) ++
      [leaf textName (.single ⟨"xml:space", by decide⟩ "preserve") r.text])

def Target.attributes : Target → Attributes
  | relationship id => .single relationshipIdName id
  | anchor name => .single anchorName name

def Item.xml : Item → Content
  | run r => r.xml textName
  | inserted rs => element insertedName .nil (rs.map (Run.xml textName))
  | deleted rs => element deletedName .nil (rs.map (Run.xml deletedTextName))
  | link target rs => element hyperlinkName target.attributes (rs.map (Run.xml textName))

def propertyXml (name : Name) (value : Option Text) : List Content :=
  value.toList.map fun v => empty name (.single valueName v)

def Paragraph.xml (p : Paragraph) : Content :=
  element paragraphName .nil
    (properties paragraphPropertiesName
      (propertyXml paragraphStyleName p.style ++
        properties numberingPropertiesName (propertyXml numberingIdName p.numberingId)) ++
      p.items.map Item.xml)

mutual

def Block.xml : Block → Content
  | .paragraph p => p.xml
  | .table rows => element tableName .nil (rowsXml rows)

def blocksXml : List Block → List Content
  | [] => []
  | b :: bs => b.xml :: blocksXml bs

def cellsXml : List (List Block) → List Content
  | [] => []
  | c :: cs => element cellName .nil (blocksXml c) :: cellsXml cs

def rowsXml : List (List (List Block)) → List Content
  | [] => []
  | r :: rs => element rowName .nil (cellsXml r) :: rowsXml rs

end

def xml (blocks : List Block) : Content :=
  element documentName .nil [element bodyName .nil (blocksXml blocks)]

end Xml

/-! The rendition. -/

/-- What a line of text is made of: runs, already escaped, and markup that stands between them. -/
inductive Piece where
  | run (format : RunFormat) (html : Text)
  | markup (html : Text)

namespace Piece

def isShown : Piece → Bool
  | run _ html => !html.isEmpty
  | markup _ => true

/-- Whether two neighbours share one wrapper. -/
def joins : Piece → Piece → Bool
  | run f _, run g _ => f == g
  | _, _ => false

def html : Piece → Text
  | run _ html => html
  | markup html => html

end Piece

/-- The marks of a format, the outermost first. -/
def marks (f : RunFormat) : List Text :=
  (if f.bold then ["strong".toList] else []) ++ (if f.italic then ["em".toList] else []) ++
    (if f.strike then ["del".toList] else []) ++ (if f.superscript then ["sup".toList] else [])

def groupHtml : List Piece → Text
  | .run f html :: ps => (marks f).foldr enclose (html ++ ps.flatMap Piece.html)
  | ps => ps.flatMap Piece.html

/-- Runs without text do not count. The others stand in the longest groups of one format. -/
def lineHtml (ps : List Piece) : Text :=
  ((ps.filter Piece.isShown).splitBy Piece.joins).flatMap groupHtml

def Run.piece (r : Run) : Piece := .run r.format (escapeText r.text)

def Run.deletedPiece (r : Run) : Piece :=
  .run { r.format with strike := true } (escapeText r.text)

def Target.resolve (rels : Relationships) : Target → Option Text
  | relationship id => (rels.find? id).map Relationship.target
  | anchor name => some ('#' :: name)

def linkHtml (target : Option Text) (content : Text) : Text :=
  match target with
  | some url => if content = [] then [] else linkTag (escapeValue url) ++ content ++ closeTag "a"
  | none => content

def Item.pieces (rels : Relationships) : Item → List Piece
  | run r => [r.piece]
  | inserted rs => rs.map Run.piece
  | deleted rs => rs.map Run.deletedPiece
  | link target rs => [.markup (linkHtml (target.resolve rels) (lineHtml (rs.map Run.piece)))]

def Paragraph.html (rels : Relationships) (p : Paragraph) : Text :=
  lineHtml (p.items.flatMap (Item.pieces rels))

/-- An unknown list has no order. -/
def Paragraph.kind (numbering : Numbering) (p : Paragraph) : BlockKind :=
  match p.style.bind headingLevel?, p.numberingId.filter (· ≠ ['0']) with
  | some level, _ => .heading level
  | none, some id => .listItem ((numbering.find? id).getD false)
  | none, none => .paragraph

/-- A blank paragraph is not shown. -/
def Paragraph.rendition (rels : Relationships) (numbering : Numbering) (p : Paragraph) :
    List Word.Block :=
  if (p.html rels).allBlank then [] else [.text (p.kind numbering) (p.html rels)]

/-- A paragraph is set off by a space from what stands before it in its cell. -/
def spaced : Word.Block → Text
  | .text _ html => ' ' :: html
  | .table html => html

def cellHtml : List Word.Block → Text
  | [] => []
  | b :: bs => b.html ++ bs.flatMap spaced

section Rendition
variable (rels : Relationships) (numbering : Numbering)

mutual

def Block.rendition : Block → List Word.Block
  | .paragraph p => p.rendition rels numbering
  | .table rows => [.table (enclose "table" (rowsHtml rows))]

def rendition : List Block → List Word.Block
  | [] => []
  | b :: bs => b.rendition ++ rendition bs

def cellsHtml : List (List Block) → Text
  | [] => []
  | c :: cs => enclose "td" (cellHtml (rendition c)) ++ cellsHtml cs

def rowsHtml : List (List (List Block)) → Text
  | [] => []
  | r :: rs => enclose "tr" (cellsHtml r) ++ rowsHtml rs

end

end Rendition

/-! What is counted on the way. -/

def Item.features : Item → List Feature
  | run _ => []
  | inserted _ | deleted _ => [.revision]
  | link _ _ => [.hyperlink]

mutual

def Block.features : Block → List Feature
  | .paragraph p => p.items.flatMap Item.features
  | .table rows => .table :: rowsFeatures rows

def features : List Block → List Feature
  | [] => []
  | b :: bs => b.features ++ features bs

def cellsFeatures : List (List Block) → List Feature
  | [] => []
  | c :: cs => features c ++ cellsFeatures cs

def rowsFeatures : List (List (List Block)) → List Feature
  | [] => []
  | r :: rs => cellsFeatures r ++ rowsFeatures rs

end

/-! Lists. -/

/-- Whether two neighbours are items of one list. -/
def sameList (b b' : Word.Block) : Bool := b.list?.isSome && b.list? == b'.list?

/-- What is written for list items that share a list, and for any other block by itself. -/
def listHtml : List Word.Block → Text
  | [.text .paragraph html] => "<p>" ++ html ++ "</p>"
  | [.text (.heading level) html] =>
    "<h" ++ decimal level ++ ">" ++ html ++ "</h" ++ decimal level ++ ">"
  | [.table html] => html
  | bs@(.text (.listItem ordered) _ :: _) =>
    (if ordered then ("<ol>" : Text) else ("<ul>" : Text)) ++
      (bs.flatMap fun b : Word.Block => ("<li>" : Text) ++ b.html ++ ("</li>" : Text)) ++
        (if ordered then ("</ol>" : Text) else ("</ul>" : Text))
  | _ => []

/-- List items next to each other share a list if they are of one kind. -/
def html (bs : List Word.Block) : Text := (bs.splitBy sameList).flatMap listHtml

end MarkdownExport.Word.Document
