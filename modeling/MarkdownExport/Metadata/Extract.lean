import MarkdownExport.Metadata.Value
import MarkdownExport.Text.Blank
import MarkdownExport.Tree.Query

/-! The metadata that a document itself shows: title, description and counts. -/
namespace MarkdownExport.Metadata
open Node

def isSectionHeading (n : Node) : Bool := n.isTag "h1" || n.isTag "h2" || n.isTag "h3"

/-- In UTF-16 code units. -/
def descriptionLimit : Nat := 200

def title? (document : List Node) : Option Text :=
  (findTag? "h1" document).map fun h => h.textContent.trim

/-- The first paragraph right after a section heading, unless it is blank or too long. -/
def description? (document : List Node) : Option Text :=
  (findAdjacent? isSectionHeading (isTag "p") document).bind fun p =>
    let text := p.textContent.trim
    if 0 < text.units16 && text.units16 < descriptionLimit then some text else none

def wordCount (document : List Node) : Nat := (Text.words (textOf (body document))).length

def positive? (n : Nat) : Option Nat := if n = 0 then none else some n

def countEntry? (key : Text) (n : Option Nat) : Record := (n.map fun n => (key, .ofNat n)).toList

def textEntry? (key : Text) (t : Option Text) : Record := (t.map fun t => (key, .text t)).toList

def derived (document : List Node) : Record :=
  let count (tag : Text) := (findTags tag document).length
  textEntry? "title" (title? document) ++
    textEntry? "description" (description? document) ++
    countEntry? "wordCount" (some (wordCount document)) ++
    countEntry? "paragraphCount" (some (count "p")) ++
    countEntry? "tableCount" (positive? (count "table")) ++
    countEntry? "imageCount" (positive? (count "img"))

/-- The derived metadata with the entries of `overrides` put over it. -/
def extract (document : List Node) (overrides : Record) : Record :=
  (derived document).overlay overrides

end MarkdownExport.Metadata
