import MarkdownExport.Word.Package
import MarkdownExport.Word.Reader

/-! The HTML snapshot of a Word package, and what was counted on the way. -/
namespace MarkdownExport.Word

structure Snapshot where
  html : Text
  report : Option Report

def documentPart : Text := "word/document.xml"
def documentRelationshipsPart : Text := "word/_rels/document.xml.rels"
def numberingPart : Text := "word/numbering.xml"
def footnotesPart : Text := "word/footnotes.xml"
def footnotesRelationshipsPart : Text := "word/_rels/footnotes.xml.rels"

def inPart {α : Type} (part : Text) : Except Xml.Error α → Except Error α
  | .ok a => .ok a
  | .error e => .error (.xml part e)

/-- Reads and interprets a part that may be missing. -/
def readOptional {α : Type} (package : Package) (part : Text) (missing : α)
    (interpret : Xml.Scan → Except Xml.Error α) : Except Error α := do
  match ← package.text? part with
  | some xml => inPart part (interpret (Xml.scan xml))
  | none => .ok missing

/-- What the document part and the footnotes part leave behind. -/
structure Contents where
  blocks : List Block
  notes : List Footnote
  seen : List Feature

def readNotes (package : Package) (numbering : Numbering) (profile : Profile) :
    Except Error (List Footnote) := do
  match ← package.text? footnotesPart with
  | none => .ok []
  | some xml =>
    let rels ← readOptional package footnotesRelationshipsPart [] Relationships.ofScan
    let s ← inPart footnotesPart (readPart ⟨rels, numbering, profile⟩ (Xml.scan xml))
    .ok s.footnotes

/-- The parts are read in a fixed order and the first failure counts. -/
def readContents (package : Package) (profile : Profile) : Except Error Contents := do
  match ← package.text? documentPart with
  | none => .error (.missingPart documentPart)
  | some xml =>
    let rels ← readOptional package documentRelationshipsPart [] Relationships.ofScan
    let numbering ← readOptional package numberingPart [] Numbering.ofScan
    let s ← inPart documentPart (readPart ⟨rels, numbering, profile⟩ (Xml.scan xml))
    let notes ← readNotes package numbering profile
    .ok ⟨s.blocks, notes,
      List.replicate (Relationships.countKind "/header" rels) .header ++
        List.replicate (Relationships.countKind "/footer" rels) .footer ++ s.seen⟩

def Contents.html (c : Contents) : Text := renderBlocks c.blocks ++ renderFootnotes c.notes

/-- The snapshot of a package; no time is taken. -/
def snapshot (package : Package) (profile : Profile) : Except Error Snapshot := do
  let c ← readContents package profile
  .ok ⟨c.html, some (.ofSeen c.seen 0)⟩

end MarkdownExport.Word
