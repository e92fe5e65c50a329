import MarkdownExport.Metadata.Value

/-! The features of a Word document that are counted while it is read. -/
namespace MarkdownExport.Word

inductive Feature where
  | hyperlink | anchorImage | chart | smartArt | omml | table | footnoteRef | endnoteRef
  | commentRef | revision | pageBreak | bookmark | field | crossRef | sdt | shape | ole
  | watermark | header | footer
  deriving DecidableEq, Repr

namespace Feature

def all : List Feature :=
  [hyperlink, anchorImage, chart, smartArt, omml, table, footnoteRef, endnoteRef, commentRef,
   revision, pageBreak, bookmark, field, crossRef, sdt, shape, ole, watermark, header, footer]

/-- The key of a feature's count in a report. -/
def key : Feature → Text
  | hyperlink => "hyperlinkCount"
  | anchorImage => "anchorImageCount"
  | chart => "chartCount"
  | smartArt => "smartArtCount"
  | omml => "ommlCount"
  | table => "tableCount"
  | footnoteRef => "footnoteRefCount"
  | endnoteRef => "endnoteRefCount"
  | commentRef => "commentRefCount"
  | revision => "revisionCount"
  | pageBreak => "pageBreakCount"
  | bookmark => "bookmarkCount"
  | field => "fieldCount"
  | crossRef => "crossRefCount"
  | sdt => "sdtCount"
  | shape => "shapeCount"
  | ole => "oleCount"
  | watermark => "watermarkCount"
  | header => "headerCount"
  | footer => "footerCount"

end Feature

structure Report where
  elapsedMs : Nat
  count : Feature → Nat

namespace Report

/-- The counts of a list that names each feature once for each time it was seen. -/
def ofSeen (seen : List Feature) (elapsedMs : Nat) : Report := ⟨elapsedMs, fun f => seen.count f⟩

def features (r : Report) : Value :=
  .object (Feature.all.map fun f => (f.key, .ofNat (r.count f)))

def toValue (r : Report) : Value :=
  .object [("elapsedMs", .ofNat r.elapsedMs), ("features", r.features)]

end Report
end MarkdownExport.Word
