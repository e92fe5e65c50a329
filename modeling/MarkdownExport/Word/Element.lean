import MarkdownExport.Dictionary

/-! The elements of a document part that mean something to the reader. -/
namespace MarkdownExport.Word

inductive Element where
  | footnote | paragraph | paragraphStyle | numberingId | run | runProperties
  | bold | italic | strike | verticalAlign
  | text | instruction | tab | lineBreak
  | hyperlink | inserted | deleted
  | footnoteReference | endnoteReference | commentReference | bookmark
  | simpleField | fieldCharacter | contentControl
  | drawing | anchor | drawingProperties | picture | chart | smartArt
  | shape | vectorShape | object | math
  | table | row | cell
  | skipped | other
  deriving DecidableEq, Repr

namespace Element

/-- Fallback renditions repeat the preferred choice, text boxes would nest paragraphs, and the
properties before a change are not those of the text: all that is skipped. -/
def spellings : List (String × Element) :=
  [("w:footnote", footnote), ("w:p", paragraph), ("w:pStyle", paragraphStyle),
   ("w:numId", numberingId), ("w:r", run), ("w:rPr", runProperties), ("w:b", bold),
   ("w:i", italic), ("w:strike", strike), ("w:dstrike", strike), ("w:vertAlign", verticalAlign),
   ("w:t", text), ("w:delText", text), ("m:t", text), ("w:instrText", instruction),
   ("w:tab", tab), ("w:br", lineBreak), ("w:hyperlink", hyperlink), ("w:ins", inserted),
   ("w:moveTo", inserted), ("w:del", deleted), ("w:moveFrom", deleted),
   ("w:footnoteReference", footnoteReference), ("w:endnoteReference", endnoteReference),
   ("w:commentReference", commentReference), ("w:bookmarkStart", bookmark),
   ("w:fldSimple", simpleField), ("w:fldChar", fieldCharacter), ("w:sdt", contentControl),
   ("w:drawing", drawing), ("wp:anchor", anchor), ("wp:docPr", drawingProperties),
   ("a:blip", picture), ("c:chart", chart), ("dgm:relIds", smartArt), ("w:pict", shape),
   ("wps:wsp", shape), ("v:shape", vectorShape), ("w:object", object), ("m:oMath", math),
   ("w:tbl", table), ("w:tr", row), ("w:tc", cell),
   ("mc:Fallback", skipped), ("w:txbxContent", skipped), ("w:pPrChange", skipped),
   ("w:rPrChange", skipped)]

def names : Dictionary Element := spellings.map fun (name, element) => (name.toList, element)

def ofName (name : Text) : Element := (names.find? name).getD other

end Element
end MarkdownExport.Word
