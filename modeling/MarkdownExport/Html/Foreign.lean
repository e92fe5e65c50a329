import MarkdownExport.Html.Ending

/-! Drawings and formulas, whose elements are of other vocabularies. -/
namespace MarkdownExport.Html.Builder

def readIn (mode : Mode) (token : Token) (b : Builder) : Outcome :=
  match mode with
  | .initial => initial token b
  | .beforeHtml => beforeHtml token b
  | .beforeHead => beforeHead token b
  | .inHead => inHead token b
  | .afterHead => afterHead token b
  | .inBody => inBody token b
  | .inText => inText token b
  | .inTable => inTable token b
  | .inTableText => inTableText token b
  | .inCaption => inCaption token b
  | .inColumnGroup => inColumnGroup token b
  | .inTableBody => inTableBody token b
  | .inRow => inRow token b
  | .inCell => inCell token b
  | .inTemplate => inTemplate token b
  | .afterBody => afterBody token b
  | .inFrameset => inFrameset token b
  | .afterFrameset => afterFrameset token b
  | .afterAfterBody => afterAfterBody token b
  | .afterAfterFrameset => afterAfterFrameset token b

/-- Whether an annotation says that it is HTML. -/
def isHtmlAnnotation (e : Element) (b : Builder) : Bool :=
  e.vocabulary == .math && e.tag == "annotation-xml".toList &&
    (Attribute.find? "encoding" (b.draft.attributesOf e.node)).any fun v =>
      v.equalsIgnoringCase "text/html" || v.equalsIgnoringCase "application/xhtml+xml"

/-- Whether the innermost element is of another vocabulary. -/
def inForeign (b : Builder) : Bool := b.stack.head?.any fun e => e.vocabulary != .html

/-- Whether a token is read by the rules for other vocabularies. -/
def isForeign (token : Token) (b : Builder) : Bool :=
  match b.stack with
  | [] => false
  | e :: _ =>
    if e.vocabulary = .html then false
    else match token with
      | .finish => false
      | .text _ => !(e.holdsText || e.holdsHtml || b.isHtmlAnnotation e)
      | .startTag tag =>
        !(e.holdsHtml || b.isHtmlAnnotation e ||
          (e.holdsText && !(["mglyph", "malignmark"] : List Text).contains tag.name) ||
          (e.vocabulary == .math && e.tag == "annotation-xml".toList && tag.name == "svg".toList))
      | _ => true

/-- Start tags before which other vocabularies end. -/
def endsForeign : List Text :=
  (["b", "big", "blockquote", "body", "br", "center", "code", "dd", "div", "dl", "dt", "em",
   "embed", "h1", "h2", "h3", "h4", "h5", "h6", "head", "hr", "i", "img", "li", "listing", "menu",
   "meta", "nobr", "ol", "p", "pre", "ruby", "s", "small", "span", "strong", "strike", "sub", "sup",
   "table", "tt", "u", "ul", "var"] : List String).map String.toList

def isPlainFont (tag : Tag) : Bool :=
  tag.name == "font".toList &&
    tag.attributes.any fun a => (["color", "face", "size"] : List Text).contains a.name

/-- Closes all elements of other vocabularies in which HTML cannot stand. -/
def leaveForeign (b : Builder) : Builder :=
  b.onStack (Stack.popUntil fun e => e.vocabulary == .html || e.holdsText || e.holdsHtml)

/-- The stack after an end tag, which closes the element of its name if no HTML element is further
in; `none` if the end tag is for such an HTML element. The innermost element is no HTML element. -/
def closeForeign? (name : Text) (whole : Stack) (isFirst : Bool) : Stack → Option Stack
  | [] | [_] => some whole
  | e :: s =>
    if !isFirst && e.vocabulary = .html then none
    else if e.tag.equalsIgnoringCase name then some s
    else closeForeign? name whole false s

def readForeign (token : Token) (b : Builder) : Outcome :=
  match token with
  | .text t =>
    let seen := t.filter (· ≠ '\x00')
    let b := if seen.all isSpace then b else b.forbidFrames
    .done (b.insertText (replaceNull t))
  | .comment t => .done (b.insertComment t)
  | .startTag tag =>
    if endsForeign.contains tag.name || isPlainFont tag then
      let b := b.leaveForeign
      readIn b.mode token b
    else
      .done <|
        match b.stack with
        | e :: _ => b.startForeign e.vocabulary tag
        | [] => b
  | .endTag name =>
    if name = "br".toList || name = "p".toList then
      let b := b.leaveForeign
      readIn b.mode token b
    else match closeForeign? name b.stack true b.stack with
      | some s => .done { b with stack := s }
      | none => readIn b.mode token b
  | _ => .done b

end MarkdownExport.Html.Builder
