import MarkdownExport.Tree.Basic

/-! The elements of HTML by what they do to the elements around them. -/
namespace MarkdownExport.Html

inductive Vocabulary where
  | html | svg | math
  deriving DecidableEq, Repr

/-- Nodes of a tree under construction are numbered in the order in which they are made. -/
abbrev NodeId := Nat

/-- An element that is open. -/
structure Element where
  node : NodeId
  vocabulary : Vocabulary
  tag : Text
  deriving DecidableEq, Repr

namespace Element

def isA (tag : Text) (e : Element) : Bool := e.vocabulary == .html && e.tag == tag

def isOneOf (tags : List Text) (e : Element) : Bool := e.vocabulary == .html && tags.contains e.tag

/-- Text in such an element is read as HTML, and so are most start tags. -/
def holdsText (e : Element) : Bool :=
  e.vocabulary == .math && (["mi", "mo", "mn", "ms", "mtext"] : List Text).contains e.tag

/-- What stands in such an element is read as HTML. -/
def holdsHtml (e : Element) : Bool :=
  e.vocabulary == .svg && (["foreignobject", "desc", "title"] : List Text).contains e.tag

end Element

def headings : List Text := ["h1", "h2", "h3", "h4", "h5", "h6"]

def cells : List Text := ["td", "th"]

def rowGroups : List Text := ["tbody", "tfoot", "thead"]

/-- Elements of a table that have no place for text. -/
def tableParts : List Text := ["table", "tbody", "tfoot", "thead", "tr"]

/-- Elements whose end tags may be left out. -/
def impliedEnds : List Text :=
  ["dd", "dt", "li", "optgroup", "option", "p", "rb", "rp", "rt", "rtc"]

/-- Elements that end with a template. -/
def thoroughEnds : List Text :=
  ["caption", "colgroup", "dd", "dt", "li", "optgroup", "option", "p", "rb", "rp", "rt", "rtc",
   "tbody", "td", "tfoot", "th", "thead", "tr"]

/-- Elements that an end tag of another kind does not close. -/
def special : List Text :=
  (["address", "applet", "area", "article", "aside", "base", "basefont", "bgsound", "blockquote",
   "body", "br", "button", "caption", "center", "col", "colgroup", "dd", "details", "dir", "div",
   "dl", "dt", "embed", "fieldset", "figcaption", "figure", "footer", "form", "frame", "frameset",
   "h1", "h2", "h3", "h4", "h5", "h6", "head", "header", "hgroup", "hr", "html", "iframe", "img",
   "input", "isindex", "li", "link", "listing", "main", "marquee", "menu", "meta", "nav",
   "noembed", "noframes", "noscript", "object", "ol", "p", "param", "plaintext", "pre", "script",
   "search", "section", "select", "source", "style", "summary", "table", "tbody", "td", "template",
   "textarea", "tfoot", "th", "thead", "title", "tr", "track", "ul", "wbr", "xmp"] : List String).map
    String.toList

def scopeEnds : List Text :=
  ["applet", "caption", "html", "table", "td", "th", "marquee", "object", "select", "template"]

/-- Elements out of which no end tag reaches. -/
def endsScope (e : Element) : Bool := e.isOneOf scopeEnds || e.holdsText || e.holdsHtml

def endsListScope (e : Element) : Bool := endsScope e || e.isOneOf ["ol", "ul"]

def endsButtonScope (e : Element) : Bool := endsScope e || e.isA "button"

def endsTableScope (e : Element) : Bool := e.isOneOf ["html", "table", "template"]

/-- The open elements, innermost first. -/
abbrev Stack := List Element

namespace Stack

/-- Whether a target comes before a stop or is one. -/
def reaches (isTarget isStop : Element → Bool) : Stack → Bool
  | [] => false
  | e :: s => isTarget e || (!isStop e && reaches isTarget isStop s)

def hasInScope (tags : List Text) (s : Stack) : Bool := s.reaches (Element.isOneOf tags) endsScope

def hasInListScope (tag : Text) (s : Stack) : Bool := s.reaches (Element.isA tag) endsListScope

def hasInButtonScope (tag : Text) (s : Stack) : Bool := s.reaches (Element.isA tag) endsButtonScope

def hasInTableScope (tags : List Text) (s : Stack) : Bool :=
  s.reaches (Element.isOneOf tags) endsTableScope

def holds (tag : Text) (s : Stack) : Bool := s.any (Element.isA tag)

def currentIs (tags : List Text) (s : Stack) : Bool := s.head?.any (Element.isOneOf tags)

def popUntil (p : Element → Bool) (s : Stack) : Stack := s.dropWhile fun e => !p e

/-- Closes the innermost element of the tags and all inside it. -/
def popThrough (tags : List Text) (s : Stack) : Stack := (s.popUntil (Element.isOneOf tags)).tail

/-- Closes the elements whose end tags may be left out, but not those of the tag `except`. -/
def closeImplied (except : Text) (s : Stack) : Stack :=
  s.dropWhile fun e => e.isOneOf impliedEnds && e.tag != except

def closeElement (tag : Text) (s : Stack) : Stack := (s.closeImplied tag).popThrough [tag]

def closeParagraph (s : Stack) : Stack := if s.hasInButtonScope "p" then s.closeElement "p" else s

def remove (node : NodeId) (s : Stack) : Stack := s.filter fun e => e.node != node

def holdsNode (node : NodeId) (s : Stack) : Bool := s.any fun e => e.node == node

end Stack
end MarkdownExport.Html
