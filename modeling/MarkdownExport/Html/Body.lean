import MarkdownExport.Html.Head

/-! Building the body of an HTML document. -/
namespace MarkdownExport.Html.Builder

def blocks : List Text :=
  ["address", "article", "aside", "blockquote", "center", "details", "dialog", "dir", "div", "dl",
   "fieldset", "figcaption", "figure", "footer", "header", "hgroup", "main", "menu", "nav", "ol",
   "p", "search", "section", "summary", "ul"]

/-- Blocks and others whose end tags close what is open in them. -/
def closedAsBlock : List Text :=
  ["address", "article", "aside", "blockquote", "button", "center", "details", "dialog", "dir",
   "div", "dl", "fieldset", "figcaption", "figure", "footer", "header", "hgroup", "listing", "main",
   "menu", "nav", "ol", "pre", "search", "section", "select", "summary", "ul"]

def formatTags : List Text :=
  ["b", "big", "code", "em", "font", "i", "s", "small", "strike", "strong", "tt", "u"]

def plainVoid : List Text := ["area", "br", "embed", "img", "keygen", "wbr"]

def mediaVoid : List Text := ["param", "source", "track"]

def embedding : List Text := ["applet", "marquee", "object"]

/-- Start tags that mean nothing outside a table or a frameset. -/
def misplaced : List Text :=
  ["caption", "col", "colgroup", "frame", "head", "tbody", "td", "tfoot", "th", "thead", "tr"]

/-- An item ends the item before it, which may be some elements out, but not those of an outer
list. -/
def closeItem (tags : List Text) (b : Builder) : Builder :=
  let isStop (e : Element) : Bool := e.isOneOf special && !e.isOneOf ["address", "div", "p"]
  match b.stack.find? fun e => e.isOneOf tags || isStop e with
  | some e => if e.isOneOf tags then b.onStack (Stack.closeElement e.tag) else b
  | none => b

def isHidden (tag : Tag) : Bool :=
  (Attribute.find? "type" tag.attributes).any fun v => v.equalsIgnoringCase "hidden"

def closeOption (b : Builder) : Builder :=
  if b.stack.currentIs ["option"] then b.onStack List.tail else b

/-- Options of a list end one another wherever they are; elsewhere only what is innermost ends. -/
def startOption (tag : Tag) (b : Builder) : Builder :=
  let except : Text := if tag.name = "option".toList then "optgroup" else []
  let b := if b.stack.hasInScope ["select"] then b.onStack (Stack.closeImplied except)
    else b.closeOption
  b.reopenFormats.insert tag.name tag.attributes

/-- A field inside a list of options ends the list. -/
def leaveSelect (b : Builder) : Builder :=
  if b.stack.hasInScope ["select"] then b.onStack (Stack.popThrough ["select"]) else b

def startInput (tag : Tag) (b : Builder) : Builder :=
  let b := b.leaveSelect.reopenFormats.insertVoid tag.name tag.attributes
  if isHidden tag then b else b.forbidFrames

def startSelect (tag : Tag) (b : Builder) : Builder :=
  if b.stack.hasInScope ["select"] then b.leaveSelect
  else (b.reopenFormats.insert tag.name tag.attributes).forbidFrames

def startRule (tag : Tag) (b : Builder) : Builder :=
  let b := b.closeParagraph
  let b := if b.stack.hasInScope ["select"] then b.onStack (Stack.closeImplied []) else b
  (b.insertVoid tag.name tag.attributes).forbidFrames

/-- A link ends the link before it. -/
def startLink (tag : Tag) (b : Builder) : Builder :=
  let b := match b.recentFormats.find? fun f => f.tag == tag.name with
    | some f => ((b.endFormatTag tag.name).removeFormat f.node).onStack (Stack.remove f.node)
    | none => b
  b.reopenFormats.insertFormat tag.name tag.attributes

def startNobr (tag : Tag) (b : Builder) : Builder :=
  let b := b.reopenFormats
  let b := if b.stack.hasInScope [tag.name] then (b.endFormatTag tag.name).reopenFormats else b
  b.insertFormat tag.name tag.attributes

def startButton (tag : Tag) (b : Builder) : Builder :=
  let b := if b.stack.hasInScope [tag.name] then
      b.onStack fun s => (s.closeImplied []).popThrough [tag.name]
    else b
  (b.reopenFormats.insert tag.name tag.attributes).forbidFrames

def startForm (tag : Tag) (b : Builder) : Builder :=
  let inTemplate := b.stack.holds "template"
  if b.form.isSome && !inTemplate then b
  else
    let (e, b) := b.closeParagraph.insertElement .html tag.name tag.attributes
    let b := b.push e
    if inTemplate then b else { b with form := some e.node }

def startTable (tag : Tag) (b : Builder) : Builder :=
  let b := if b.looseTables then b else b.closeParagraph
  (b.insert tag.name tag.attributes).forbidFrames.enter .inTable

def startHeading (tag : Tag) (b : Builder) : Builder :=
  let b := b.closeParagraph
  let b := if b.stack.currentIs headings then b.onStack List.tail else b
  b.insert tag.name tag.attributes

def startRuby (except : Text) (tag : Tag) (b : Builder) : Builder :=
  let b := if b.stack.hasInScope ["ruby"] then b.onStack (Stack.closeImplied except) else b
  b.insert tag.name tag.attributes

/-- A repeated start tag of the body adds its attributes. -/
def addToBody (attributes : List Attribute) (b : Builder) : Builder :=
  match b.stack.reverse with
  | _ :: e :: _ =>
    if e.isA "body" && !b.stack.holds "template" then b.forbidFrames.addAttributes e.node attributes
    else b
  | _ => b

/-- Frames take the place of a body that has nothing in it. -/
def startFrameset (tag : Tag) (b : Builder) : Builder :=
  match b.stack.reverse with
  | root :: e :: _ =>
    if b.allowsFrames && e.isA "body" then
      let b := { b with draft := b.draft.detach e.node, stack := [root] }
      (b.insert tag.name tag.attributes).enter .inFrameset
    else b
  | _ => b

/-- Attributes of other vocabularies lose what stands before their colon. -/
def foreignAttributes : List (Text × Text) :=
  [("xlink:actuate", "actuate"), ("xlink:arcrole", "arcrole"), ("xlink:href", "href"),
   ("xlink:role", "role"), ("xlink:show", "show"), ("xlink:title", "title"),
   ("xlink:type", "type"), ("xml:lang", "lang"), ("xml:space", "space"), ("xmlns:xlink", "xlink")]

def startForeign (vocabulary : Vocabulary) (tag : Tag) (b : Builder) : Builder :=
  let attributes := tag.attributes.map fun a =>
    { a with name := (foreignAttributes.lookup a.name).getD a.name }
  let (e, b) := b.insertElement vocabulary tag.name attributes
  if tag.isClosed then b else b.push e

/-- Opens an element whose text comes without markup, after which there can be no frames. -/
def startRaw (kind : RawKind) (tag : Tag) (b : Builder) : Builder :=
  (b.insertRaw kind tag.name tag.attributes).forbidFrames

def startBody (tag : Tag) (b : Builder) : Builder :=
  let isOne (names : List Text) : Bool := names.contains tag.name
  let plain (b : Builder) : Builder := b.insert tag.name tag.attributes
  let void (b : Builder) : Builder := b.insertVoid tag.name tag.attributes
  if isOne ["html"] then b.addToRoot tag.attributes
  else if isOne headElements then b.startHead tag
  else if isOne ["body"] then b.addToBody tag.attributes
  else if isOne ["frameset"] then b.startFrameset tag
  else if isOne blocks then plain b.closeParagraph
  else if isOne headings then b.startHeading tag
  else if isOne ["pre", "listing"] then
    { (plain b.closeParagraph).forbidFrames with dropsNewline := true }
  else if isOne ["form"] then b.startForm tag
  else if isOne ["li"] then plain (b.forbidFrames.closeItem ["li"]).closeParagraph
  else if isOne ["dd", "dt"] then plain (b.forbidFrames.closeItem ["dd", "dt"]).closeParagraph
  else if isOne ["plaintext"] then
    { plain b.closeParagraph with raw := some (.endless, tag.name) }
  else if isOne ["button"] then b.startButton tag
  else if isOne ["a"] then b.startLink tag
  else if isOne formatTags then b.reopenFormats.insertFormat tag.name tag.attributes
  else if isOne ["nobr"] then b.startNobr tag
  else if isOne embedding then (plain b.reopenFormats).separateFormats.forbidFrames
  else if isOne ["table"] then b.startTable tag
  else if isOne plainVoid then (void b.reopenFormats).forbidFrames
  else if isOne ["input"] then b.startInput tag
  else if isOne ["image"] then
    (b.reopenFormats.insertVoid "img" tag.attributes).forbidFrames
  else if isOne mediaVoid then void b
  else if isOne ["hr"] then b.startRule tag
  else if isOne ["textarea"] then { b.startRaw .escapable tag with dropsNewline := true }
  else if isOne ["xmp"] then b.closeParagraph.reopenFormats.startRaw .raw tag
  else if isOne ["iframe"] then b.startRaw .raw tag
  else if isOne ["noembed", "noscript"] then b.insertRaw .raw tag.name tag.attributes
  else if isOne ["select"] then b.startSelect tag
  else if isOne ["option", "optgroup"] then b.startOption tag
  else if isOne ["rb", "rtc"] then b.startRuby [] tag
  else if isOne ["rp", "rt"] then b.startRuby "rtc" tag
  else if isOne ["math"] then b.startForeign .math tag
  else if isOne ["svg"] then b.startForeign .svg tag
  else if isOne misplaced then b
  else plain b.reopenFormats

/-- A form ends for what follows even where its element stays open. -/
def endForm (b : Builder) : Builder :=
  if b.stack.holds "template" then
    if b.stack.hasInScope ["form"] then
      b.onStack fun s => (s.closeImplied []).popThrough ["form"]
    else b
  else match b.form with
    | none => b
    | some node =>
      let b := { b with form := none }
      if b.stack.reaches (fun e => e.node == node) endsScope then
        b.onStack fun s => (s.closeImplied []).remove node
      else b

def endHeading (b : Builder) : Builder :=
  if b.stack.hasInScope headings then
    b.onStack fun s => (s.closeImplied []).popThrough headings
  else b

/-- An end tag other than those of the body and the document. -/
def endBody (name : Text) (b : Builder) : Builder :=
  let isOne (names : List Text) : Bool := names.contains name
  if isOne ["template"] then b.endTemplate
  else if isOne closedAsBlock then
    if b.stack.hasInScope [name] then
      b.onStack fun s => (s.closeImplied []).popThrough [name]
    else b
  else if isOne ["form"] then b.endForm
  else if isOne ["p"] then
    let b := if b.stack.hasInButtonScope name then b else b.insert name []
    b.onStack (Stack.closeElement name)
  else if isOne ["li"] then
    if b.stack.hasInListScope name then b.onStack (Stack.closeElement name) else b
  else if isOne ["dd", "dt"] then
    if b.stack.hasInScope [name] then b.onStack (Stack.closeElement name) else b
  else if isOne headings then b.endHeading
  else if isOne ["a", "nobr"] || isOne formatTags then b.endFormatTag name
  else if isOne embedding then
    if b.stack.hasInScope [name] then
      (b.onStack fun s => (s.closeImplied []).popThrough [name]).clearFormats
    else b
  else if isOne ["br"] then (b.reopenFormats.insertVoid name []).forbidFrames
  else b.closeOrdinary name

def bodyText (t : Text) (b : Builder) : Builder :=
  let t := t.filter (· ≠ '\x00')
  if t.isEmpty then b
  else
    let b := if t.all isSpace then b else b.forbidFrames
    b.reopenFormats.insertText t

def inBody (token : Token) (b : Builder) : Outcome :=
  match token with
  | .text t => .done (b.bodyText t)
  | .comment t => .done (b.insertComment t)
  | .doctype _ => .done b
  | .startTag tag => .done (b.startBody tag)
  | .endTag name =>
    if name = "body".toList then
      .done (if b.stack.hasInScope ["body"] then b.enter .afterBody else b)
    else if name = "html".toList then
      if b.stack.hasInScope ["body"] then .again (b.enter .afterBody) else .done b
    else .done (b.endBody name)
  | .finish => if b.templateModes.isEmpty then .done b else b.finishTemplate

end MarkdownExport.Html.Builder
