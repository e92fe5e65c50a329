import MarkdownExport.Html.Format

/-! Building the head of an HTML document, and the elements that may stand in it. Text comes to the
modes before and after the head in pieces that are either all white space or have none. -/
namespace MarkdownExport.Html.Builder

def headVoid : List Text := ["base", "basefont", "bgsound", "link", "meta"]

/-- Elements of the head that may stand in the body too. -/
def headElements : List Text :=
  ["base", "basefont", "bgsound", "link", "meta", "noframes", "script", "style", "template", "title"]

/-- End tags that open what they would close, or are read as if it were there. -/
def openingEnds : List Text := ["body", "html", "br"]

def startHead (tag : Tag) (b : Builder) : Builder :=
  if headVoid.contains tag.name then b.insertVoid tag.name tag.attributes
  else if tag.name = "title".toList then b.insertRaw .escapable tag.name tag.attributes
  else if tag.name = "script".toList then b.insertRaw .script tag.name tag.attributes
  else if tag.name = "template".toList then
    let b := { b.separateFormats.forbidFrames with templateModes := .inTemplate :: b.templateModes }
    (b.insert tag.name tag.attributes).enter .inTemplate
  else b.insertRaw .raw tag.name tag.attributes

/-- Leaves the innermost template. -/
def leaveTemplate (b : Builder) : Builder :=
  let b := (b.onStack (Stack.popThrough ["template"])).clearFormats
  { b with templateModes := b.templateModes.tail }.resetMode

def endTemplate (b : Builder) : Builder :=
  if b.stack.holds "template" then
    (b.onStack fun s => s.dropWhile (Element.isOneOf thoroughEnds)).leaveTemplate
  else b

/-- At the end of the document the open templates end. -/
def finishTemplate (b : Builder) : Outcome :=
  if b.stack.holds "template" then .again b.leaveTemplate else .done b

/-- Puts a node in front of the root element or behind it. -/
def insertOutside (content : Content) (b : Builder) : Builder :=
  b.insertNode (.under Draft.root) content

def startRoot (attributes : List Attribute) (b : Builder) : Builder :=
  let e := b.draft.nextElement .html "html"
  let b := b.onDraft fun d => (d.addElement .html "html" attributes).append Draft.root e.node
  { b with stack := [e], mode := .beforeHead }

def startHeadElement (attributes : List Attribute) (b : Builder) : Builder :=
  let (e, b) := b.insertElement .html "head" attributes
  { b.push e with head := some e.node, mode := .inHead }

def initial (token : Token) (b : Builder) : Outcome :=
  match token with
  | .text t =>
    if t.all isSpace then .done b else .again { b with mode := .beforeHtml, looseTables := true }
  | .comment t => .done (b.insertOutside (.comment t))
  | .doctype d =>
    .done { b.insertOutside (.doctype d.name) with mode := .beforeHtml, looseTables := d.isLoose }
  | _ => .again { b with mode := .beforeHtml, looseTables := true }

def beforeHtml (token : Token) (b : Builder) : Outcome :=
  match token with
  | .text t => if t.all isSpace then .done b else .again (b.startRoot [])
  | .comment t => .done (b.insertOutside (.comment t))
  | .doctype _ => .done b
  | .startTag tag =>
    if tag.name = "html".toList then .done (b.startRoot tag.attributes)
    else .again (b.startRoot [])
  | .endTag name =>
    if name = "head".toList || openingEnds.contains name then .again (b.startRoot []) else .done b
  | .finish => .again (b.startRoot [])

def beforeHead (token : Token) (b : Builder) : Outcome :=
  match token with
  | .text t => if t.all isSpace then .done b else .again (b.startHeadElement [])
  | .comment t => .done (b.insertComment t)
  | .doctype _ => .done b
  | .startTag tag =>
    if tag.name = "html".toList then .done (b.addToRoot tag.attributes)
    else if tag.name = "head".toList then .done (b.startHeadElement tag.attributes)
    else .again (b.startHeadElement [])
  | .endTag name =>
    if name = "head".toList || openingEnds.contains name then .again (b.startHeadElement [])
    else .done b
  | .finish => .again (b.startHeadElement [])

def inHead (token : Token) (b : Builder) : Outcome :=
  let leave (b : Builder) : Builder := (b.onStack List.tail).enter .afterHead
  match token with
  | .text t => if t.all isSpace then .done (b.insertText t) else .again (leave b)
  | .comment t => .done (b.insertComment t)
  | .doctype _ => .done b
  | .startTag tag =>
    if tag.name = "html".toList then .done (b.addToRoot tag.attributes)
    else if headElements.contains tag.name || tag.name = "noscript".toList then
      .done (b.startHead tag)
    else if tag.name = "head".toList then .done b
    else .again (leave b)
  | .endTag name =>
    if name = "head".toList then .done (leave b)
    else if openingEnds.contains name then .again (leave b)
    else if name = "template".toList then .done b.endTemplate
    else .done b
  | .finish => .again (leave b)

/-- Elements that belong into the head are put there even after its end. -/
def startInClosedHead (tag : Tag) (b : Builder) : Builder :=
  match b.head with
  | none => b
  | some node => ((b.push ⟨node, .html, "head"⟩).startHead tag).onStack (Stack.remove node)

def afterHead (token : Token) (b : Builder) : Outcome :=
  let startBody (b : Builder) : Builder := (b.insert "body" []).enter .inBody
  match token with
  | .text t => if t.all isSpace then .done (b.insertText t) else .again (startBody b)
  | .comment t => .done (b.insertComment t)
  | .doctype _ => .done b
  | .startTag tag =>
    if tag.name = "html".toList then .done (b.addToRoot tag.attributes)
    else if tag.name = "body".toList then
      .done ((b.insert tag.name tag.attributes).forbidFrames.enter .inBody)
    else if tag.name = "frameset".toList then
      .done ((b.insert tag.name tag.attributes).enter .inFrameset)
    else if headElements.contains tag.name then .done (b.startInClosedHead tag)
    else if tag.name = "head".toList then .done b
    else .again (startBody b)
  | .endTag name =>
    if name = "template".toList then .done b.endTemplate
    else if openingEnds.contains name then .again (startBody b)
    else .done b
  | .finish => .again (startBody b)

/-- Inside an element that holds only text. -/
def inText (token : Token) (b : Builder) : Outcome :=
  let back : Builder := { b with stack := b.stack.tail, mode := b.returnMode }
  match token with
  | .text t => .done (b.insertText t)
  | .endTag _ => .done back
  | _ => .again back

end MarkdownExport.Html.Builder
