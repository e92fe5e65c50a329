import MarkdownExport.Html.Body

/-! Building tables. What cannot stand in a table is put in front of it. -/
namespace MarkdownExport.Html.Builder

def columnTags : List Text := ["caption", "col", "colgroup"]

/-- End tags that mean nothing directly in a table. -/
def strayEnds : List Text := ["body", "caption", "col", "colgroup", "html"]

/-- Closes what is open inside an element of the tags. -/
def clearTo (tags : List Text) (b : Builder) : Builder :=
  b.onStack (Stack.popUntil (Element.isOneOf ("template" :: "html" :: tags)))

/-- Closes what is open in a group of rows or a row. -/
def clearGroup (b : Builder) : Builder := b.clearTo rowGroups

def clearRow (b : Builder) : Builder := b.clearTo ["tr"]

/-- Reads a token as in the body, in front of the table. -/
def foster (token : Token) (b : Builder) : Outcome :=
  match inBody token { b with fosters := true } with
  | .done b => .done { b with fosters := false }
  | .again b => .again { b with fosters := false }

/-- Text directly in a table waits for what follows it. -/
def startTableText (t : Text) (b : Builder) : Outcome :=
  if b.stack.currentIs tableParts then
    .again { b with mode := .inTableText, returnMode := b.mode, tableText := [] }
  else foster (.text t) b

/-- White space stays in the table; other text goes in front of it. -/
def finishTableText (b : Builder) : Builder :=
  let t := b.tableText
  let b := { b with mode := b.returnMode, tableText := [] }
  if t.all isSpace then b.insertText t
  else { ({ b with fosters := true } : Builder).bodyText t with fosters := false }

def inTableText (token : Token) (b : Builder) : Outcome :=
  match token with
  | .text t => .done { b with tableText := b.tableText ++ t.filter (· ≠ '\x00') }
  | .doctype _ => .done b
  | _ => .again b.finishTableText

def startTableInput (tag : Tag) (b : Builder) : Outcome :=
  if isHidden tag then .done (b.insertVoid tag.name tag.attributes) else foster (.startTag tag) b

/-- A form in a table holds nothing. -/
def startTableForm (tag : Tag) (b : Builder) : Builder :=
  if b.form.isSome || b.stack.holds "template" then b
  else
    let (e, b) := b.insertElement .html tag.name tag.attributes
    { b with form := some e.node }

def closeTable (b : Builder) : Builder := (b.onStack (Stack.popThrough ["table"])).resetMode

def inTable (token : Token) (b : Builder) : Outcome :=
  let inContext := b.clearTo ["table"]
  match token with
  | .text t => b.startTableText t
  | .comment t => .done (b.insertComment t)
  | .doctype _ => .done b
  | .startTag tag =>
    let isOne (names : List Text) : Bool := names.contains tag.name
    let insert (b : Builder) : Builder := b.insert tag.name tag.attributes
    if isOne ["caption"] then .done ((insert inContext.separateFormats).enter .inCaption)
    else if isOne ["colgroup"] then .done ((insert inContext).enter .inColumnGroup)
    else if isOne ["col"] then .again ((inContext.insert "colgroup" []).enter .inColumnGroup)
    else if isOne rowGroups then .done ((insert inContext).enter .inTableBody)
    else if isOne ("tr" :: cells) then .again ((inContext.insert "tbody" []).enter .inTableBody)
    else if isOne ["table"] then
      if b.stack.hasInTableScope ["table"] then .again b.closeTable else .done b
    else if isOne ["style", "script", "template"] then .done (b.startHead tag)
    else if isOne ["input"] then b.startTableInput tag
    else if isOne ["form"] then .done (b.startTableForm tag)
    else foster token b
  | .endTag name =>
    if name = "table".toList then
      .done (if b.stack.hasInTableScope ["table"] then b.closeTable else b)
    else if strayEnds.contains name || name = "tr".toList || rowGroups.contains name ||
        cells.contains name then
      .done b
    else if name = "template".toList then .done b.endTemplate
    else foster token b
  | .finish => inBody token b

def inTableBody (token : Token) (b : Builder) : Outcome :=
  let closeAndAgain : Outcome :=
    if b.stack.hasInTableScope ["table", "tbody", "tfoot"] then
      .again ((b.clearGroup.onStack List.tail).enter .inTable)
    else .done b
  match token with
  | .startTag tag =>
    if tag.name = "tr".toList then
      .done ((b.clearGroup.insert tag.name tag.attributes).enter .inRow)
    else if cells.contains tag.name then .again ((b.clearGroup.insert "tr" []).enter .inRow)
    else if columnTags.contains tag.name || rowGroups.contains tag.name then closeAndAgain
    else inTable token b
  | .endTag name =>
    if rowGroups.contains name then
      .done <|
        if b.stack.hasInTableScope [name] then (b.clearGroup.onStack List.tail).enter .inTable
        else b
    else if name = "table".toList then closeAndAgain
    else if strayEnds.contains name || name = "tr".toList || cells.contains name then .done b
    else inTable token b
  | _ => inTable token b

def inRow (token : Token) (b : Builder) : Outcome :=
  let isOpen := b.stack.hasInTableScope ["tr"]
  let close : Builder := (b.clearRow.onStack List.tail).enter .inTableBody
  let closeAndAgain : Outcome := if isOpen then .again close else .done b
  match token with
  | .startTag tag =>
    if cells.contains tag.name then
      .done ((b.clearRow.insert tag.name tag.attributes).enter .inCell).separateFormats
    else if tag.name = "tr".toList || columnTags.contains tag.name || rowGroups.contains tag.name then
      closeAndAgain
    else inTable token b
  | .endTag name =>
    if name = "tr".toList then .done (if isOpen then close else b)
    else if name = "table".toList then closeAndAgain
    else if rowGroups.contains name then
      if b.stack.hasInTableScope [name] then closeAndAgain else .done b
    else if strayEnds.contains name || cells.contains name then .done b
    else inTable token b
  | _ => inTable token b

/-- Closes the innermost of some elements, and the formats in it. -/
def closeWithFormats (tags : List Text) (b : Builder) : Builder :=
  (b.onStack fun s => (s.closeImplied []).popThrough tags).clearFormats

def inCell (token : Token) (b : Builder) : Outcome :=
  let closeAndAgain : Outcome := .again ((b.closeWithFormats cells).enter .inRow)
  match token with
  | .startTag tag =>
    if tag.name = "tr".toList || columnTags.contains tag.name || rowGroups.contains tag.name ||
        cells.contains tag.name then
      if b.stack.hasInTableScope cells then closeAndAgain else .done b
    else inBody token b
  | .endTag name =>
    if cells.contains name then
      .done <|
        if b.stack.hasInTableScope [name] then (b.closeWithFormats [name]).enter .inRow else b
    else if strayEnds.contains name then .done b
    else if name = "table".toList || name = "tr".toList || rowGroups.contains name then
      if b.stack.hasInTableScope [name] then closeAndAgain else .done b
    else inBody token b
  | _ => inBody token b

def inCaption (token : Token) (b : Builder) : Outcome :=
  let isOpen := b.stack.hasInTableScope ["caption"]
  let close : Builder := (b.closeWithFormats ["caption"]).enter .inTable
  match token with
  | .startTag tag =>
    if tag.name = "tr".toList || columnTags.contains tag.name || rowGroups.contains tag.name ||
        cells.contains tag.name then
      if isOpen then .again close else .done b
    else inBody token b
  | .endTag name =>
    if name = "caption".toList then .done (if isOpen then close else b)
    else if name = "table".toList then if isOpen then .again close else .done b
    else if strayEnds.contains name || name = "tr".toList || rowGroups.contains name ||
        cells.contains name then
      .done b
    else inBody token b
  | _ => inBody token b

def inColumnGroup (token : Token) (b : Builder) : Outcome :=
  let isCurrent := b.stack.currentIs ["colgroup"]
  let close : Builder := (b.onStack List.tail).enter .inTable
  let leave : Outcome := if isCurrent then .again close else .done b
  match token with
  | .text t => if t.all isSpace then .done (b.insertText t) else leave
  | .comment t => .done (b.insertComment t)
  | .doctype _ => .done b
  | .startTag tag =>
    if tag.name = "html".toList then .done (b.addToRoot tag.attributes)
    else if tag.name = "col".toList then .done (b.insertVoid tag.name tag.attributes)
    else if tag.name = "template".toList then .done (b.startHead tag)
    else leave
  | .endTag name =>
    if name = "colgroup".toList then .done (if isCurrent then close else b)
    else if name = "col".toList then .done b
    else if name = "template".toList then .done b.endTemplate
    else leave
  | .finish => inBody token b

end MarkdownExport.Html.Builder
