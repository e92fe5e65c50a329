import MarkdownExport.Html.Table

/-! Templates, frames, and what comes after the body or the frames. -/
namespace MarkdownExport.Html.Builder

/-- The mode in which a template goes on after a start tag. -/
def modeInTemplate (name : Text) : Mode :=
  if name = "caption".toList || name = "colgroup".toList || rowGroups.contains name then .inTable
  else if name = "col".toList then .inColumnGroup
  else if name = "tr".toList then .inTableBody
  else if cells.contains name then .inRow
  else .inBody

def inTemplate (token : Token) (b : Builder) : Outcome :=
  match token with
  | .text _ | .comment _ => inBody token b
  | .doctype _ => .done b
  | .startTag tag =>
    if headElements.contains tag.name then .done (b.startHead tag)
    else
      let mode := modeInTemplate tag.name
      .again { b with templateModes := mode :: b.templateModes.tail, mode }
  | .endTag name => .done (if name = "template".toList then b.endTemplate else b)
  | .finish => b.finishTemplate

def afterBody (token : Token) (b : Builder) : Outcome :=
  match token with
  | .text t => if t.all isSpace then inBody token b else .again (b.enter .inBody)
  | .comment t =>
    .done <|
      match b.stack.getLast? with
      | some root => b.insertNode (.under root.node) (.comment t)
      | none => b
  | .doctype _ | .finish => .done b
  | .startTag tag =>
    if tag.name = "html".toList then .done (b.addToRoot tag.attributes)
    else .again (b.enter .inBody)
  | .endTag name =>
    if name = "html".toList then .done (b.enter .afterAfterBody) else .again (b.enter .inBody)

def afterAfterBody (token : Token) (b : Builder) : Outcome :=
  match token with
  | .text t => if t.all isSpace then inBody token b else .again (b.enter .inBody)
  | .comment t => .done (b.insertOutside (.comment t))
  | .doctype _ | .finish => .done b
  | .startTag tag =>
    if tag.name = "html".toList then .done (b.addToRoot tag.attributes)
    else .again (b.enter .inBody)
  | .endTag _ => .again (b.enter .inBody)

def inFrameset (token : Token) (b : Builder) : Outcome :=
  .done <|
    match token with
    | .text t => if t.all isSpace then b.insertText t else b
    | .comment t => b.insertComment t
    | .doctype _ | .finish => b
    | .startTag tag =>
      if tag.name = "html".toList then b.addToRoot tag.attributes
      else if tag.name = "frameset".toList then b.insert tag.name tag.attributes
      else if tag.name = "frame".toList then b.insertVoid tag.name tag.attributes
      else if tag.name = "noframes".toList then b.startHead tag
      else b
    | .endTag name =>
      if name = "frameset".toList && b.stack.length ≠ 1 then
        let b := b.onStack List.tail
        if b.stack.currentIs ["frameset"] then b else b.enter .afterFrameset
      else b

def afterFrameset (token : Token) (b : Builder) : Outcome :=
  .done <|
    match token with
    | .text t => if t.all isSpace then b.insertText t else b
    | .comment t => b.insertComment t
    | .doctype _ | .finish => b
    | .startTag tag =>
      if tag.name = "html".toList then b.addToRoot tag.attributes
      else if tag.name = "noframes".toList then b.startHead tag
      else b
    | .endTag name => if name = "html".toList then b.enter .afterAfterFrameset else b

def afterAfterFrameset (token : Token) (b : Builder) : Outcome :=
  match token with
  | .text t => if t.all isSpace then inBody token b else .done b
  | .comment t => .done (b.insertOutside (.comment t))
  | .startTag tag =>
    .done <|
      if tag.name = "html".toList then b.addToRoot tag.attributes
      else if tag.name = "noframes".toList then b.startHead tag
      else b
  | _ => .done b

end MarkdownExport.Html.Builder
