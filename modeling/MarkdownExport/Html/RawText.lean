import MarkdownExport.Html.Token

/-! Text without markup, which goes on up to the end tag of the element that it stands in. -/
namespace MarkdownExport.Html

inductive RawKind where
  /-- Text with references. -/
  | escapable
  | raw
  | script
  /-- Text up to the end of the document. -/
  | endless
  deriving DecidableEq, Repr

/-- Whether a text begins with `head`, and a name ends there. -/
def startsName (head t : Text) : Bool :=
  match dropIgnoringCase? head t with
  | some (c :: _) => endsWord c
  | _ => false

/-- Splits before the end tag of `tag`. -/
def splitRaw (tag : Text) : Text → Text × Text
  | [] => ([], [])
  | c :: t =>
    if startsName ("</" ++ tag) (c :: t) then ([], c :: t)
    else
      let (content, rest) := splitRaw tag t
      (c :: content, rest)

/-- What a part of a script is: code, a comment in it, or a script in such a comment. -/
inductive ScriptPart where
  | code | comment | nested
  deriving DecidableEq, Repr

/-- What follows the scalar at the start of a text, and how many dashes in a row come before that. -/
def ScriptPart.next (part : ScriptPart) (dashes : Nat) (t : Text) : ScriptPart × Nat :=
  match t with
  | '<' :: _ =>
    match part with
    | .code => (if Text.startsWith t "<!--" then .comment else .code, 0)
    | .comment => (if startsName "<script" t then .nested else .comment, 0)
    | .nested => (if startsName "</script" t then .comment else .nested, 0)
  | '-' :: _ => (part, dashes + 1)
  | '>' :: _ => (if 2 ≤ dashes then .code else part, 0)
  | _ => (part, 0)

/-- Splits before the end tag of a script, which is none in a script in a comment. -/
def splitScript (part : ScriptPart) (dashes : Nat) : Text → Text × Text
  | [] => ([], [])
  | c :: t =>
    if part ≠ .nested && startsName "</script" (c :: t) then ([], c :: t)
    else
      let (part, dashes) := part.next dashes (c :: t)
      let (content, rest) := splitScript part dashes t
      (c :: content, rest)

/-- The text in the element `tag`, and what follows. -/
def readRaw (kind : RawKind) (tag t : Text) : Text × Text :=
  let (content, rest) := match kind with
    | .escapable | .raw => splitRaw tag t
    | .script => splitScript .code 0 t
    | .endless => (t, [])
  let content := replaceNull content
  (if kind = .escapable then decode false content else content, rest)

end MarkdownExport.Html
