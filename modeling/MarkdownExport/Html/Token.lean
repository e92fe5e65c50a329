import MarkdownExport.Html.Doctype
import MarkdownExport.Html.Reference
import MarkdownExport.Tree.Basic

/-! The tags, texts and comments of HTML. -/
namespace MarkdownExport.Html

structure Tag where
  name : Text
  attributes : List Attribute := []
  /-- Whether it ends in a slash. -/
  isClosed : Bool := false
  deriving DecidableEq, Repr

inductive Token where
  | text (content : Text)
  | startTag (tag : Tag)
  | endTag (name : Text)
  | comment (content : Text)
  | doctype (d : Doctype)
  | finish
  deriving DecidableEq, Repr

def newlines : Text → Text
  | '\r' :: '\n' :: t => '\n' :: newlines t
  | '\r' :: t => '\n' :: newlines t
  | c :: t => c :: newlines t
  | [] => []

/-- The input without a byte order mark and with plain newlines. -/
def clean (html : Text) : Text := newlines ((Text.dropStart? ['\ufeff'] html).getD html)

/-- Null scalars cannot stand in tags, comments and raw text. -/
def replaceNull (t : Text) : Text := t.replace '\x00' [replacement]

def addAttribute (attributes : List Attribute) (a : Attribute) : List Attribute :=
  if attributes.any fun b => b.name == a.name then attributes else attributes ++ [a]

def endsWord (c : Char) : Bool := isSpace c || c == '/' || c == '>'

/-- Reads an attribute's value in the text after its name. -/
def attributeValue (t : Text) : Text × Text :=
  match skipSpace t with
  | '=' :: rest =>
    match skipSpace rest with
    | '"' :: rest =>
      let (value, rest) := rest.span (· ≠ '"')
      (decode true value, rest.drop 1)
    | '\'' :: rest =>
      let (value, rest) := rest.span (· ≠ '\'')
      (decode true value, rest.drop 1)
    | rest =>
      let (value, rest) := rest.span fun c => !(isSpace c || c == '>')
      (decode true value, rest)
  | _ => ([], t)

/-- Reads the rest of a tag, and gives what follows it; a tag that does not end is `none`. The first
of several attributes with one name counts. Fuel beyond the length of the text is enough. -/
def tagFrom? : (fuel : Nat) → Tag → Text → Option (Tag × Text)
  | 0, _, _ => none
  | fuel + 1, tag, t =>
    match t with
    | [] => none
    | '>' :: rest => some (tag, rest)
    | '/' :: '>' :: rest => some ({ tag with isClosed := true }, rest)
    | c :: rest =>
      if isSpace c || c == '/' then tagFrom? fuel tag rest
      else
        let (name, rest) := rest.span fun c => !(endsWord c || c == '=')
        let (value, rest) := attributeValue rest
        let a : Attribute := ⟨replaceNull (Text.lower (c :: name)), replaceNull value⟩
        tagFrom? fuel { tag with attributes := addAttribute tag.attributes a } rest

/-- Reads a tag from its name on. -/
def tag? (fuel : Nat) (t : Text) : Option (Tag × Text) :=
  let (name, rest) := t.span fun c => !endsWord c
  tagFrom? fuel { name := replaceNull (Text.lower name) } rest

/-- Splits before and after the first occurrence of one of `ends`, or at the end if there is none. -/
def splitAtAny (ends : List Text) : Text → Text × Text
  | [] => ([], [])
  | c :: t =>
    match ends.findSome? fun e => Text.dropStart? e (c :: t) with
    | some rest => ([], rest)
    | none =>
      let (content, rest) := splitAtAny ends t
      (c :: content, rest)

/-- Splits after a comment's content, in the text after its opening dashes. -/
def splitComment (t : Text) : Text × Text :=
  match t with
  | '>' :: rest => ([], rest)
  | '-' :: '>' :: rest => ([], rest)
  | t => splitAtAny ["-->", "--!>"] t

/-- A comment that is none by its form ends at the next bracket. -/
def bogusComment (t : Text) : Option Token × Text :=
  let (content, rest) := splitAtAny [['>']] t
  (some (.comment (replaceNull content)), rest)

/-- Reads markup in the text after `<!`. Only among elements of another vocabulary is there markup
for plain text. -/
def declaration (inForeign : Bool) (t : Text) : Option Token × Text :=
  match Text.dropStart? "--" t, dropIgnoringCase? "doctype" t, Text.dropStart? "[CDATA[" t with
  | some rest, _, _ =>
    let (content, rest) := splitComment rest
    (some (.comment (replaceNull content)), rest)
  | none, some rest, _ =>
    let (content, rest) := splitAtAny [['>']] rest
    (some (.doctype (.ofContent content)), rest)
  | none, none, some rest =>
    if inForeign then
      let (content, rest) := splitAtAny ["]]>"] rest
      (if content.isEmpty then none else some (.text content), rest)
    else bogusComment t
  | none, none, none => bogusComment t

/-- Reads a token, if there is one, and gives what follows. At least one scalar is taken. The length
of the text is fuel enough. -/
def readToken (fuel : Nat) (inForeign : Bool) (t : Text) : Option Token × Text :=
  match t with
  | '<' :: '!' :: rest => declaration inForeign rest
  | '<' :: '?' :: rest => bogusComment ('?' :: rest)
  | '<' :: '/' :: '>' :: rest => (none, rest)
  | '<' :: '/' :: c :: rest =>
    if c.isAlpha then
      match tag? fuel (c :: rest) with
      | some (tag, rest) => (some (.endTag tag.name), rest)
      | none => (none, [])
    else bogusComment (c :: rest)
  | '<' :: c :: rest =>
    if c.isAlpha then
      match tag? fuel (c :: rest) with
      | some (tag, rest) => (some (.startTag tag), rest)
      | none => (none, [])
    else (some (.text ['<']), c :: rest)
  | ['<'] => (some (.text ['<']), [])
  | t =>
    let (content, rest) := t.span (· ≠ '<')
    (some (.text (decode false content)), rest)

end MarkdownExport.Html
