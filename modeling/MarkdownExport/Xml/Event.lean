import MarkdownExport.Xml.Tag

/-! XML as a sequence of tags and pieces of text, up to the first fault. -/
namespace MarkdownExport.Xml

inductive Event where
  | opened (tag : Tag)
  | empty (tag : Tag)
  | closed (name : Text)
  | text (raw : Text)
  deriving DecidableEq, Repr

inductive Construct where
  | element | comment | cdata | doctype | declaration | bang
  deriving DecidableEq, Repr

def Construct.name : Construct → Text
  | element => "Element"
  | comment => "Comment"
  | cdata => "CData"
  | doctype => "DOCTYPE"
  | declaration => "XmlDecl"
  | bang => "Bang"

inductive Error where
  | mismatched (expected found : Text)
  | unfinished (what : Construct)
  | unknownBang (shown : Char)
  | emptyDoctype
  | entity (e : EntityError)
  deriving DecidableEq, Repr

def Error.message : Error → Text
  | mismatched expected found => "Expecting </" ++ expected ++ "> found </" ++ found ++ ">"
  | unfinished what => "Unexpected EOF during reading " ++ what.name
  | unknownBang shown =>
    "Only Comment (\x60--\x60), CDATA (\x60[CDATA[\x60) and DOCTYPE (\x60DOCTYPE\x60) nodes " ++
      "can start with a '!', but symbol \x60" ++ [shown] ++ "\x60 found"
  | emptyDoctype => "DOCTYPE declaration must not be empty"
  | entity e => e.message

/-- What lies under an error: a faulty entity is a failure of its own. -/
def Error.causes : Error → List Text
  | entity e => [e.message]
  | _ => []

/-- The events before the first fault, and the fault. -/
structure Scan where
  events : List Event
  failure : Option Error
  deriving DecidableEq, Repr

namespace Scan

def nothing : Scan := ⟨[], none⟩

def fail (e : Error) : Scan := ⟨[], some e⟩

def prepend (event : Event) (s : Scan) : Scan := { s with events := event :: s.events }

end Scan

/-- Splits after a tag's content, which ends at the first `>` that stands in no quotes. -/
def splitTag (quote : Option Char) : Text → Option (Text × Text)
  | [] => none
  | c :: cs =>
    match quote with
    | some q =>
      (splitTag (if c = q then none else some q) cs).map fun (content, rest) =>
        (c :: content, rest)
    | none =>
      if c = '>' then some ([], cs)
      else
        (splitTag (if c = '"' || c = '\'' then some c else none) cs).map fun (content, rest) =>
          (c :: content, rest)

/-- Splits before the next `>`, which is dropped, or at the end of the text. -/
def splitClose (t : Text) : Text × Text :=
  let (content, rest) := t.span (· ≠ '>')
  (content, rest.drop 1)

/-- Splits around the first `>` before which `p` holds, where `before` is the text passed so far,
last scalar first. -/
def splitBang (p : Text → Bool) (before : Text) : Text → Option (Text × Text)
  | [] => none
  | c :: cs =>
    if c = '>' && p before then some (before.reverse, cs) else splitBang p (c :: before) cs

def endsComment (before : Text) : Bool := Text.startsWith before "--" && 4 ≤ before.length

def endsCData (before : Text) : Bool := Text.startsWith before "]]"

def balanced (before : Text) : Bool := before.count '<' == before.count '>'

/-- Whether a text begins with `start`, of which ASCII letters stand for both cases. -/
def startsAnyCase (t start : Text) : Bool :=
  Text.startsWith (t.map Char.toLower) (start.map Char.toLower)

/-- What follows markup that starts with `<!`. Its first scalar says what it is and where it ends,
and only then is the rest of its opening looked at. -/
def afterBang (t : Text) : Except Error Text :=
  let find (what : Construct) (ends : Text → Bool) (check : Text → Option Error) :
      Except Error Text :=
    match splitBang ends [] t with
    | none => .error (.unfinished what)
    | some (content, rest) =>
      match check content with
      | some e => .error e
      | none => .ok rest
  let opens (what : Construct) (yes : Bool) : Option Error :=
    if yes then none else some (.unfinished what)
  match t with
  | [] => .error (.unfinished .bang)
  | c :: _ =>
    if c = '-' then find .comment endsComment fun content =>
      opens .comment (Text.startsWith content "--")
    else if c = '[' then find .cdata endsCData fun content =>
      opens .cdata (startsAnyCase content "[CDATA[")
    else if c = 'D' || c = 'd' then find .doctype balanced fun content =>
      if !startsAnyCase content "DOCTYPE" then some (.unfinished .doctype)
      else if (content.drop 7).all isSpace then some .emptyDoctype
      else none
    else .error (.unknownBang (leadingByte c))

/-- Spaces after the name of an end tag do not count, unless there is nothing else. -/
def endName (content : Text) : Text :=
  if content.all isSpace then content
  else (content.reverse.dropWhile isSpace).reverse

/-- Reads a text inside the elements `stack`, innermost first. Every step takes at least one
scalar, so a text's length is fuel enough. -/
def scanFrom : (fuel : Nat) → (stack : List Text) → Text → Scan
  | 0, _, _ => .nothing
  | fuel + 1, stack, t =>
    match t with
    | [] => .nothing
    | ['<'] => .nothing
    | '<' :: '!' :: rest =>
      match afterBang rest with
      | .ok rest => scanFrom fuel stack rest
      | .error e => .fail e
    | '<' :: '?' :: rest =>
      let (content, rest) := splitClose rest
      if 1 < content.length && content.getLast? = some '?' then scanFrom fuel stack rest
      else .fail (.unfinished .declaration)
    | '<' :: '/' :: rest =>
      let (content, rest) := splitClose rest
      match stack with
      | [] => .fail (.mismatched [] content)
      | top :: stack =>
        let name := endName content
        if name = top then (scanFrom fuel stack rest).prepend (.closed name)
        else .fail (.mismatched top name)
    | '<' :: rest =>
      match splitTag none rest with
      | none => .fail (.unfinished .element)
      | some (content, rest) =>
        if content.getLast? = some '/' then
          (scanFrom fuel stack rest).prepend (.empty (Tag.ofContent content.dropLast))
        else
          let tag := Tag.ofContent content
          (scanFrom fuel (tag.name :: stack) rest).prepend (.opened tag)
    | t =>
      let (raw, rest) := t.span (· ≠ '<')
      (scanFrom fuel stack rest).prepend (.text raw)

def scan (t : Text) : Scan := scanFrom t.length [] t

end MarkdownExport.Xml
