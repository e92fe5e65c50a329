import MarkdownExport.Text.Basic

/-! Doctypes, of which only one thing matters: whether the document is laid out as before there were
standards. -/
namespace MarkdownExport.Html

def isSpace (c : Char) : Bool :=
  c == ' ' || c == '\n' || c == '\t' || c == '\x0c' || c == '\r'

def skipSpace (t : Text) : Text := t.dropWhile isSpace

def dropIgnoringCase? (head t : Text) : Option Text :=
  if Text.lower (t.take head.length) = head then some (t.drop head.length) else none

structure Doctype where
  name : Text
  publicId : Option Text := none
  systemId : Option Text := none
  /-- Whether something is wrong with it that makes all else void. -/
  isBroken : Bool := false
  deriving DecidableEq, Repr

namespace Doctype

/-- Reads a text in quotes. -/
def quoted? : Text → Option (Option Text × Text)
  | [] => none
  | q :: t =>
    if q = '"' ∨ q = '\'' then
      match t.span (· ≠ q) with
      | (id, _ :: rest) => some (some id, rest)
      | (_, []) => some (none, [])
    else none

/-- Reads the system identifier; what follows it does not matter. -/
def readSystem (d : Doctype) (t : Text) : Doctype :=
  match quoted? (skipSpace t) with
  | some (some id, _) => { d with systemId := some id }
  | _ => { d with isBroken := true }

def readPublic (d : Doctype) (t : Text) : Doctype :=
  match quoted? (skipSpace t) with
  | some (some id, rest) =>
    let d := { d with publicId := some id }
    if (skipSpace rest).isEmpty then d else d.readSystem rest
  | _ => { d with isBroken := true }

/-- Reads what stands between `<!doctype` and `>`. -/
def ofContent (content : Text) : Doctype :=
  let (name, rest) := (skipSpace content).span fun c => !isSpace c
  let d : Doctype := { name := Text.lower name, isBroken := name.isEmpty }
  let rest := skipSpace rest
  if rest.isEmpty then d
  else match dropIgnoringCase? "public" rest with
    | some rest => d.readPublic rest
    | none =>
      match dropIgnoringCase? "system" rest with
      | some rest => d.readSystem rest
      | none => { d with isBroken := true }

/-- The names of document types that were made before there were standards. -/
def looseTypes : List Text :=
  ["html", "html 2.0", "html 2.0 level 1", "html 2.0 level 2", "html 2.0 strict",
   "html 2.0 strict level 1", "html 2.0 strict level 2", "html 2.1e", "html 3",
   "html 3 1995-03-24", "html 3.0", "html 3.2", "html 3.2 draft", "html 3.2 final",
   "html 3.2s draft", "html 4.0 frameset", "html 4.0 transitional", "html experimental 19960712",
   "html experimental 970421", "html level 0", "html level 1", "html level 2", "html level 3",
   "html strict", "html strict level 0", "html strict level 1", "html strict level 2",
   "html strict level 3", "w3 html", "w3 html 3.0", "w3 html strict 3.0"]

/-- Types that count as loose only without a system identifier. -/
def mixedTypes : List Text := ["html 4.01 frameset", "html 4.01 transitional"]

/-- The type in a public identifier: the word `dtd` and the type stand after two pairs of slashes and
before a third. -/
def typeOf? (publicId : Text) : Option Text :=
  match publicId.lower.splitOn '/' with
  | _ :: _ :: _ :: _ :: type :: [] :: _ => Text.dropStart? "dtd " type
  | _ => none

/-- Whether a document with this doctype is laid out in the old way. -/
def isLoose (d : Doctype) : Bool :=
  d.isBroken || d.name != "html".toList ||
    match d.publicId with
    | none => false
    | some id =>
      id.lower == "html".toList ||
        (typeOf? id).any fun type =>
          looseTypes.contains type || (mixedTypes.contains type && d.systemId.isNone)

end Doctype
end MarkdownExport.Html
