import MarkdownExport.Tree.Basic
import MarkdownExport.Xml.Entity

/-! XML tags and their attributes. -/
namespace MarkdownExport.Xml

def isSpace (c : Char) : Bool := c == ' ' || c == '\n' || c == '\r' || c == '\t'

/-- A tag with its attributes' values as they are written. -/
structure Tag where
  name : Text
  attributes : List Attribute
  deriving DecidableEq, Repr

/-- The value of the first attribute of that name, if its entities can be read. -/
def Tag.value? (key : Text) (tag : Tag) : Option Text :=
  match tag.attributes.find? fun a => a.name == key with
  | some a => (unescape a.value).toOption
  | none => none

/-- The name without what comes up to its first colon. -/
def Tag.localName (tag : Tag) : Text :=
  match tag.name.dropWhile (· ≠ ':') with
  | ':' :: name => name
  | _ => tag.name

def skipWord (t : Text) : Text := (t.dropWhile fun c => !isSpace c).drop 1

/-- The attributes in the text after a tag's name. A name takes its first scalar whatever it is, and
ends before the next `=` or space. A word without `=`, an unquoted value and the repetition of a name
in `seen` are passed over; after the last two, reading goes on at the next space, which may stand
inside quotes. Every step takes at least one scalar, so a text's length is fuel enough. -/
def attributesFrom : (fuel : Nat) → (seen : List Text) → Text → List Attribute
  | 0, _, _ => []
  | fuel + 1, seen, t =>
    match t.dropWhile isSpace with
    | [] => []
    | first :: start =>
      let (more, rest) := start.span fun c => c ≠ '=' && !isSpace c
      let key := first :: more
      match rest.dropWhile isSpace with
      | '=' :: rest =>
        if key ∈ seen then attributesFrom fuel seen (skipWord ('=' :: rest))
        else match rest.dropWhile isSpace with
          | [] => []
          | quote :: rest =>
            if quote = '"' || quote = '\'' then
              match rest.span (· ≠ quote) with
              | (value, _ :: rest) => ⟨key, value⟩ :: attributesFrom fuel (key :: seen) rest
              | (_, []) => []
            else attributesFrom fuel (key :: seen) (skipWord (quote :: rest))
      | rest => attributesFrom fuel seen rest

/-- Reads what stands between a tag's brackets, without the slash of an empty tag. -/
def Tag.ofContent (content : Text) : Tag :=
  let (name, rest) := content.span fun c => !isSpace c
  ⟨name, attributesFrom rest.length [] rest⟩

end MarkdownExport.Xml
