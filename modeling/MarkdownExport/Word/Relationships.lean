import MarkdownExport.Dictionary
import MarkdownExport.Xml.Event

/-! The relationships of a part: what its identifiers point at. -/
namespace MarkdownExport.Word

structure Relationship where
  target : Text
  kind : Text
  deriving DecidableEq, Repr

abbrev Relationships := Dictionary Relationship

namespace Relationships

def target? (id : Text) (rels : Relationships) : Option Text :=
  (rels.find? id).map Relationship.target

def countKind (suffix : Text) (rels : Relationships) : Nat :=
  rels.countP fun entry => entry.2.kind.endsWith suffix

/-- The entry of a tag, which needs an identifier and a target. -/
def entry? (tag : Xml.Tag) : Option (Text × Relationship) :=
  if tag.localName = "Relationship".toList then
    match tag.value? "Id", tag.value? "Target" with
    | some id, some target => some (id, ⟨target, (tag.value? "Type").getD []⟩)
    | _, _ => none
  else none

def step (rels : Relationships) : Xml.Event → Relationships
  | .opened tag | .empty tag =>
    match entry? tag with
    | some (id, rel) => rels.insert id rel
    | none => rels
  | _ => rels

def ofEvents (events : List Xml.Event) : Relationships := events.foldl step []

def ofScan (s : Xml.Scan) : Except Xml.Error Relationships :=
  match s.failure with
  | some e => .error e
  | none => .ok (ofEvents s.events)

end Relationships
end MarkdownExport.Word
