import MarkdownExport.Dictionary
import MarkdownExport.Xml.Event

/-! Numbering definitions: which lists of a document are ordered. -/
namespace MarkdownExport.Word

/-- For each numbering instance whether its lists are ordered. -/
abbrev Numbering := Dictionary Bool

namespace Numbering

/-- What is known while a numbering part is read. -/
structure State where
  /-- Whether level 0 of an abstract definition is ordered. -/
  ordered : Dictionary Bool := []
  /-- The abstract definition of each instance. -/
  definition : Dictionary Text := []
  currentDefinition : Option Text := none
  currentInstance : Option Text := none
  inLevelZero : Bool := false

def opened (s : State) (tag : Xml.Tag) : State :=
  match String.ofList tag.name with
  | "w:abstractNum" => { s with currentDefinition := tag.value? "w:abstractNumId" }
  | "w:lvl" => { s with inLevelZero := tag.value? "w:ilvl" = some ['0'] }
  | "w:numFmt" =>
    if s.inLevelZero then
      match s.currentDefinition, tag.value? "w:val" with
      | some id, some format =>
        { s with ordered := s.ordered.insert id (format != "bullet".toList) }
      | _, _ => s
    else s
  | "w:num" => { s with currentInstance := tag.value? "w:numId" }
  | "w:abstractNumId" =>
    match s.currentInstance, tag.value? "w:val" with
    | some id, some definition => { s with definition := s.definition.insert id definition }
    | _, _ => s
  | _ => s

def closed (s : State) (name : Text) : State :=
  match String.ofList name with
  | "w:lvl" => { s with inLevelZero := false }
  | "w:abstractNum" => { s with currentDefinition := none }
  | "w:num" => { s with currentInstance := none }
  | _ => s

/-- An empty tag opens an element and leaves it open. -/
def step (s : State) : Xml.Event → State
  | .opened tag | .empty tag => opened s tag
  | .closed name => closed s name
  | .text _ => s

/-- A definition that is not there, or has no format for level 0, is not ordered. -/
def State.finish (s : State) : Numbering :=
  s.definition.map fun (id, definition) => (id, (s.ordered.find? definition).getD false)

def ofEvents (events : List Xml.Event) : Numbering := (events.foldl step {}).finish

def ofScan (s : Xml.Scan) : Except Xml.Error Numbering :=
  match s.failure with
  | some e => .error e
  | none => .ok (ofEvents s.events)

end Numbering
end MarkdownExport.Word
