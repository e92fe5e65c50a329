import MarkdownExport.Proofs.Markdown.Overrides
import MarkdownExport.Word.Numbering

/-! What a numbering part says, in the order in which it is said: formats of definitions and links
of instances. What is noted hangs on what is open, and the last of what is noted counts. -/
namespace MarkdownExport

/-- What a key is given among entries, in their order. -/
def Dictionary.values {α : Type} (k : Text) (entries : List (Text × α)) : List α :=
  entries.filterMap fun e => if e.1 = k then some e.2 else none

theorem Dictionary.find?_eq_head? {α : Type} (k : Text) (d : Dictionary α) :
    find? k d = (values k d).head? := by
  induction d with
  | nil => rfl
  | cons e d ih =>
    rw [find?, values, List.filterMap_cons]
    by_cases hkey : e.1 = k
    · simp [hkey]
    · rw [if_neg hkey, if_neg hkey]
      exact ih

/-- Of the values for a key the last one counts. -/
theorem Dictionary.find?_ofList {α : Type} (k : Text) (entries : List (Text × α)) :
    find? k (ofList entries) = (values k entries).getLast? := by
  rw [ofList, find?_overlay, find?_nil, Option.or_none, find?_eq_head?, values,
    List.filterMap_reverse, List.head?_reverse]
  rfl

theorem Dictionary.find?_map {α β : Type} (g : α → β) (k : Text) (d : Dictionary α) :
    find? k (d.map fun e => (e.1, g e.2)) = (find? k d).map g := by
  induction d with
  | nil => rfl
  | cons e d ih =>
    rw [List.map_cons, find?, find?, ih]
    split <;> rfl

namespace Word.Numbering
open Xml (Event Tag)

/-- The elements that tell whose formats and links those inside are. -/
inductive Scope where
  | definition | level | instantiation
  deriving DecidableEq

instance {p : Scope → Prop} [DecidablePred p] : Decidable (∀ scope, p scope) :=
  decidable_of_iff (p .definition ∧ p .level ∧ p .instantiation)
    ⟨fun ⟨hd, hl, hi⟩ scope => by cases scope <;> assumption, fun h => ⟨h _, h _, h _⟩⟩

namespace Scope

def name : Scope → Text
  | definition => "w:abstractNum"
  | level => "w:lvl"
  | instantiation => "w:num"

/-- The attribute that tells one of them from another. -/
def key : Scope → Text
  | definition => "w:abstractNumId"
  | level => "w:ilvl"
  | instantiation => "w:numId"

end Scope

theorem Scope.name_injective : Function.Injective Scope.name := by
  intro a b h
  cases a <;> cases b <;> first | rfl | exact absurd h (by decide)

def formatName : Text := "w:numFmt"

def linkName : Text := "w:abstractNumId"

def valueKey : Text := "w:val"

theorem formatName_ne (scope : Scope) : formatName ≠ scope.name := by
  cases scope <;> decide

theorem linkName_ne (scope : Scope) : linkName ≠ scope.name := by
  cases scope <;> decide

theorem linkName_ne_formatName : linkName ≠ formatName := by decide

/-- The value for each scope that is taken to be open. -/
abbrev Context := Scope → Option Text

/-- The innermost definition has a format for level 0, or the innermost instance a definition. -/
inductive Note where
  | format (definition format : Text)
  | link (instantiation definition : Text)
  deriving DecidableEq

namespace Context

def opened (c : Context) (tag : Tag) : Context := fun scope =>
  if tag.name = scope.name then tag.value? scope.key else c scope

def closed (c : Context) (name : Text) : Context := fun scope =>
  if name = scope.name then none else c scope

def step (c : Context) : Event → Context
  | .opened tag | .empty tag => c.opened tag
  | .closed name => c.closed name
  | .text _ => c

def noteOf? (c : Context) (tag : Tag) : Option Note :=
  if tag.name = formatName ∧ c .level = some ['0'] then
    (c .definition).bind fun id => (tag.value? valueKey).map (Note.format id)
  else if tag.name = linkName then
    (c .instantiation).bind fun id => (tag.value? valueKey).map (Note.link id)
  else none

def note? (c : Context) : Event → Option Note
  | .opened tag | .empty tag => c.noteOf? tag
  | .closed _ | .text _ => none

theorem closed_of_ne {c : Context} {name : Text} (h : ∀ scope : Scope, name ≠ scope.name) :
    c.closed name = c :=
  funext fun scope => if_neg (h scope)

/-- What the events say where `c` is open. -/
def notes (c : Context) : List Event → List Note
  | [] => []
  | event :: events => (c.note? event).toList ++ notes (c.step event) events

def nothing : Context := fun _ => none

theorem notes_append (c : Context) (es fs : List Event) :
    c.notes (es ++ fs) = c.notes es ++ (es.foldl step c).notes fs := by
  induction es generalizing c with
  | nil => rfl
  | cons event es ih =>
    rw [List.cons_append, notes, notes, ih, List.append_assoc]
    rfl

variable {c : Context} {tag : Tag}

theorem opened_of_ne (h : ∀ scope : Scope, tag.name ≠ scope.name) : c.opened tag = c :=
  funext fun scope => if_neg (h scope)

theorem opened_scope {scope : Scope} (h : tag.name = scope.name) (other : Scope) :
    c.opened tag other = if scope = other then tag.value? scope.key else c other := by
  rw [opened, h]
  by_cases hother : scope = other
  · subst hother
    rw [if_pos rfl, if_pos rfl]
  · rw [if_neg (Scope.name_injective.ne hother), if_neg hother]

theorem noteOf?_scope {scope : Scope} (h : tag.name = scope.name) : c.noteOf? tag = none := by
  rw [noteOf?, h, if_neg fun hformat => formatName_ne scope hformat.1.symm,
    if_neg (linkName_ne scope).symm]

theorem noteOf?_format (h : tag.name = formatName) :
    c.noteOf? tag = if c .level = some ['0'] then
      (c .definition).bind fun id => (tag.value? valueKey).map (Note.format id) else none := by
  rw [noteOf?, h, if_neg linkName_ne_formatName.symm]
  simp only [true_and]

theorem noteOf?_link (h : tag.name = linkName) :
    c.noteOf? tag =
      (c .instantiation).bind fun id => (tag.value? valueKey).map (Note.link id) := by
  rw [noteOf?, h, if_neg fun hformat => linkName_ne_formatName hformat.1, if_pos rfl]

theorem noteOf?_other (hformat : tag.name ≠ formatName) (hlink : tag.name ≠ linkName) :
    c.noteOf? tag = none := by
  rw [noteOf?, if_neg fun h => hformat h.1, if_neg hlink]

end Context

namespace Note

/-- Whether a format makes a definition ordered. -/
def order? : Note → Option (Text × Bool)
  | format id value => some (id, value != "bullet".toList)
  | link _ _ => none

def link? : Note → Option (Text × Text)
  | format _ _ => none
  | link id definition => some (id, definition)

def formats (id : Text) (ns : List Note) : List Text :=
  ns.filterMap fun
    | format id' value => if id' = id then some value else none
    | link _ _ => none

def links (id : Text) (ns : List Note) : List Text :=
  ns.filterMap fun
    | format _ _ => none
    | link id' definition => if id' = id then some definition else none

end Note

/-- A definition is ordered if its last format is there and is not the one of bullets. -/
def isOrdered (formats : List Text) : Bool := formats.getLast?.any (· != "bullet".toList)

theorem isOrdered_iff {formats : List Text} :
    isOrdered formats = true ↔ ∃ f, formats.getLast? = some f ∧ f ≠ "bullet".toList := by
  rw [isOrdered, Option.any_eq_true]
  exact exists_congr fun f => and_congr_right fun _ => bne_iff_ne

/-- The numbering that notes amount to. -/
def ofNotes (ns : List Note) : Numbering :=
  (Dictionary.ofList (ns.filterMap Note.link?)).map fun e =>
    (e.1, isOrdered (Note.formats e.2 ns))

/-! The state of the reader. -/

/-- The reader takes `c` to be open and has heard the notes `ns`. -/
structure Follows (c : Context) (ns : List Note) (s : State) : Prop where
  definition : s.currentDefinition = c .definition
  instantiation : s.currentInstance = c .instantiation
  level : s.inLevelZero = decide (c .level = some ['0'])
  orders : s.ordered = Dictionary.ofList (ns.filterMap Note.order?)
  links : s.definition = Dictionary.ofList (ns.filterMap Note.link?)

theorem Follows.initial : Follows Context.nothing [] {} := ⟨rfl, rfl, rfl, rfl, rfl⟩

section Reader
variable {c : Context} {ns : List Note} {s : State} {tag : Tag}

theorem name_eq {name : Text} {spelling : String} (h : String.ofList name = spelling) :
    name = spelling.toList := by
  rw [← h, String.toList_ofList]

theorem opened_other {s : State} {tag : Tag} (hscope : ∀ scope : Scope, tag.name ≠ scope.name)
    (hformat : tag.name ≠ formatName) (hlink : tag.name ≠ linkName) : opened s tag = s := by
  unfold Numbering.opened
  split
  next h => exact absurd (name_eq h) (hscope .definition)
  next h => exact absurd (name_eq h) (hscope .level)
  next h => exact absurd (name_eq h) hformat
  next h => exact absurd (name_eq h) (hscope .instantiation)
  next h => exact absurd (name_eq h) hlink
  next => rfl

theorem Follows.opened_scope (h : Follows c ns s) {scope : Scope} (hname : tag.name = scope.name) :
    Follows (c.opened tag) ns (opened s tag) := by
  obtain ⟨hdefinition, hinst, hlevel, horders, hlinks⟩ := h
  have hopened := Context.opened_scope (c := c) hname
  unfold Numbering.opened
  rw [hname]
  cases scope with
  | definition =>
    exact ⟨(hopened .definition).symm, hinst.trans (hopened .instantiation).symm,
      by rw [hopened .level]; exact hlevel, horders, hlinks⟩
  | level =>
    exact ⟨hdefinition.trans (hopened .definition).symm,
      hinst.trans (hopened .instantiation).symm,
      by rw [hopened .level]; rfl, horders, hlinks⟩
  | instantiation =>
    exact ⟨hdefinition.trans (hopened .definition).symm, (hopened .instantiation).symm,
      by rw [hopened .level]; exact hlevel, horders, hlinks⟩

theorem opened_format (hname : tag.name = formatName) :
    opened s tag = if s.inLevelZero then
      s.currentDefinition.elim s fun id => (tag.value? valueKey).elim s fun format =>
        { s with ordered := s.ordered.insert id (format != "bullet".toList) }
      else s := by
  have hkey : tag.value? valueKey = tag.value? "w:val" := rfl
  obtain ⟨ordered, definition, current, inst, zero⟩ := s
  unfold Numbering.opened
  rw [hname, hkey]
  cases zero <;> cases current <;> cases tag.value? "w:val" <;> rfl

theorem opened_link (hname : tag.name = linkName) :
    opened s tag = s.currentInstance.elim s fun id => (tag.value? valueKey).elim s fun definition =>
      { s with definition := s.definition.insert id definition } := by
  have hkey : tag.value? valueKey = tag.value? "w:val" := rfl
  obtain ⟨ordered, definition, current, inst, zero⟩ := s
  unfold Numbering.opened
  rw [hname, hkey]
  cases inst <;> cases tag.value? "w:val" <;> rfl

theorem Follows.opened_format (h : Follows c ns s) (hname : tag.name = formatName) :
    Follows c (ns ++ (c.noteOf? tag).toList) (opened s tag) := by
  rw [Context.noteOf?_format hname, Numbering.opened_format hname, h.level]
  by_cases hzero : c .level = some ['0']
  · rw [if_pos hzero, if_pos (decide_eq_true hzero), h.definition]
    cases hid : c .definition with
    | none => simpa using h
    | some id =>
      cases tag.value? valueKey with
      | none => simpa using h
      | some value =>
        refine ⟨hid.symm, h.instantiation, rfl, ?_, ?_⟩
        · simp [Note.order?, Dictionary.ofList, Dictionary.overlay, h.orders]
        · simpa [List.filterMap_cons, Note.link?] using h.links
  · rw [if_neg hzero, if_neg fun hdecide => hzero (of_decide_eq_true hdecide)]
    simpa using h

theorem Follows.opened_link (h : Follows c ns s) (hname : tag.name = linkName) :
    Follows c (ns ++ (c.noteOf? tag).toList) (opened s tag) := by
  rw [Context.noteOf?_link hname, Numbering.opened_link hname, h.instantiation]
  cases hid : c .instantiation with
  | none => simpa using h
  | some id =>
    cases tag.value? valueKey with
    | none => simpa using h
    | some value =>
      refine ⟨h.definition, hid.symm, h.level, ?_, ?_⟩
      · simpa [List.filterMap_cons, Note.order?] using h.orders
      · simp [Note.link?, Dictionary.ofList, Dictionary.overlay, h.links]

theorem Follows.opened (h : Follows c ns s) (tag : Tag) :
    Follows (c.opened tag) (ns ++ (c.noteOf? tag).toList) (opened s tag) := by
  by_cases hscope : ∃ scope : Scope, tag.name = scope.name
  · obtain ⟨scope, hname⟩ := hscope
    rw [Context.noteOf?_scope hname, Option.toList_none, List.append_nil]
    exact h.opened_scope hname
  · rw [not_exists] at hscope
    rw [Context.opened_of_ne hscope]
    by_cases hformat : tag.name = formatName
    · exact h.opened_format hformat
    · by_cases hlink : tag.name = linkName
      · exact h.opened_link hlink
      · rw [Numbering.opened_other hscope hformat hlink, Context.noteOf?_other hformat hlink,
          Option.toList_none, List.append_nil]
        exact h

theorem Follows.closed (h : Follows c ns s) (name : Text) :
    Follows (c.closed name) ns (closed s name) := by
  obtain ⟨hdefinition, hinst, hlevel, horders, hlinks⟩ := h
  unfold Numbering.closed
  split
  next hname =>
    obtain rfl := name_eq hname
    exact ⟨hdefinition, hinst, rfl, horders, hlinks⟩
  next hname =>
    obtain rfl := name_eq hname
    exact ⟨rfl, hinst, hlevel, horders, hlinks⟩
  next hname =>
    obtain rfl := name_eq hname
    exact ⟨hdefinition, rfl, hlevel, horders, hlinks⟩
  next hlvl hdef hnum =>
    have hclosed : c.closed name = c := Context.closed_of_ne fun scope heq => by
      subst heq
      cases scope with
      | definition => exact hdef rfl
      | level => exact hlvl rfl
      | instantiation => exact hnum rfl
    rw [hclosed]
    exact ⟨hdefinition, hinst, hlevel, horders, hlinks⟩

theorem Follows.step (h : Follows c ns s) (event : Event) :
    Follows (c.step event) (ns ++ (c.note? event).toList) (Numbering.step s event) := by
  cases event with
  | opened tag | empty tag => exact h.opened tag
  | closed name =>
    rw [Context.note?, Option.toList_none, List.append_nil]
    exact h.closed name
  | text raw =>
    rw [Context.note?, Option.toList_none, List.append_nil]
    exact h

theorem Follows.run (h : Follows c ns s) (events : List Event) :
    Follows (events.foldl Context.step c) (ns ++ c.notes events)
      (events.foldl Numbering.step s) := by
  induction events generalizing c ns s with
  | nil => simpa [Context.notes] using h
  | cons event events ih =>
    rw [Context.notes, ← List.append_assoc]
    exact ih (h.step event)

end Reader

theorem find?_orders (ns : List Note) (id : Text) :
    ((Dictionary.ofList (ns.filterMap Note.order?)).find? id).getD false =
      isOrdered (Note.formats id ns) := by
  have hvalues : Dictionary.values id (ns.filterMap Note.order?) =
      (Note.formats id ns).map (· != "bullet".toList) := by
    rw [Dictionary.values, Note.formats, List.filterMap_filterMap, List.map_filterMap]
    refine List.filterMap_congr fun note _ => ?_
    cases note with
    | format id' value => by_cases hid : id' = id <;> simp [Note.order?, hid]
    | link => rfl
  rw [Dictionary.find?_ofList, hvalues, List.getLast?_map]
  cases hlast : (Note.formats id ns).getLast? <;> simp [isOrdered, hlast]

/-- A part gives the numbering that its notes amount to. -/
theorem ofEvents_eq (events : List Event) :
    ofEvents events = ofNotes (Context.nothing.notes events) := by
  have hrun := Follows.initial.run events
  rw [List.nil_append] at hrun
  rw [ofEvents, State.finish, hrun.links, ofNotes]
  refine List.map_congr_left fun (id, definition) _ => congrArg (Prod.mk id) ?_
  rw [hrun.orders, find?_orders]

/-- An instance has the kind of the last definition that it names. -/
theorem find?_ofNotes (ns : List Note) (id : Text) :
    (ofNotes ns).find? id = ((Note.links id ns).getLast?).map fun definition =>
      isOrdered (Note.formats definition ns) := by
  have hvalues : Dictionary.values id (ns.filterMap Note.link?) = Note.links id ns := by
    rw [Dictionary.values, Note.links, List.filterMap_filterMap]
    refine List.filterMap_congr fun note _ => ?_
    cases note with
    | format => rfl
    | link id' definition => rfl
  rw [ofNotes, Dictionary.find?_map fun definition => isOrdered (Note.formats definition ns),
    Dictionary.find?_ofList, hvalues]

end Word.Numbering
end MarkdownExport
