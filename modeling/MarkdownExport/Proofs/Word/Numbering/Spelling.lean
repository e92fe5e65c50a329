import Mathlib.Data.List.TakeWhile
import MarkdownExport.Proofs.Word.Faults
import MarkdownExport.Proofs.Word.Numbering.Notes

/-! The two spellings of an element without content. A definition, level or instance that is an
empty-element tag stays open up to the next tag of its kind, and what is said up to there is taken
to be said of it. The other elements, and relationships, are the same in both spellings. -/
namespace MarkdownExport.Word
open Xml (Event Tag)

/-- Apart from the numbering part, parts are the same, and that part means the same. -/
theorem snapshot_congr_numbering {package package' : Package} (profile : Profile)
    (hparts : ∀ name ≠ numberingPart, package'.part? name = package.part? name)
    (hnumbering : readOptional package' numberingPart [] Numbering.ofScan =
      readOptional package numberingPart [] Numbering.ofScan) :
    snapshot package' profile = snapshot package profile := by
  have htext (name : Text) (hname : name ≠ numberingPart) :
      package'.text? name = package.text? name := Package.text?_congr (hparts name hname)
  have hrelationships (name : Text) (hname : name ≠ numberingPart) :
      readOptional package' name [] Relationships.ofScan =
        readOptional package name [] Relationships.ofScan := by
    rw [readOptional, readOptional, htext name hname]
  have hnotes (numbering : Numbering) :
      readNotes package' numbering profile = readNotes package numbering profile := by
    rw [readNotes, readNotes, htext footnotesPart (by decide),
      hrelationships footnotesRelationshipsPart (by decide)]
  unfold snapshot readContents
  simp only [hnumbering, hnotes, htext documentPart (by decide),
    hrelationships documentRelationshipsPart (by decide)]

namespace Numbering

/-- What is said of a definition in a level, and of an instance, hangs on their being open. -/
def Note.hangsOn : Scope → Note → Bool
  | .definition, .format _ _ | .level, .format _ _ | .instantiation, .link _ _ => true
  | _, _ => false

/-- A start or an end of an element of that kind. -/
def isTagOf (scope : Scope) : Event → Bool
  | .opened tag | .empty tag => tag.name == scope.name
  | .closed name => name == scope.name
  | .text _ => false

/-- The events up to the next start or end of that kind. -/
def reach (scope : Scope) (events : List Event) : List Event :=
  events.takeWhile fun event => !isTagOf scope event

def beyond (scope : Scope) (events : List Event) : List Event :=
  events.dropWhile fun event => !isTagOf scope event

/-- The same is open but for one kind, of which nothing is open in `d`. -/
structure WithoutScope (scope : Scope) (c d : Context) : Prop where
  same : ∀ other ≠ scope, d other = c other
  none : d scope = none

section Scope
variable {scope : Scope} {c d : Context} {tag : Tag} {event : Event}

theorem WithoutScope.step (h : WithoutScope scope c d) (hevent : isTagOf scope event = false) :
    WithoutScope scope (c.step event) (d.step event) := by
  cases event with
  | opened tag | empty tag =>
    have hname : tag.name ≠ scope.name := beq_eq_false_iff_ne.mp hevent
    refine ⟨fun other hother => ?_, (if_neg hname).trans h.none⟩
    simp only [Context.step, Context.opened, h.same other hother]
  | closed name =>
    have hname : name ≠ scope.name := beq_eq_false_iff_ne.mp hevent
    refine ⟨fun other hother => ?_, (if_neg hname).trans h.none⟩
    simp only [Context.step, Context.closed, h.same other hother]
  | text raw => exact h

/-- The next tag of the kind makes up for the difference. -/
theorem WithoutScope.merge (h : WithoutScope scope c d) (hevent : isTagOf scope event = true) :
    d.step event = c.step event := by
  funext other
  by_cases hother : other = scope
  · subst hother
    cases event with
    | opened tag | empty tag =>
      have hname : tag.name = other.name := beq_iff_eq.mp hevent
      simp only [Context.step, Context.opened, if_pos hname]
    | closed name =>
      have hname : name = other.name := beq_iff_eq.mp hevent
      simp only [Context.step, Context.closed, if_pos hname]
    | text raw => cases hevent
  · cases event with
    | opened tag | empty tag => simp only [Context.step, Context.opened, h.same other hother]
    | closed name => simp only [Context.step, Context.closed, h.same other hother]
    | text raw => exact h.same other hother

/-- Where nothing of a kind is open, what hangs on it is not said. -/
theorem WithoutScope.noteOf? (h : WithoutScope scope c d) (tag : Tag) :
    (d.noteOf? tag).toList = (c.noteOf? tag).toList.filter fun note => !note.hangsOn scope := by
  by_cases hformat : tag.name = formatName
  · rw [Context.noteOf?_format hformat, Context.noteOf?_format hformat]
    cases scope with
    | definition =>
      rw [h.none, h.same .level nofun]
      split
      · cases c .definition <;> cases tag.value? valueKey <;> simp [Note.hangsOn]
      · rfl
    | level =>
      rw [h.none, if_neg nofun]
      split
      · cases c .definition <;> cases tag.value? valueKey <;> simp [Note.hangsOn]
      · rfl
    | instantiation =>
      rw [h.same .definition nofun, h.same .level nofun]
      split
      · cases c .definition <;> cases tag.value? valueKey <;> simp [Note.hangsOn]
      · rfl
  · by_cases hlink : tag.name = linkName
    · rw [Context.noteOf?_link hlink, Context.noteOf?_link hlink]
      cases scope with
      | definition | level =>
        rw [h.same .instantiation nofun]
        cases c .instantiation <;> cases tag.value? valueKey <;> simp [Note.hangsOn]
      | instantiation =>
        rw [h.none]
        cases c .instantiation <;> cases tag.value? valueKey <;> simp [Note.hangsOn]
    · rw [Context.noteOf?_other hformat hlink, Context.noteOf?_other hformat hlink]
      rfl

theorem WithoutScope.note? (h : WithoutScope scope c d) (event : Event) :
    (d.note? event).toList = (c.note? event).toList.filter fun note => !note.hangsOn scope := by
  cases event with
  | opened tag | empty tag => exact h.noteOf? tag
  | closed name | text raw => rfl

theorem note?_of_isTagOf (hevent : isTagOf scope event = true) : c.note? event = none := by
  cases event with
  | opened tag | empty tag => exact Context.noteOf?_scope (beq_iff_eq.mp hevent)
  | closed name | text raw => rfl

theorem WithoutScope.notes_reach (h : WithoutScope scope c d) {events : List Event}
    (hevents : ∀ event ∈ events, isTagOf scope event = false) :
    d.notes events = (c.notes events).filter (fun note => !note.hangsOn scope) ∧
      WithoutScope scope (events.foldl Context.step c) (events.foldl Context.step d) := by
  induction events generalizing c d with
  | nil => exact ⟨rfl, h⟩
  | cons event events ih =>
    rw [List.forall_mem_cons] at hevents
    obtain ⟨hnotes, hlater⟩ := ih (h.step hevents.1) hevents.2
    rw [Context.notes, Context.notes, List.filter_append, h.note?, hnotes]
    exact ⟨rfl, hlater⟩

theorem WithoutScope.notes_beyond (h : WithoutScope scope c d) (events : List Event) :
    d.notes (beyond scope events) = c.notes (beyond scope events) := by
  cases hbeyond : beyond scope events with
  | nil => rfl
  | cons event rest =>
    have hevent : isTagOf scope event = true := by
      have hhead := List.head?_dropWhile_not (fun event => !isTagOf scope event) events
      rw [show events.dropWhile (fun event => !isTagOf scope event) = event :: rest from hbeyond]
        at hhead
      simpa using hhead
    rw [Context.notes, Context.notes, note?_of_isTagOf hevent, note?_of_isTagOf hevent,
      h.merge hevent]

/-- What is said of a kind that is open or not: up to its next tag that makes the difference. -/
theorem WithoutScope.notes (h : WithoutScope scope c d) (events : List Event) :
    ∃ later, c.notes events = c.notes (reach scope events) ++ later ∧
      d.notes events =
        (c.notes (reach scope events)).filter (fun note => !note.hangsOn scope) ++ later := by
  have hsplit : reach scope events ++ beyond scope events = events :=
    List.takeWhile_append_dropWhile
  have hreach : ∀ event ∈ reach scope events, isTagOf scope event = false := fun event hevent => by
    simpa using List.mem_takeWhile_imp hevent
  obtain ⟨hnotes, hlater⟩ := h.notes_reach hreach
  refine ⟨((reach scope events).foldl Context.step c).notes (beyond scope events), ?_, ?_⟩
  · rw [← Context.notes_append, hsplit]
  · rw [← hnotes, ← hlater.notes_beyond, ← Context.notes_append, hsplit]

end Scope

/-! A part in two spellings. -/

/-- Nothing is said of an element after its empty-element tag. -/
def EndsInTime (before : List Event) (tag : Tag) (after : List Event) : Prop :=
  ∀ scope : Scope, tag.name = scope.name →
    ∀ note ∈ ((before.foldl Context.step Context.nothing).opened tag).notes (reach scope after),
      note.hangsOn scope = false

instance (before : List Event) (tag : Tag) (after : List Event) :
    Decidable (EndsInTime before tag after) := by
  unfold EndsInTime
  infer_instance

section Spellings
variable {before after : List Event} {tag : Tag}

theorem withoutScope_closed {scope : Scope} (hname : tag.name = scope.name) (c : Context) :
    WithoutScope scope c (c.closed tag.name) where
  same _ hother := if_neg fun heq => hother (Scope.name_injective (heq.symm.trans hname))
  none := if_pos hname

/-- Both spellings say the same exactly if nothing is said of the element after it. -/
theorem notes_respelled (before after : List Event) (tag : Tag) :
    Context.nothing.notes (before ++ .opened tag :: .closed tag.name :: after) =
        Context.nothing.notes (before ++ .empty tag :: after) ↔
      EndsInTime before tag after := by
  rw [Context.notes_append, Context.notes_append, List.append_right_inj]
  unfold EndsInTime
  generalize before.foldl Context.step Context.nothing = c
  change (c.noteOf? tag).toList ++ ((c.opened tag).closed tag.name).notes after =
    (c.noteOf? tag).toList ++ (c.opened tag).notes after ↔ _
  rw [List.append_right_inj]
  by_cases hscope : ∃ scope : Scope, tag.name = scope.name
  · obtain ⟨scope, hname⟩ := hscope
    obtain ⟨later, hopen, hclosed⟩ := (withoutScope_closed hname (c.opened tag)).notes after
    rw [hopen, hclosed, List.append_left_inj, List.filter_eq_self]
    constructor
    · intro hnone scope' hname' note hnote
      obtain rfl := Scope.name_injective (hname'.symm.trans hname)
      exact Bool.not_eq_true' _ ▸ hnone note hnote
    · intro htime note hnote
      rw [htime scope hname note hnote]
      rfl
  · rw [not_exists] at hscope
    rw [Context.closed_of_ne hscope]
    exact iff_of_true rfl fun scope hname => absurd hname (hscope scope)

theorem relationships_respelled :
    Relationships.ofEvents (before ++ .opened tag :: .closed tag.name :: after) =
      Relationships.ofEvents (before ++ .empty tag :: after) := by
  unfold Relationships.ofEvents
  rw [List.foldl_append, List.foldl_append]
  rfl

end Spellings

/-- Two parts that are one part with an element without content in either spelling. -/
structure Respelled (xml xml' : Text) (before : List Event) (tag : Tag) (after : List Event) :
    Prop where
  short : (Xml.scan xml).events = before ++ .empty tag :: after
  long : (Xml.scan xml').events = before ++ .opened tag :: .closed tag.name :: after
  failure : (Xml.scan xml').failure = (Xml.scan xml).failure

instance (xml xml' : Text) (before : List Event) (tag : Tag) (after : List Event) :
    Decidable (Respelled xml xml' before tag after) :=
  decidable_of_iff (_ ∧ _ ∧ _) ⟨fun h => ⟨h.1, h.2.1, h.2.2⟩, fun h => ⟨h.short, h.long, h.failure⟩⟩

/-- As relationships both parts are the same. As numbering they say the same exactly if nothing is
said of the element after its empty-element tag, and then numbering and snapshots are the same. -/
theorem snapshot_respelled {package package' : Package} {xml xml' : Text}
    {before after : List Event} {tag : Tag} (h : Respelled xml xml' before tag after)
    (hparts : ∀ name ≠ numberingPart, package'.part? name = package.part? name)
    (htext : package.text? numberingPart = .ok (some xml))
    (htext' : package'.text? numberingPart = .ok (some xml')) :
    Relationships.ofScan (Xml.scan xml') = Relationships.ofScan (Xml.scan xml) ∧
      (Context.nothing.notes (Xml.scan xml').events = Context.nothing.notes (Xml.scan xml).events ↔
        EndsInTime before tag after) ∧
      (EndsInTime before tag after →
        Numbering.ofScan (Xml.scan xml') = Numbering.ofScan (Xml.scan xml) ∧
        ∀ profile, snapshot package' profile = snapshot package profile) := by
  have hnotes := notes_respelled before after tag
  rw [← h.short, ← h.long] at hnotes
  refine ⟨?_, hnotes, fun htime => ?_⟩
  · rw [Relationships.ofScan, Relationships.ofScan, h.failure, h.short, h.long,
      relationships_respelled]
  · have hnumbering : Numbering.ofScan (Xml.scan xml') = Numbering.ofScan (Xml.scan xml) := by
      rw [Numbering.ofScan, Numbering.ofScan, h.failure, ofEvents_eq, ofEvents_eq,
        hnotes.mpr htime]
    refine ⟨hnumbering, fun profile => snapshot_congr_numbering profile hparts ?_⟩
    rw [readOptional, readOptional, htext, htext']
    exact congrArg (inPart numberingPart) hnumbering

/-! A definition in both spellings, with an instance of it. -/

def oneInstance (definition override : Text) : Text := List.flatten
  ["<w:numbering>", definition, "<w:num w:numId=\"1\">", "<w:abstractNumId w:val=\"0\"/>", override,
   "</w:num>", "</w:numbering>"]

/-- A list of one item that goes by that instance. -/
def oneItem (definition override : Text) : Package := .ofTexts
  [(documentPart, List.flatten
    ["<w:document>", "<w:p>", "<w:numPr>", "<w:numId w:val=\"1\"/>", "</w:numPr>", "<w:r>", "<w:t>",
     "x", "</w:t>", "</w:r>", "</w:p>", "</w:document>"]),
   (numberingPart, oneInstance definition override)]

def emptyTag : Text := "<w:abstractNum w:abstractNumId=\"0\"/>"

def startAndEnd : Text := "<w:abstractNum w:abstractNumId=\"0\">" ++ "</w:abstractNum>"

def definitionZero : Tag := ⟨"w:abstractNum", [⟨"w:abstractNumId", ['0']⟩]⟩

/-- What follows the definition. -/
def instanceEvents (override : Text) : List Event :=
  (Xml.scan (oneInstance emptyTag override)).events.drop 2

theorem text?_oneItem (definition override : Text) :
    (oneItem definition override).text? numberingPart =
      .ok (some (Package.dropByteOrderMarks (oneInstance definition override))) := by
  have hname : documentPart ≠ numberingPart := by decide
  rw [oneItem, Package.text?_ofTexts, Dictionary.find?, if_neg hname, Dictionary.find?, if_pos rfl]
  rfl

theorem part?_oneItem {name : Text} (hname : name ≠ numberingPart)
    (definition definition' override : Text) :
    (oneItem definition' override).part? name = (oneItem definition override).part? name := by
  simp [Package.part?, oneItem, Package.ofTexts, List.find?_cons, beq_false_of_ne hname.symm]

/-- A definition without content has no format, however it is spelled. -/
theorem snapshot_respelled_oneItem :
    Respelled (oneInstance emptyTag []) (oneInstance startAndEnd [])
        [.opened ⟨"w:numbering", []⟩] definitionZero (instanceEvents []) ∧
      EndsInTime [.opened ⟨"w:numbering", []⟩] definitionZero (instanceEvents []) ∧
      snapshot (oneItem startAndEnd []) .strict = snapshot (oneItem emptyTag []) .strict := by
  have hread : Respelled (oneInstance emptyTag []) (oneInstance startAndEnd [])
        [.opened ⟨"w:numbering", []⟩] definitionZero (instanceEvents []) ∧
      EndsInTime [.opened ⟨"w:numbering", []⟩] definitionZero (instanceEvents []) ∧
      Package.dropByteOrderMarks (oneInstance emptyTag []) = oneInstance emptyTag [] ∧
      Package.dropByteOrderMarks (oneInstance startAndEnd []) = oneInstance startAndEnd [] := by
    decide +kernel
  obtain ⟨hrespelled, htime, hmark, hmark'⟩ := hread
  have htext := text?_oneItem emptyTag []
  have htext' := text?_oneItem startAndEnd []
  rw [hmark] at htext
  rw [hmark'] at htext'
  obtain ⟨-, -, hsame⟩ := snapshot_respelled hrespelled
    (fun name hname => part?_oneItem hname _ _ _) htext htext'
  exact ⟨hrespelled, htime, (hsame htime).2 .strict⟩

def formatOverride : Text := List.flatten
  ["<w:lvlOverride>", "<w:lvl w:ilvl=\"0\">", "<w:numFmt w:val=\"decimal\"/>", "</w:lvl>",
   "</w:lvlOverride>"]

/-- The format in the instance is taken for one of the definition. -/
theorem snapshot_respelled_override :
    Respelled (oneInstance emptyTag formatOverride) (oneInstance startAndEnd formatOverride)
        [.opened ⟨"w:numbering", []⟩] definitionZero (instanceEvents formatOverride) ∧
      (∃ s, snapshot (oneItem emptyTag formatOverride) .faithful = .ok s ∧
        s.html = "<ol><li>x</li></ol>") ∧
      ∃ s, snapshot (oneItem startAndEnd formatOverride) .faithful = .ok s ∧
        s.html = "<ul><li>x</li></ul>" := by
  refine ⟨by decide +kernel, exists_snapshot ?_, exists_snapshot ?_⟩
  · simp only [snapshot, readContents, readNotes, readOptional, oneItem, Package.text?_ofTexts]
    decide +kernel
  · simp only [snapshot, readContents, readNotes, readOptional, oneItem, Package.text?_ofTexts]
    decide +kernel

end Numbering
end MarkdownExport.Word
