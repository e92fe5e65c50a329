import Mathlib.Data.List.Nodup
import MarkdownExport.Proofs.Word.Numbering.Notes
import MarkdownExport.Proofs.Xml.Places

/-! Which lists are ordered, told by the elements of a numbering part. Where definitions, levels and
instances are not nested in their own kind, what is taken to be open is what is around. -/
namespace MarkdownExport.Word.Numbering
open Xml (Event Tag Place place? places placesIn enter enclosing nest nestStep Balanced)

/-- An element of that kind with that value is around. -/
def IsInside (around : List Tag) (scope : Scope) (value : Text) : Prop :=
  ∃ a ∈ around, a.name = scope.name ∧ a.value? scope.key = some value

instance (around : List Tag) (scope : Scope) (value : Text) :
    Decidable (IsInside around scope value) :=
  inferInstanceAs (Decidable (∃ a ∈ around, a.name = scope.name ∧ a.value? scope.key = some value))

/-- The values that tell the elements of a kind apart. -/
def ids (scope : Scope) (ps : List Place) : List Text :=
  ps.filterMap fun p => if p.tag.name = scope.name then p.tag.value? scope.key else none

/-- The formats for level 0 that stand in a definition. -/
def formats (id : Text) (ps : List Place) : List Text :=
  ps.filterMap fun p =>
    if p.tag.name = formatName ∧ IsInside p.around .level ['0'] ∧ IsInside p.around .definition id
    then p.tag.value? valueKey else none

/-- The definitions that an instance names. -/
def links (id : Text) (ps : List Place) : List Text :=
  ps.filterMap fun p =>
    if p.tag.name = linkName ∧ IsInside p.around .instantiation id then p.tag.value? valueKey
    else none

/-- A tag and one around it, which are not both definitions, levels or instances. -/
def Apart (tag outer : Tag) : Prop :=
  ∀ scope : Scope, tag.name = scope.name → outer.name ≠ scope.name

instance (tag outer : Tag) : Decidable (Apart tag outer) :=
  inferInstanceAs (Decidable (∀ scope : Scope, tag.name = scope.name → outer.name ≠ scope.name))

def emptyTag? : Event → Option Tag
  | .empty tag => some tag
  | _ => none

/-- Definitions, levels and instances have end tags and do not stand in their own kind. -/
structure IsPlain (events : List Event) : Prop where
  paired : ∀ tag ∈ events.filterMap emptyTag?, ∀ scope : Scope, tag.name ≠ scope.name
  apart : ∀ p ∈ places [] events, ∀ outer ∈ p.around, Apart p.tag outer

/-- Definitions are distinct, and so are instances, each of which names one definition. -/
structure IsNumbering (events : List Event) : Prop extends IsPlain events where
  definitions : (ids .definition (places [] events)).Nodup
  instantiations : (ids .instantiation (places [] events)).Nodup
  linked : ∀ id ∈ ids .instantiation (places [] events), (links id (places [] events)).length = 1

instance (events : List Event) : Decidable (IsPlain events) :=
  decidable_of_iff (_ ∧ _) ⟨fun h => ⟨h.1, h.2⟩, fun h => ⟨h.paired, h.apart⟩⟩

instance (events : List Event) : Decidable (IsNumbering events) :=
  decidable_of_iff (_ ∧ _ ∧ _ ∧ _) ⟨fun h => ⟨h.1, h.2.1, h.2.2.1, h.2.2.2⟩,
    fun h => ⟨h.toIsPlain, h.definitions, h.instantiations, h.linked⟩⟩

/-! What is open is what is around. -/

/-- What is taken to be open is around. -/
def Agrees (c : Context) (around : List Tag) : Prop :=
  ∀ scope value, c scope = some value ↔ IsInside around scope value

section Context
variable {c : Context} {around outer : List Tag} {tag : Tag} {scope : Scope} {value id : Text}

theorem isInside_cons :
    IsInside (tag :: around) scope value ↔
      tag.name = scope.name ∧ tag.value? scope.key = some value ∨ IsInside around scope value :=
  List.exists_mem_cons_iff _ tag around

theorem not_isInside (h : ∀ a ∈ around, Apart tag a) (hname : tag.name = scope.name) :
    ¬ IsInside around scope value := by
  rintro ⟨a, ha, hscope, -⟩
  exact h a ha scope hname hscope

theorem Agrees.initial : Agrees Context.nothing [] := fun _ _ =>
  iff_of_false nofun fun ⟨_, ha, _⟩ => absurd ha List.not_mem_nil

theorem Agrees.opened (h : Agrees c around) (hapart : ∀ a ∈ around, Apart tag a) :
    Agrees (c.opened tag) (tag :: around) := by
  intro scope value
  rw [isInside_cons, Context.opened]
  by_cases hname : tag.name = scope.name
  · rw [if_pos hname, or_iff_left (not_isInside hapart hname), and_iff_right hname]
  · rw [if_neg hname, h scope value, or_iff_right fun htag => hname htag.1]

theorem Agrees.closed (h : Agrees c (tag :: outer)) (hapart : ∀ a ∈ outer, Apart tag a) :
    Agrees (c.closed tag.name) outer := by
  intro scope value
  rw [Context.closed]
  by_cases hname : tag.name = scope.name
  · rw [if_pos hname]
    exact iff_of_false nofun (not_isInside hapart hname)
  · rw [if_neg hname, h scope value, isInside_cons, or_iff_right fun htag => hname htag.1]

/-- What a tag adds is said of the elements around it. -/
theorem formats_noteOf? (h : Agrees c around) (id : Text) (tag : Tag) :
    Note.formats id (c.noteOf? tag).toList = formats id [⟨around, tag⟩] := by
  have hlevel := h .level ['0']
  have hdefinition := h .definition id
  by_cases hname : tag.name = formatName
  · rw [Context.noteOf?_format hname]
    by_cases hzero : c .level = some ['0']
    · have hinside : IsInside around .level ['0'] := hlevel.mp hzero
      cases hid : c .definition with
      | none =>
        have hout : ¬ IsInside around .definition id := fun hin => by
          rw [← hdefinition, hid] at hin
          cases hin
        simp [formats, Note.formats, hout]
      | some id' =>
        rw [hid, Option.some_inj] at hdefinition
        cases hvalue : tag.value? valueKey <;>
          by_cases heq : id' = id <;>
            simp [formats, Note.formats, hname, hzero, hinside, hvalue, heq, ← hdefinition]
    · have hout : ¬ IsInside around .level ['0'] := mt hlevel.mpr hzero
      simp [formats, Note.formats, hzero, hout]
  · by_cases hlink : tag.name = linkName
    · rw [Context.noteOf?_link hlink]
      cases c .instantiation <;> cases tag.value? valueKey <;> simp [formats, Note.formats, hname]
    · rw [Context.noteOf?_other hname hlink]
      simp [formats, Note.formats, hname]

theorem links_noteOf? (h : Agrees c around) (id : Text) (tag : Tag) :
    Note.links id (c.noteOf? tag).toList = links id [⟨around, tag⟩] := by
  have hinst := h .instantiation id
  by_cases hname : tag.name = linkName
  · rw [Context.noteOf?_link hname]
    cases hid : c .instantiation with
    | none =>
      have hout : ¬ IsInside around .instantiation id := fun hin => by
        rw [← hinst, hid] at hin
        cases hin
      simp [links, Note.links, hout]
    | some id' =>
      rw [hid, Option.some_inj] at hinst
      cases hvalue : tag.value? valueKey <;>
        by_cases heq : id' = id <;>
          simp [links, Note.links, hname, hvalue, heq, ← hinst]
  · by_cases hformat : tag.name = formatName
    · rw [Context.noteOf?_format hformat]
      split
      · cases c .definition <;> cases tag.value? valueKey <;> simp [links, Note.links, hname]
      · simp [links, Note.links, hname]
    · rw [Context.noteOf?_other hformat hname]
      simp [links, Note.links, hname]

theorem formats_note? (h : Agrees c around) (id : Text) (event : Event) :
    Note.formats id (c.note? event).toList = formats id (place? around event).toList := by
  cases event with
  | opened tag | empty tag => exact formats_noteOf? h id tag
  | closed name | text raw => rfl

theorem links_note? (h : Agrees c around) (id : Text) (event : Event) :
    Note.links id (c.note? event).toList = links id (place? around event).toList := by
  cases event with
  | opened tag | empty tag => exact links_noteOf? h id tag
  | closed name | text raw => rfl

theorem Agrees.step {event : Event} {stack : List Text} (h : Agrees c around)
    (haround : around.Pairwise Apart) (hnest : nestStep (around.map Tag.name) event = some stack)
    (hpaired : ∀ tag ∈ emptyTag? event, ∀ scope : Scope, tag.name ≠ scope.name)
    (hapart : ∀ p ∈ place? around event, ∀ outer ∈ p.around, Apart p.tag outer) :
    Agrees (c.step event) (enter around event) ∧ (enter around event).Pairwise Apart := by
  cases event with
  | opened tag =>
    have hnew : ∀ a ∈ around, Apart tag a := hapart ⟨around, tag⟩ rfl
    exact ⟨h.opened hnew, List.pairwise_cons.mpr ⟨hnew, haround⟩⟩
  | empty tag =>
    rw [Context.step, Context.opened_of_ne (hpaired tag rfl)]
    exact ⟨h, haround⟩
  | closed name =>
    cases around with
    | nil => cases hnest
    | cons tag outer =>
      -- what ends is the innermost element, and none of its kind is around it
      obtain ⟨rfl, -⟩ := List.cons.inj (Xml.nestStep_closed hnest)
      obtain ⟨hnew, houter⟩ := List.pairwise_cons.mp haround
      exact ⟨h.closed hnew, houter⟩
  | text raw => exact ⟨h, haround⟩

theorem formats_append (id : Text) (ps qs : List Place) :
    formats id (ps ++ qs) = formats id ps ++ formats id qs :=
  List.filterMap_append

theorem links_append (id : Text) (ps qs : List Place) :
    links id (ps ++ qs) = links id ps ++ links id qs :=
  List.filterMap_append

/-- What is noted in a part is what stands in its elements. -/
theorem notes_eq_places {events : List Event} {stack : List Text} (h : Agrees c around)
    (haround : around.Pairwise Apart) (hnest : nest (around.map Tag.name) events = some stack)
    (hpaired : ∀ tag ∈ events.filterMap emptyTag?, ∀ scope : Scope, tag.name ≠ scope.name)
    (hapart : ∀ p ∈ places around events, ∀ outer ∈ p.around, Apart p.tag outer) (id : Text) :
    Note.formats id (c.notes events) = formats id (places around events) ∧
      Note.links id (c.notes events) = links id (places around events) := by
  induction events generalizing c around with
  | nil => exact ⟨rfl, rfl⟩
  | cons event events ih =>
    obtain ⟨hstep, hrest⟩ := Xml.nest_enter hnest
    simp only [Xml.places_cons, List.forall_mem_append, Option.mem_toList] at hapart
    have hempty : ∀ tag ∈ emptyTag? event, ∀ scope : Scope, tag.name ≠ scope.name :=
      fun tag htag => hpaired tag (List.mem_filterMap.mpr ⟨event, List.mem_cons_self, htag⟩)
    have hlater : ∀ tag ∈ events.filterMap emptyTag?, ∀ scope : Scope, tag.name ≠ scope.name :=
      fun tag htag => by
        obtain ⟨event', hevent, htag⟩ := List.mem_filterMap.mp htag
        exact hpaired tag (List.mem_filterMap.mpr ⟨event', List.mem_cons_of_mem _ hevent, htag⟩)
    obtain ⟨hagrees, hpairwise⟩ := h.step haround hstep hempty hapart.1
    obtain ⟨hformats, hlinks⟩ := ih hagrees hpairwise hrest hlater hapart.2
    rw [Xml.places_cons, formats_append, links_append, Context.notes, ← formats_note? h,
      ← links_note? h, ← hformats, ← hlinks]
    exact ⟨List.filterMap_append, List.filterMap_append⟩

end Context

/-- An instance has the kind of the last definition named in it, and a definition the kind of the
last format for level 0 in it. -/
theorem find?_ofEvents {events : List Event} {stack : List Text} (h : IsPlain events)
    (hnest : nest [] events = some stack) (id : Text) :
    (ofEvents events).find? id = ((links id (places [] events)).getLast?).map fun definition =>
      isOrdered (formats definition (places [] events)) := by
  have hnotes := notes_eq_places Agrees.initial List.Pairwise.nil hnest h.paired h.apart
  rw [ofEvents_eq, find?_ofNotes, (hnotes id).2]
  exact congrArg (Option.map · _) (funext fun definition => by rw [(hnotes definition).1])

/-! What makes no difference. -/

/-- Changes of a part: another order of whole elements outside definitions, levels and instances,
and leaving out whole elements outside definitions that hold no definition, instance or link. -/
inductive Rearranged : List Event → List Event → Prop
  | order {before after : List Event} {items items' : List (List Event)}
      (whole : ∀ item ∈ items, Balanced item)
      (outside : ∀ a ∈ enclosing [] before, ∀ scope : Scope, a.name ≠ scope.name)
      (perm : items'.Perm items) :
      Rearranged (before ++ items.flatten ++ after) (before ++ items'.flatten ++ after)
  | override {before inside after : List Event} (whole : Balanced inside)
      (outside : ∀ a ∈ enclosing [] before, a.name ≠ Scope.definition.name)
      (plain : ∀ p ∈ places (enclosing [] before) inside, p.tag.name ≠ Scope.definition.name ∧
        p.tag.name ≠ Scope.instantiation.name ∧ p.tag.name ≠ linkName) :
      Rearranged (before ++ inside ++ after) (before ++ after)

section Rearranged
variable {before after es es' : List Event} {stack : List Text}

theorem nest_exchange (hes : Balanced es) (hes' : Balanced es')
    (hnest : nest [] (before ++ es ++ after) = some stack) :
    nest [] (before ++ es' ++ after) = some stack := by
  rw [List.append_assoc, Xml.nest_append] at hnest ⊢
  obtain ⟨middle, hbefore, hrest⟩ := Option.bind_eq_some_iff.mp hnest
  rw [Xml.nest_append, hes.nest] at hrest
  rw [hbefore]
  change nest middle (es' ++ after) = some stack
  rw [Xml.nest_append, hes'.nest]
  exact hrest

theorem places_exchange (hes : Balanced es) (before after : List Event) :
    places [] (before ++ es ++ after) =
      places [] before ++ places (enclosing [] before) es ++
        places (enclosing [] before) after := by
  rw [List.append_assoc, Xml.places_append, hes.places_append, List.append_assoc]

/-- Whole elements can be exchanged for others of the same formats and links. -/
theorem find?_exchange (hes : Balanced es) (hes' : Balanced es')
    (hnest : nest [] (before ++ es ++ after) = some stack) (h : IsPlain (before ++ es ++ after))
    (hevents : ∀ event ∈ es', event ∈ es)
    (hplaces : ∀ p ∈ places (enclosing [] before) es', p ∈ places (enclosing [] before) es)
    (hformats : ∀ id, formats id (places (enclosing [] before) es') =
      formats id (places (enclosing [] before) es))
    (hlinks : ∀ id, links id (places (enclosing [] before) es') =
      links id (places (enclosing [] before) es)) (id : Text) :
    (ofEvents (before ++ es' ++ after)).find? id = (ofEvents (before ++ es ++ after)).find? id := by
  have hplain : IsPlain (before ++ es' ++ after) := by
    constructor
    · intro tag htag
      obtain ⟨event, hevent, htag⟩ := List.mem_filterMap.mp htag
      refine h.paired tag (List.mem_filterMap.mpr ⟨event, ?_, htag⟩)
      simp only [List.mem_append] at hevent ⊢
      exact hevent.imp_left fun hevent => hevent.imp_right (hevents event)
    · intro p hp
      refine h.apart p ?_
      rw [places_exchange hes'] at hp
      rw [places_exchange hes]
      simp only [List.mem_append] at hp ⊢
      exact hp.imp_left fun hp => hp.imp_right (hplaces p)
  rw [find?_ofEvents h hnest, find?_ofEvents hplain (nest_exchange hes hes' hnest)]
  simp only [places_exchange hes, places_exchange hes', formats_append, links_append, hformats,
    hlinks]

/-- A list of which no two members give anything can be put in any order. -/
theorem flatMap_perm {α β : Type} {f : α → List β} {xs ys : List α} (hperm : ys.Perm xs)
    (h : xs.Pairwise fun a b => f a = [] ∨ f b = []) : ys.flatMap f = xs.flatMap f := by
  induction hperm with
  | nil => rfl
  | cons x _ ih => rw [List.flatMap_cons, List.flatMap_cons, ih (List.pairwise_cons.mp h).2]
  | swap x y rest =>
    have hxy := (List.pairwise_cons.mp h).1 y List.mem_cons_self
    rcases hxy with hnone | hnone <;> simp [List.flatMap_cons, hnone]
  | trans _ hmiddle ih ih' =>
    have hsymm {a b : α} (hab : f a = [] ∨ f b = []) : f b = [] ∨ f a = [] := hab.symm
    rw [ih ((List.Perm.pairwise_iff hsymm hmiddle).mpr h), ih' h]

section Items
variable {around : List Tag} {scope : Scope} {id : Text}

/-- What stands in a definition or instance that is not around stands in one of the events. -/
theorem mem_ids {value : Text} {events : List Event} (hout : ∀ a ∈ around, a.name ≠ scope.name)
    {p : Place} (hp : p ∈ places around events) (hin : IsInside p.around scope value) :
    value ∈ ids scope (places around events) := by
  obtain ⟨a, ha, hname, hvalue⟩ := hin
  rcases Xml.mem_around hp ha with hmem | ⟨q, hq, rfl⟩
  · exact absurd hname (hout a hmem)
  · refine List.mem_filterMap.mpr ⟨q, hq, ?_⟩
    rw [if_pos hname, hvalue]

theorem mem_ids_of_formats (hout : ∀ a ∈ around, a.name ≠ Scope.definition.name)
    {events : List Event} (h : formats id (places around events) ≠ []) :
    id ∈ ids .definition (places around events) := by
  obtain ⟨f, hf⟩ := List.exists_mem_of_ne_nil _ h
  obtain ⟨p, hp, hvalue⟩ := List.mem_filterMap.mp hf
  obtain ⟨⟨-, -, hin⟩, -⟩ := Option.ite_none_right_eq_some.mp hvalue
  exact mem_ids hout hp hin

theorem mem_ids_of_links (hout : ∀ a ∈ around, a.name ≠ Scope.instantiation.name)
    {events : List Event} (h : links id (places around events) ≠ []) :
    id ∈ ids .instantiation (places around events) := by
  obtain ⟨f, hf⟩ := List.exists_mem_of_ne_nil _ h
  obtain ⟨p, hp, hvalue⟩ := List.mem_filterMap.mp hf
  obtain ⟨⟨-, hin⟩, -⟩ := Option.ite_none_right_eq_some.mp hvalue
  exact mem_ids hout hp hin

/-- At most one of the items has something to say under a value that is told once in all. -/
theorem pairwise_of_nodup {items : List (List Event)} (whole : ∀ item ∈ items, Balanced item)
    (hnodup : (ids scope (places around items.flatten)).Nodup) {f : List Place → List Text}
    (hf : ∀ item, f (places around item) ≠ [] → id ∈ ids scope (places around item)) :
    items.Pairwise fun a b => f (places around a) = [] ∨ f (places around b) = [] := by
  rw [Xml.places_flatten whole, ids, List.filterMap_flatMap, List.nodup_flatMap] at hnodup
  refine hnodup.2.imp fun {a b} hdisjoint => ?_
  by_contra hboth
  rw [not_or] at hboth
  exact hdisjoint (hf a hboth.1) (hf b hboth.2)

end Items

theorem Rearranged.order_eq {items items' : List (List Event)}
    (whole : ∀ item ∈ items, Balanced item)
    (outside : ∀ a ∈ enclosing [] before, ∀ scope : Scope, a.name ≠ scope.name)
    (perm : items'.Perm items) (h : IsNumbering (before ++ items.flatten ++ after))
    (hnest : nest [] (before ++ items.flatten ++ after) = some stack) (id : Text) :
    (ofEvents (before ++ items'.flatten ++ after)).find? id =
      (ofEvents (before ++ items.flatten ++ after)).find? id := by
  have whole' : ∀ item ∈ items', Balanced item := fun item hitem =>
    whole item (perm.subset hitem)
  have hbalanced := Balanced.flatten whole
  have hids (scope : Scope)
      (hnodup : (ids scope (places [] (before ++ items.flatten ++ after))).Nodup) :
      (ids scope (places (enclosing [] before) items.flatten)).Nodup := by
    rw [places_exchange hbalanced] at hnodup
    refine hnodup.sublist (List.Sublist.filterMap _ ?_)
    rw [List.append_assoc]
    exact List.Sublist.trans (List.sublist_append_left _ _) (List.sublist_append_right _ _)
  -- an id is told in one item at most, so the order of the items does not show
  have hsame {g : Place → Option Text}
      (hpairwise : items.Pairwise fun a b => (places (enclosing [] before) a).filterMap g = [] ∨
        (places (enclosing [] before) b).filterMap g = []) :
      (places (enclosing [] before) items'.flatten).filterMap g =
        (places (enclosing [] before) items.flatten).filterMap g := by
    rw [Xml.places_flatten whole, Xml.places_flatten whole', List.filterMap_flatMap,
      List.filterMap_flatMap]
    exact flatMap_perm perm hpairwise
  refine find?_exchange hbalanced (Balanced.flatten whole') hnest h.toIsPlain ?_ ?_ ?_ ?_ id
  · intro event hevent
    exact perm.flatten.subset hevent
  · intro p hp
    rw [Xml.places_flatten whole'] at hp
    rw [Xml.places_flatten whole]
    exact (perm.flatMap_right _).subset hp
  · intro id
    exact hsame (pairwise_of_nodup whole (hids _ h.definitions) fun item =>
      mem_ids_of_formats fun a ha => outside a ha _)
  · intro id
    exact hsame (pairwise_of_nodup whole (hids _ h.instantiations) fun item =>
      mem_ids_of_links fun a ha => outside a ha _)

theorem Rearranged.override_eq {inside : List Event} (whole : Balanced inside)
    (outside : ∀ a ∈ enclosing [] before, a.name ≠ Scope.definition.name)
    (plain : ∀ p ∈ places (enclosing [] before) inside, p.tag.name ≠ Scope.definition.name ∧
      p.tag.name ≠ Scope.instantiation.name ∧ p.tag.name ≠ linkName)
    (h : IsPlain (before ++ inside ++ after))
    (hnest : nest [] (before ++ inside ++ after) = some stack) (id : Text) :
    (ofEvents (before ++ after)).find? id = (ofEvents (before ++ inside ++ after)).find? id := by
  have hids : ids .definition (places (enclosing [] before) inside) = [] :=
    List.filterMap_eq_nil_iff.mpr fun p hp => if_neg (plain p hp).1
  have hformats (id : Text) : formats id (places (enclosing [] before) inside) = [] := by
    by_contra hne
    have hmem := mem_ids_of_formats outside hne
    rw [hids] at hmem
    cases hmem
  have hlinks (id : Text) : links id (places (enclosing [] before) inside) = [] :=
    List.filterMap_eq_nil_iff.mpr fun p hp => if_neg fun hlink => (plain p hp).2.2 hlink.1
  have hexchange := find?_exchange whole (show Balanced [] from rfl) hnest h (by simp) (by simp)
    (fun id => (hformats id).symm) (fun id => (hlinks id).symm) id
  rwa [List.append_nil] at hexchange

theorem Rearranged.find?_eq {events events' : List Event} (hr : Rearranged events events')
    (h : IsNumbering events) (hnest : nest [] events = some stack) (id : Text) :
    (ofEvents events').find? id = (ofEvents events).find? id := by
  cases hr with
  | order whole outside perm => exact order_eq whole outside perm h hnest id
  | override whole outside plain => exact override_eq whole outside plain h.toIsPlain hnest id

end Rearranged

/-- A numbering part with distinct definitions and distinct instances of one definition each gives
a kind to the lists of its instances and of no others: they are ordered if their definition has a
format for level 0 and the last one is not that of bullets. Neither the order of definitions and
instances nor formats outside definitions change that. -/
theorem ofScan_resolves {xml : Text} (hfailure : (Xml.scan xml).failure = none)
    (h : IsNumbering (Xml.scan xml).events) :
    ∃ n, ofScan (Xml.scan xml) = .ok n ∧
      (∀ id, (∃ ordered, n.find? id = some ordered) ↔ id ∈ ids .instantiation (placesIn xml)) ∧
      (∀ id, ∀ definition ∈ links id (placesIn xml),
        (n.find? id = some true ↔ ∃ f,
          (formats definition (placesIn xml)).getLast? = some f ∧ f ≠ "bullet".toList) ∧
        (n.find? id = some false ↔ ∀ f,
          (formats definition (placesIn xml)).getLast? = some f → f = "bullet".toList)) ∧
      ∀ events, Rearranged (Xml.scan xml).events events →
        ∀ id, (ofEvents events).find? id = n.find? id := by
  obtain ⟨stack, hnest⟩ := Xml.exists_nest_scan xml
  have hfind := find?_ofEvents h.toIsPlain hnest
  have hscan : ofScan (Xml.scan xml) = .ok (ofEvents (Xml.scan xml).events) := by
    rw [ofScan, hfailure]
  have hlinked (id : Text) (hid : id ∈ ids .instantiation (placesIn xml)) :
      ∃ definition, links id (placesIn xml) = [definition] :=
    List.length_eq_one_iff.mp (h.linked id hid)
  have hids (id : Text) (hlinks : links id (placesIn xml) ≠ []) :
      id ∈ ids .instantiation (placesIn xml) := mem_ids_of_links (by simp) hlinks
  refine ⟨_, hscan, fun id => ⟨?_, fun hid => ?_⟩, fun id definition hdefinition => ?_,
    fun events hr id => hr.find?_eq h hnest id⟩
  · rintro ⟨ordered, hordered⟩
    refine hids id fun hnone => ?_
    rw [hfind id, show links id (places [] _) = [] from hnone] at hordered
    cases hordered
  · obtain ⟨definition, hlinks⟩ := hlinked id hid
    rw [hfind id, show links id (places [] _) = _ from hlinks]
    exact ⟨_, rfl⟩
  · obtain ⟨named, hlinks⟩ := hlinked id (hids id (List.ne_nil_of_mem hdefinition))
    obtain rfl : definition = named := List.mem_singleton.mp (hlinks ▸ hdefinition)
    have hkind : (ofEvents (Xml.scan xml).events).find? id =
        some (isOrdered (formats definition (placesIn xml))) := by
      rw [hfind id, show links id (places [] _) = _ from hlinks]
      rfl
    rw [hkind, Option.some_inj, Option.some_inj, isOrdered_iff, ← Bool.not_eq_true, isOrdered_iff]
    refine ⟨Iff.rfl, ?_⟩
    simp only [not_exists, not_and, not_not]

/-- An instance in front of its definition, with a format of its own, and one of no definition. -/
def overridden : Text := List.flatten
  ["<w:numbering>", "<w:num w:numId=\"1\">", "<w:abstractNumId w:val=\"7\"/>", "<w:lvlOverride>",
   "<w:lvl w:ilvl=\"0\">", "<w:numFmt w:val=\"bullet\"/>", "</w:lvl>", "</w:lvlOverride>",
   "</w:num>", "<w:abstractNum w:abstractNumId=\"7\">", "<w:lvl w:ilvl=\"0\">",
   "<w:numFmt w:val=\"decimal\"/>", "</w:lvl>", "<w:lvl w:ilvl=\"1\">",
   "<w:numFmt w:val=\"bullet\"/>", "</w:lvl>", "</w:abstractNum>", "<w:num w:numId=\"2\">",
   "<w:abstractNumId w:val=\"9\"/>", "</w:num>", "</w:numbering>"]

theorem ofScan_resolves_overridden :
    (Xml.scan overridden).failure = none ∧ IsNumbering (Xml.scan overridden).events ∧
      ∃ n, ofScan (Xml.scan overridden) = .ok n ∧ n.find? ['1'] = some true ∧
        n.find? ['2'] = some false := by
  have hread : (Xml.scan overridden).failure = none ∧ IsNumbering (Xml.scan overridden).events ∧
      ['7'] ∈ links ['1'] (placesIn overridden) ∧ ['9'] ∈ links ['2'] (placesIn overridden) ∧
      (formats ['7'] (placesIn overridden)).getLast? = some "decimal".toList ∧
      (formats ['9'] (placesIn overridden)).getLast? = none := by
    decide +kernel
  obtain ⟨hfailure, hnumbering, hfirst, hsecond, hformat, hnone⟩ := hread
  obtain ⟨n, hn, -, hkinds, -⟩ := ofScan_resolves hfailure hnumbering
  refine ⟨hfailure, hnumbering, n, hn, ?_, ?_⟩
  · exact (hkinds _ _ hfirst).1.mpr ⟨_, hformat, by decide⟩
  · exact (hkinds _ _ hsecond).2.mpr fun f hf => by rw [hnone] at hf; cases hf

end MarkdownExport.Word.Numbering
