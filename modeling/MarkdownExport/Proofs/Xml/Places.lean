import Mathlib.Data.List.Induction
import MarkdownExport.Proofs.Xml.Nesting

/-! The tags of a part with the tags of the elements around them. -/
namespace MarkdownExport.Xml

/-- A tag and the tags of the elements that it stands in, innermost first. -/
structure Place where
  around : List Tag
  tag : Tag
  deriving DecidableEq

/-- The elements around what follows an event. -/
def enter (around : List Tag) : Event → List Tag
  | .opened tag => tag :: around
  | .closed _ => around.tail
  | .empty _ | .text _ => around

/-- The elements around what follows the events. -/
def enclosing (around : List Tag) (events : List Event) : List Tag := events.foldl enter around

/-- Where an event has a tag, if it starts an element. -/
def place? (around : List Tag) : Event → Option Place
  | .opened tag | .empty tag => some ⟨around, tag⟩
  | .closed _ | .text _ => none

/-- The tags that start elements, in their order. -/
def places (around : List Tag) : List Event → List Place
  | [] => []
  | event :: events => (place? around event).toList ++ places (enter around event) events

/-- The tags of a part that is given as text. -/
def placesIn (xml : Text) : List Place := places [] (scan xml).events

variable {around : List Tag}

@[simp] theorem places_nil (around : List Tag) : places around [] = [] := rfl

theorem places_cons (around : List Tag) (event : Event) (events : List Event) :
    places around (event :: events) =
      (place? around event).toList ++ places (enter around event) events := rfl

theorem places_append (around : List Tag) (es fs : List Event) :
    places around (es ++ fs) = places around es ++ places (enclosing around es) fs := by
  induction es generalizing around with
  | nil => rfl
  | cons event es ih =>
    rw [List.cons_append, places_cons, places_cons, ih, List.append_assoc]
    rfl

/-- The names of the elements around an event are those that are open there. -/
theorem nestStep_enter {stack : List Text} {event : Event}
    (h : nestStep (around.map Tag.name) event = some stack) :
    (enter around event).map Tag.name = stack := by
  cases event with
  | opened tag =>
    obtain rfl := nestStep_opened h
    rfl
  | closed name =>
    have hstack := nestStep_closed h
    rw [enter, List.map_tail, hstack, List.tail_cons]
  | empty tag | text raw => exact Option.some.inj h

/-- After the first event of nested events the others are nested in what is open then. -/
theorem nest_enter {stack : List Text} {event : Event} {events : List Event}
    (h : nest (around.map Tag.name) (event :: events) = some stack) :
    nestStep (around.map Tag.name) event = some ((enter around event).map Tag.name) ∧
      nest ((enter around event).map Tag.name) events = some stack := by
  rw [nest_cons] at h
  obtain ⟨middle, hstep, hrest⟩ := Option.bind_eq_some_iff.mp h
  obtain rfl := nestStep_enter hstep
  exact ⟨hstep, hrest⟩

/-- What is around whole elements is around what follows them. -/
theorem enclosing_of_nest {inner stack : List Text} {tags outer : List Tag} {events : List Event}
    (htags : tags.map Tag.name = inner) (h : nest inner events = some stack) :
    ∃ left : List Tag, left.map Tag.name = stack ∧
      enclosing (tags ++ outer) events = left ++ outer := by
  induction events generalizing tags inner with
  | nil =>
    obtain rfl := Option.some.inj h
    exact ⟨tags, htags, rfl⟩
  | cons event events ih =>
    subst htags
    obtain ⟨hstep, hrest⟩ := nest_enter h
    have houter : enter (tags ++ outer) event = enter tags event ++ outer := by
      cases event with
      | opened tag | empty tag | text raw => rfl
      | closed name =>
        cases tags with
        | nil => cases hstep
        | cons tag tags => rfl
    obtain ⟨left, hleft, heq⟩ := ih rfl hrest
    exact ⟨left, hleft, (congrArg (enclosing · events) houter).trans heq⟩

theorem Balanced.enclosing {events : List Event} (h : Balanced events) (around : List Tag) :
    Xml.enclosing around events = around := by
  have hleft : ∃ left : List Tag, left.map Tag.name = [] ∧
      Xml.enclosing ([] ++ around) events = left ++ around := enclosing_of_nest rfl h
  obtain ⟨left, hnil, heq⟩ := hleft
  rw [List.map_eq_nil_iff.mp hnil] at heq
  exact heq

theorem Balanced.places_append {es : List Event} (h : Balanced es) (around : List Tag)
    (fs : List Event) :
    places around (es ++ fs) = places around es ++ places around fs := by
  rw [Xml.places_append, h.enclosing]

theorem Balanced.flatten {items : List (List Event)} (h : ∀ item ∈ items, Balanced item) :
    Balanced items.flatten := by
  have hitems := Balanced.flatMap (f := id) h
  rwa [List.flatMap_id] at hitems

theorem places_flatten {items : List (List Event)} (h : ∀ item ∈ items, Balanced item)
    (around : List Tag) : places around items.flatten = items.flatMap (places around) := by
  induction items with
  | nil => rfl
  | cons item items ih =>
    rw [List.forall_mem_cons] at h
    rw [List.flatten_cons, h.1.places_append, ih h.2, List.flatMap_cons]

/-- Every element around a tag is around all the events or starts among them. -/
theorem mem_around {events : List Event} {p : Place} (hp : p ∈ places around events) {a : Tag}
    (ha : a ∈ p.around) : a ∈ around ∨ ∃ q ∈ places around events, q.tag = a := by
  induction events generalizing around with
  | nil => cases hp
  | cons event events ih =>
    rw [places_cons, List.mem_append] at hp
    rcases hp with hp | hp
    · cases event with
      | opened tag | empty tag =>
        obtain rfl := List.mem_singleton.mp hp
        exact .inl ha
      | closed name | text raw => cases hp
    · rcases ih hp with hmem | ⟨q, hq, htag⟩
      · cases event with
        | opened tag =>
          rcases List.mem_cons.mp hmem with rfl | hmem
          · exact .inr ⟨_, List.mem_cons_self, rfl⟩
          · exact .inl hmem
        | closed name => exact .inl (List.mem_of_mem_tail hmem)
        | empty tag | text raw => exact .inl hmem
      · exact .inr ⟨q, List.mem_append_right _ hq, htag⟩

end MarkdownExport.Xml
