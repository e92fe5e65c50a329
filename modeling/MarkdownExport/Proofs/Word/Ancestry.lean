import Mathlib.Data.List.DropRight
import MarkdownExport.Proofs.Xml.Nesting
import MarkdownExport.Word.Element

/-! The elements of a part with the elements around them. -/
namespace MarkdownExport.Word
open Xml (Event Tag nest nestStep)

/-- The elements that start among the events, each behind those that it stands in, the innermost
first. -/
def starts (around : List Element) : List Event → List (List Element × Element)
  | [] => []
  | .opened tag :: events =>
    (around, Element.ofName tag.name) :: starts (Element.ofName tag.name :: around) events
  | .empty tag :: events => (around, Element.ofName tag.name) :: starts around events
  | .closed _ :: events => starts around.tail events
  | .text _ :: events => starts around events

/-- Paragraphs are not nested and links stand in paragraphs. What is skipped does not count. -/
def IsFlat (events : List Event) : Prop :=
  ∀ start ∈ starts [] events, .skipped ∉ start.1 →
    (start.2 = .paragraph → .paragraph ∉ start.1) ∧ (start.2 = .hyperlink → .paragraph ∈ start.1)

instance : DecidablePred IsFlat := fun events =>
  inferInstanceAs (Decidable (∀ start ∈ starts [] events, .skipped ∉ start.1 →
    (start.2 = .paragraph → .paragraph ∉ start.1) ∧
      (start.2 = .hyperlink → .paragraph ∈ start.1)))

/-- The element that an event starts or ends. -/
def eventElement? : Event → Option Element
  | .opened tag | .empty tag => some (Element.ofName tag.name)
  | .closed name => some (Element.ofName name)
  | .text _ => none

variable {stack stack' : List Text} {event : Event} {events : List Event}

theorem starts_cons (h : nestStep stack event = some stack') (events : List Event) :
    starts (stack.map Element.ofName) (event :: events) =
      starts (stack.map Element.ofName) [event] ++ starts (stack'.map Element.ofName) events := by
  cases event with
  | opened tag =>
    obtain rfl := Xml.nestStep_opened h
    rfl
  | closed name =>
    obtain rfl := Xml.nestStep_closed h
    rfl
  | empty tag | text raw =>
    obtain rfl := Option.some.inj h
    rfl

theorem starts_append (h : nest stack events = some stack') (more : List Event) :
    starts (stack.map Element.ofName) (events ++ more) =
      starts (stack.map Element.ofName) events ++ starts (stack'.map Element.ofName) more := by
  induction events generalizing stack with
  | nil =>
    obtain rfl := Option.some.inj h
    rfl
  | cons event events ih =>
    obtain ⟨middle, hstep, hrest⟩ := Option.bind_eq_some_iff.mp h
    rw [List.cons_append, starts_cons hstep (events ++ more), starts_cons hstep events, ih hrest,
      List.append_assoc]

/-- What is open was open before or has started since. -/
theorem mem_starts_of_open (h : nest stack events = some stack') {name : Text}
    {outer : List Text} (hopen : name :: outer <:+ stack') :
    name :: outer <:+ stack ∨
      (outer.map Element.ofName, Element.ofName name) ∈
        starts (stack.map Element.ofName) events := by
  induction events generalizing stack with
  | nil =>
    obtain rfl := Option.some.inj h
    exact .inl hopen
  | cons event events ih =>
    obtain ⟨middle, hstep, hrest⟩ := Option.bind_eq_some_iff.mp h
    rw [starts_cons hstep, List.mem_append]
    rcases ih hrest with hmiddle | hlater
    · cases event with
      | opened tag =>
        obtain rfl := Xml.nestStep_opened hstep
        rcases List.suffix_cons_iff.mp hmiddle with heq | hbefore
        · obtain ⟨rfl, rfl⟩ := List.cons.inj heq
          exact .inr (.inl List.mem_cons_self)
        · exact .inl hbefore
      | closed closed =>
        obtain rfl := Xml.nestStep_closed hstep
        exact .inl (hmiddle.trans (List.suffix_cons closed middle))
      | empty tag | text raw =>
        obtain rfl := Option.some.inj hstep
        exact .inl hmiddle
    · exact .inr (.inr hlater)

namespace IsFlat
variable {done rest : List Event} {inner outer : List Text}

theorem of_start (h : IsFlat (done ++ rest)) (hdone : nest [] done = some stack)
    {start : List Element × Element} (hstart : start ∈ starts (stack.map Element.ofName) rest)
    (hvisible : .skipped ∉ start.1) :
    (start.2 = .paragraph → .paragraph ∉ start.1) ∧
      (start.2 = .hyperlink → .paragraph ∈ start.1) := by
  refine h start ?_ hvisible
  have hstarts := starts_append hdone rest
  rw [List.map_nil] at hstarts
  rw [hstarts]
  exact List.mem_append_right _ hstart

theorem of_open (h : IsFlat (done ++ rest)) (hdone : nest [] done = some stack) {name : Text}
    (hopen : name :: outer <:+ stack) (hvisible : .skipped ∉ outer.map Element.ofName) :
    (Element.ofName name = .paragraph → .paragraph ∉ outer.map Element.ofName) ∧
      (Element.ofName name = .hyperlink → .paragraph ∈ outer.map Element.ofName) := by
  refine h (outer.map Element.ofName, Element.ofName name) ?_ hvisible
  have hstarts := starts_append hdone rest
  rw [List.map_nil] at hstarts
  rw [hstarts]
  rcases mem_starts_of_open hdone hopen with hnone | hstart
  · cases List.suffix_nil.mp hnone
  · exact List.mem_append_left _ hstart

/-- Inside a paragraph no paragraph starts or ends. -/
theorem ne_paragraph (h : IsFlat (done ++ event :: rest))
    (hdone : nest [] done = some (inner ++ outer)) (hevent : nestStep inner event = some stack')
    (houter : .paragraph ∈ outer.map Element.ofName)
    (hvisible : .skipped ∉ (inner ++ outer).map Element.ofName) :
    eventElement? event ≠ some .paragraph := by
  have haround : .paragraph ∈ (inner ++ outer).map Element.ofName := by
    rw [List.map_append]
    exact List.mem_append_right _ houter
  intro hparagraph
  cases event with
  | opened tag | empty tag =>
    exact (h.of_start hdone List.mem_cons_self hvisible).1 (Option.some.inj hparagraph) haround
  | closed name =>
    obtain rfl := Xml.nestStep_closed hevent
    have hvisible' : .skipped ∉ (stack' ++ outer).map Element.ofName :=
      fun hmem => hvisible (List.mem_cons_of_mem _ hmem)
    have hself : name :: (stack' ++ outer) <:+ name :: stack' ++ outer := List.suffix_refl _
    have hnested := (h.of_open hdone hself hvisible').1 (Option.some.inj hparagraph)
    rw [List.map_append] at hnested
    exact hnested (List.mem_append_right _ houter)
  | text raw => cases hparagraph

/-- Around a paragraph there is no link. -/
theorem hyperlink_notMem (h : IsFlat (done ++ rest)) (hdone : nest [] done = some stack)
    (hvisible : .skipped ∉ stack.map Element.ofName)
    (hplain : .paragraph ∉ stack.map Element.ofName) :
    .hyperlink ∉ stack.map Element.ofName := by
  intro hlink
  obtain ⟨name, hname, hkind⟩ := List.mem_map.mp hlink
  obtain ⟨inner, outer, rfl⟩ := List.append_of_mem hname
  have houter : ∀ e ∈ outer.map Element.ofName,
      e ∈ (inner ++ name :: outer).map Element.ofName := by
    intro e he
    rw [List.map_append]
    exact List.mem_append_right _ (List.mem_cons_of_mem _ he)
  have hparagraph := (h.of_open hdone (List.suffix_append inner _)
    fun hskip => hvisible (houter _ hskip)).2 hkind
  exact hplain (houter _ hparagraph)

end IsFlat

/-! The tags of the open elements, innermost first: those inside a skipped element and the others. -/

/-- The open elements from the outermost skipped one inward. -/
def hidden (opens : List Tag) : List Tag :=
  opens.rdropWhile fun tag => Element.ofName tag.name ≠ .skipped

/-- The open elements around all skipped ones. -/
def exposed (opens : List Tag) : List Tag :=
  opens.rtakeWhile fun tag => Element.ofName tag.name ≠ .skipped

def ofKind (e : Element) (opens : List Tag) : List Tag :=
  opens.filter fun tag => Element.ofName tag.name = e

section Opens
variable {tag : Tag} {opens : List Tag}

@[simp] theorem exposed_nil : exposed [] = [] := rfl

@[simp] theorem ofKind_nil (e : Element) : ofKind e [] = [] := rfl

theorem hidden_append_exposed (opens : List Tag) : hidden opens ++ exposed opens = opens :=
  List.rdropWhile_append_rtakeWhile

theorem hidden_eq_nil_iff :
    hidden opens = [] ↔ ∀ tag ∈ opens, Element.ofName tag.name ≠ .skipped := by
  simp [hidden, List.rdropWhile_eq_nil_iff]

theorem hidden_cons_eq_nil_iff :
    hidden (tag :: opens) = [] ↔ Element.ofName tag.name ≠ .skipped ∧ hidden opens = [] := by
  simp only [hidden_eq_nil_iff, List.forall_mem_cons]

theorem exposed_of_hidden_eq_nil (h : hidden opens = []) : exposed opens = opens := by
  have hall := hidden_append_exposed opens
  rwa [h] at hall

theorem hidden_cons_of_ne_nil (h : hidden (tag :: opens) ≠ []) :
    hidden (tag :: opens) = tag :: hidden opens := by
  by_cases hopens : hidden opens = []
  · have hskip : Element.ofName tag.name = .skipped := by
      by_contra hplain
      exact h (hidden_cons_eq_nil_iff.mpr ⟨hplain, hopens⟩)
    rw [hopens]
    rw [hidden, List.rdropWhile, List.reverse_eq_nil_iff] at hopens
    rw [hidden, List.rdropWhile, List.reverse_cons, List.dropWhile_append, hopens]
    simp [hskip]
  · have hnone : hidden opens ≠ [] := hopens
    rw [hidden, List.rdropWhile, ne_eq, List.reverse_eq_nil_iff, ← List.isEmpty_iff] at hnone
    rw [hidden, List.rdropWhile, List.reverse_cons, List.dropWhile_append, if_neg hnone,
      List.reverse_append]
    rfl

theorem exposed_cons_of_ne_nil (h : hidden (tag :: opens) ≠ []) :
    exposed (tag :: opens) = exposed opens := by
  have hall := hidden_append_exposed (tag :: opens)
  rw [hidden_cons_of_ne_nil h, List.cons_append] at hall
  exact List.append_cancel_left ((List.cons.inj hall).2.trans (hidden_append_exposed opens).symm)

theorem ofKind_cons (e : Element) (tag : Tag) (opens : List Tag) :
    ofKind e (tag :: opens) = ofKind e [tag] ++ ofKind e opens := by
  rw [ofKind, ofKind, ofKind, ← List.filter_append, List.singleton_append]

theorem ofKind_singleton {e : Element} (h : Element.ofName tag.name = e) :
    ofKind e [tag] = [tag] := by
  simp [ofKind, h]

theorem ofKind_singleton_of_ne {e : Element} (h : Element.ofName tag.name ≠ e) :
    ofKind e [tag] = [] := by
  simp [ofKind, h]

end Opens

end MarkdownExport.Word
