import MarkdownExport.Xml.Event

/-! Which elements are open between the events of a part. Every end that a scan gives closes the
innermost open element, so only starts can be left over. -/
namespace MarkdownExport.Xml

/-- The open elements after an event inside the elements `stack`, innermost first. -/
def nestStep (stack : List Text) : Event → Option (List Text)
  | .opened tag => some (tag.name :: stack)
  | .closed name => if stack.head? = some name then some stack.tail else none
  | .empty _ | .text _ => some stack

def nest (stack : List Text) (events : List Event) : Option (List Text) :=
  events.foldlM nestStep stack

/-- Whole elements and texts: all that is opened is closed, and nothing else. -/
def Balanced (events : List Event) : Prop := nest [] events = some []

instance : DecidablePred Balanced := fun events =>
  inferInstanceAs (Decidable (nest [] events = some []))

@[simp] theorem nest_nil (stack : List Text) : nest stack [] = some stack := rfl

theorem nest_cons (stack : List Text) (event : Event) (events : List Event) :
    nest stack (event :: events) = (nestStep stack event).bind fun stack => nest stack events := rfl

theorem nest_append (stack : List Text) (es fs : List Event) :
    nest stack (es ++ fs) = (nest stack es).bind fun stack => nest stack fs :=
  List.foldlM_append

section Stack
variable {stack stack' outer : List Text} {event : Event} {events : List Event}

theorem nestStep_opened {tag : Tag} (h : nestStep stack (.opened tag) = some stack') :
    stack' = tag.name :: stack :=
  (Option.some.inj h).symm

theorem nestStep_closed {name : Text} (h : nestStep stack (.closed name) = some stack') :
    stack = name :: stack' := by
  simp only [nestStep] at h
  split at h
  next hhead =>
    obtain ⟨rest, rfl⟩ := List.head?_eq_some_iff.mp hhead
    obtain rfl := Option.some.inj h
    rfl
  next => cases h

/-- What lies outside does not count. -/
theorem nestStep_append (h : nestStep stack event = some stack') (outer : List Text) :
    nestStep (stack ++ outer) event = some (stack' ++ outer) := by
  cases event with
  | opened tag =>
    obtain rfl := nestStep_opened h
    rfl
  | closed name =>
    obtain rfl := nestStep_closed h
    simp [nestStep]
  | empty tag | text raw =>
    obtain rfl := Option.some.inj h
    rfl

theorem nest_append_stack (h : nest stack events = some stack') (outer : List Text) :
    nest (stack ++ outer) events = some (stack' ++ outer) := by
  induction events generalizing stack with
  | nil =>
    obtain rfl := Option.some.inj h
    rfl
  | cons event events ih =>
    rw [nest_cons] at h ⊢
    obtain ⟨middle, hstep, hrest⟩ := Option.bind_eq_some_iff.mp h
    rw [nestStep_append hstep outer]
    exact ih hrest

theorem Balanced.nest (h : Balanced events) (stack : List Text) :
    nest stack events = some stack :=
  nest_append_stack h stack

end Stack

theorem nest_closed (name : Text) (stack : List Text) (events : List Event) :
    nest (name :: stack) (.closed name :: events) = nest stack events := by
  simp [nest_cons, nestStep]

theorem Balanced.append {es fs : List Event} (h : Balanced es) (h' : Balanced fs) :
    Balanced (es ++ fs) := by
  rw [Balanced, nest_append, h]
  exact h'

theorem Balanced.flatMap {α : Type} {xs : List α} {f : α → List Event}
    (h : ∀ x ∈ xs, Balanced (f x)) : Balanced (xs.flatMap f) := by
  induction xs with
  | nil => rfl
  | cons x xs ih =>
    rw [List.forall_mem_cons] at h
    exact h.1.append (ih h.2)

theorem Balanced.element {inside : List Event} (h : Balanced inside) (tag : Tag) :
    Balanced (.opened tag :: (inside ++ [.closed tag.name])) := by
  change Xml.nest [tag.name] (inside ++ [.closed tag.name]) = some []
  rw [nest_append, h.nest]
  exact nest_closed tag.name [] []

/-- A scan gives ends of open elements only. -/
theorem exists_nest_scanFrom (fuel : Nat) (stack : List Text) (t : Text) :
    ∃ stack', nest stack (scanFrom fuel stack t).events = some stack' := by
  fun_induction scanFrom fuel stack t with
  | case1 | case2 | case3 | case5 | case7 | case8 | case10 | case11 => exact ⟨_, rfl⟩
  | case4 _ _ _ _ _ ih | case6 _ _ _ _ _ _ _ ih => exact ih
  | case9 _ _ _ _ _ _ _ ih =>
    simp only [Scan.prepend, nest_closed]
    exact ih
  | case12 _ _ _ _ _ _ _ _ _ _ _ ih | case13 _ _ _ _ _ _ _ _ _ _ _ _ ih
  | case14 _ _ _ _ _ _ _ _ _ _ _ _ ih => exact ih

theorem exists_nest_scan (t : Text) : ∃ stack, nest [] (scan t).events = some stack :=
  exists_nest_scanFrom t.length [] t

end MarkdownExport.Xml
