import MarkdownExport.Proofs.Text.Basic
import MarkdownExport.Proofs.Xml.Escape
import MarkdownExport.Xml.Event

/-! Element trees, the XML they are written as, and the events that a scan of that XML gives. Names
and attribute lists carry what makes the XML unambiguous, so every tree can be written and read. -/
namespace MarkdownExport.Xml

def isNameScalar (c : Char) : Bool := c.isAlphanum || c == ':'

def isName (t : Text) : Bool := !t.isEmpty && t.all isNameScalar

structure Name where
  text : Text
  valid : isName text = true

/-- Attributes with their values unescaped. No name occurs twice. -/
structure Attributes where
  entries : List (Name × Text)
  distinct : (entries.map fun entry => entry.1.text).Nodup

inductive Content where
  | element (name : Name) (attributes : Attributes) (children : List Content)
  /-- An element that holds nothing but text. -/
  | leaf (name : Name) (attributes : Attributes) (content : Text)
  | empty (name : Name) (attributes : Attributes)

namespace Attributes

def nil : Attributes := ⟨[], List.nodup_nil⟩

def single (name : Name) (value : Text) : Attributes := ⟨[(name, value)], by simp⟩

def renderEntry (entry : Name × Text) : Text :=
  " " ++ entry.1.text ++ "=\"" ++ escape entry.2 ++ "\""

def render (attributes : Attributes) : Text := attributes.entries.flatMap renderEntry

/-- The tag that these attributes are read as. -/
def tag (name : Name) (attributes : Attributes) : Tag :=
  ⟨name.text, attributes.entries.map fun entry => ⟨entry.1.text, escape entry.2⟩⟩

@[simp] theorem tag_name (name : Name) (attributes : Attributes) :
    (attributes.tag name).name = name.text := rfl

/-- A value is read as it was before it was escaped. -/
theorem value?_tag (name : Name) (attributes : Attributes) (key : Text) :
    (attributes.tag name).value? key =
      (attributes.entries.find? fun entry => entry.1.text == key).map Prod.snd := by
  simp only [Tag.value?, tag, List.find?_map, Function.comp_def]
  cases attributes.entries.find? fun entry => entry.1.text == key with
  | none => rfl
  | some entry => simp [Except.toOption]

theorem value?_tag_single (name key : Name) (value : Text) (other : Text) :
    ((single key value).tag name).value? other =
      if key.text = other then some value else none := by
  rw [value?_tag]
  by_cases h : key.text = other <;> simp [single, h]

end Attributes

namespace Content

mutual

def render : Content → Text
  | element name attributes children =>
    '<' :: (name.text ++ (attributes.render ++ '>' :: (renderAll children ++
      '<' :: '/' :: (name.text ++ ['>']))))
  | leaf name attributes content =>
    '<' :: (name.text ++ (attributes.render ++ '>' :: (escape content ++
      '<' :: '/' :: (name.text ++ ['>']))))
  | empty name attributes => '<' :: (name.text ++ (attributes.render ++ ['/', '>']))

def renderAll : List Content → Text
  | [] => []
  | c :: cs => c.render ++ renderAll cs

end

mutual

/-- Empty text makes no event. -/
def events : Content → List Event
  | element name attributes children =>
    .opened (attributes.tag name) :: (eventsAll children ++ [.closed name.text])
  | leaf name attributes content =>
    .opened (attributes.tag name) ::
      ((if content = [] then [] else [.text (escape content)]) ++ [.closed name.text])
  | empty name attributes => [.empty (attributes.tag name)]

def eventsAll : List Content → List Event
  | [] => []
  | c :: cs => c.events ++ eventsAll cs

end

end Content

/-! Names and attributes inside a tag. -/

theorem isNameScalar_spec {c : Char} (h : isNameScalar c = true) :
    isSpace c = false ∧ c ∉ ['!', '?', '/', '=', '<', '>', '"', '\''] := by
  constructor
  · by_contra hs
    simp only [isSpace, Bool.not_eq_false, Bool.or_eq_true, beq_iff_eq] at hs
    obtain ((rfl | rfl) | rfl) | rfl := hs <;> exact absurd h (by decide)
  · intro hc
    have none : ∀ c ∈ ['!', '?', '/', '=', '<', '>', '"', '\''], isNameScalar c = false := by
      decide
    rw [none c hc] at h
    contradiction

namespace Name
variable (name : Name)

theorem isNameScalar_of_mem {c : Char} (hc : c ∈ name.text) : isNameScalar c = true :=
  List.all_eq_true.mp (Bool.and_eq_true_iff.mp name.valid).2 c hc

theorem notMem {c : Char} (hc : c ∈ ['!', '?', '/', '=', '<', '>', '"', '\'']) :
    c ∉ name.text :=
  fun h => (isNameScalar_spec (name.isNameScalar_of_mem h)).2 hc

theorem isSpace_of_mem {c : Char} (hc : c ∈ name.text) : isSpace c = false :=
  (isNameScalar_spec (name.isNameScalar_of_mem hc)).1

/-- The first scalar and the others. -/
theorem exists_cons : ∃ first more, name.text = first :: more ∧ isNameScalar first = true := by
  have nonempty : name.text ≠ [] := by
    simpa using (Bool.and_eq_true_iff.mp name.valid).1
  obtain ⟨first, more, h⟩ := List.exists_cons_of_ne_nil nonempty
  exact ⟨first, more, h, name.isNameScalar_of_mem (h ▸ List.mem_cons_self)⟩

end Name

theorem splitTag_plain {t : Text} (plain : ∀ c ∈ t, c ∉ ['>', '"', '\'']) (rest : Text) :
    splitTag none (t ++ rest) =
      (splitTag none rest).map fun (content, rest) => (t ++ content, rest) := by
  induction t with
  | nil => simp
  | cons c t ih =>
    have hc := plain c List.mem_cons_self
    simp only [List.mem_cons, List.not_mem_nil, or_false, not_or] at hc
    obtain ⟨hclose, hquote, hsingle⟩ := hc
    have htail := ih fun d hd => plain d (List.mem_cons_of_mem c hd)
    rw [List.cons_append, splitTag]
    simp [hclose, hquote, hsingle, htail, Function.comp_def]

theorem splitTag_inQuotes {t : Text} (closed : '"' ∉ t) (rest : Text) :
    splitTag (some '"') (t ++ '"' :: rest) =
      (splitTag none rest).map fun (content, rest) => (t ++ '"' :: content, rest) := by
  induction t with
  | nil => simp [splitTag]
  | cons c t ih =>
    obtain ⟨hc, ht⟩ := not_or.mp (List.mem_cons.not.mp closed)
    rw [List.cons_append, splitTag]
    simp only [if_neg (Ne.symm hc), ih ht]
    simp [Function.comp_def]

theorem splitTag_entry (entry : Name × Text) (rest : Text) :
    splitTag none (Attributes.renderEntry entry ++ rest) =
      (splitTag none rest).map fun (content, rest) =>
        (Attributes.renderEntry entry ++ content, rest) := by
  obtain ⟨name, value⟩ := entry
  have plain : ∀ c ∈ ' ' :: (name.text ++ ['=']), c ∉ ['>', '"', '\''] := by
    intro c hc
    simp only [List.mem_cons, List.mem_append, List.not_mem_nil, or_false] at hc
    rcases hc with rfl | hc | rfl
    · decide
    · have hname := (isNameScalar_spec (name.isNameScalar_of_mem hc)).2
      simp_all
    · decide
  have shape : Attributes.renderEntry (name, value) =
      (' ' :: (name.text ++ ['='])) ++ '"' :: (escape value ++ ['"']) := by
    simp [Attributes.renderEntry]
  rw [shape, List.append_assoc, splitTag_plain plain, List.cons_append, splitTag, List.append_assoc,
    List.singleton_append]
  simp only [show ('"' : Char) ≠ '>' by decide, if_false, decide_true, Bool.true_or, if_true]
  rw [splitTag_inQuotes (notMem_escape (by decide))]
  simp [Function.comp_def]

theorem splitTag_entries (entries : List (Name × Text)) (rest : Text) :
    splitTag none (entries.flatMap Attributes.renderEntry ++ rest) =
      (splitTag none rest).map fun (content, rest) =>
        (entries.flatMap Attributes.renderEntry ++ content, rest) := by
  induction entries with
  | nil => simp
  | cons entry entries ih =>
    rw [List.flatMap_cons, List.append_assoc, splitTag_entry, ih]
    simp [Function.comp_def]

/-- A tag's content ends where it was meant to end. -/
theorem splitTag_render (name : Name) (attributes : Attributes) (rest : Text) :
    splitTag none (name.text ++ (attributes.render ++ rest)) =
      (splitTag none rest).map fun (content, rest) =>
        (name.text ++ (attributes.render ++ content), rest) := by
  have plain : ∀ c ∈ name.text, c ∉ ['>', '"', '\''] := by
    intro c hc
    have := (isNameScalar_spec (name.isNameScalar_of_mem hc)).2
    simp_all
  rw [splitTag_plain plain, Attributes.render, splitTag_entries]
  simp [Function.comp_def]

/-- One written attribute is read as one attribute. -/
theorem attributesFrom_entry (fuel : Nat) (seen : List Text) (name : Name) (value rest : Text)
    (new : name.text ∉ seen) :
    attributesFrom (fuel + 1) seen (Attributes.renderEntry (name, value) ++ rest) =
      ⟨name.text, escape value⟩ :: attributesFrom fuel (name.text :: seen) rest := by
  obtain ⟨first, more, hname, hfirst⟩ := name.exists_cons
  have shape : Attributes.renderEntry (name, value) ++ rest =
      ' ' :: first :: (more ++ '=' :: '"' :: (escape value ++ '"' :: rest)) := by
    simp [Attributes.renderEntry, hname]
  have hspace : isSpace first = false := (isNameScalar_spec hfirst).1
  have hspan : (more ++ '=' :: '"' :: (escape value ++ '"' :: rest)).span
      (fun c => decide (c ≠ '=') && !isSpace c) =
        (more, '=' :: '"' :: (escape value ++ '"' :: rest)) := by
    refine Text.span_append (fun c hc => ?_) (by decide) _
    have hmem : c ∈ name.text := hname ▸ List.mem_cons_of_mem first hc
    have heq : c ≠ '=' := fun h => name.notMem (by decide) (h ▸ hmem)
    simp [heq, name.isSpace_of_mem hmem]
  have hvalue : (escape value ++ '"' :: rest).span (fun c => decide (c ≠ '"')) =
      (escape value, '"' :: rest) :=
    Text.span_of_notMem (notMem_escape (by decide)) rest
  have hstart (t : Text) : (' ' :: first :: t).dropWhile isSpace = first :: t := by
    simp [hspace, show isSpace ' ' = true by decide]
  have hequals (t : Text) : ('=' :: t).dropWhile isSpace = '=' :: t := by
    simp [show isSpace '=' = false by decide]
  have hquote (t : Text) : ('"' :: t).dropWhile isSpace = '"' :: t := by
    simp [show isSpace '"' = false by decide]
  rw [hname] at new
  rw [shape, attributesFrom]
  simp only [hstart, hspan, hequals, if_neg new, hquote, decide_true, Bool.true_or, if_true, hvalue,
    hname]

theorem attributesFrom_entries (fuel : Nat) (seen : List Text) (entries : List (Name × Text))
    (enough : entries.length ≤ fuel)
    (distinct : (entries.map fun entry => entry.1.text).Nodup)
    (new : ∀ entry ∈ entries, entry.1.text ∉ seen) :
    attributesFrom fuel seen (entries.flatMap Attributes.renderEntry) =
      entries.map fun entry => ⟨entry.1.text, escape entry.2⟩ := by
  induction entries generalizing fuel seen with
  | nil => cases fuel <;> simp [attributesFrom]
  | cons entry entries ih =>
    obtain ⟨name, value⟩ := entry
    cases fuel with
    | zero => simp at enough
    | succ fuel =>
      rw [List.map_cons, List.nodup_cons] at distinct
      have others : ∀ entry ∈ entries, entry.1.text ∉ name.text :: seen := by
        intro entry hentry hseen
        rcases List.mem_cons.mp hseen with h | h
        · exact distinct.1 (h ▸ List.mem_map_of_mem hentry)
        · exact new entry (List.mem_cons_of_mem _ hentry) h
      rw [List.flatMap_cons, attributesFrom_entry _ _ _ _ _ (new _ List.mem_cons_self),
        ih fuel _ (by simpa using enough) distinct.2 others]
      rfl

theorem length_le_flatMap_renderEntry (entries : List (Name × Text)) :
    entries.length ≤ (entries.flatMap Attributes.renderEntry).length := by
  induction entries with
  | nil => simp
  | cons entry entries ih =>
    have hentry : 0 < (Attributes.renderEntry entry).length := by simp [Attributes.renderEntry]
    rw [List.flatMap_cons, List.length_append, List.length_cons]
    omega

theorem ofContent_render (name : Name) (attributes : Attributes) :
    Tag.ofContent (name.text ++ attributes.render) = attributes.tag name := by
  have word : ∀ c ∈ name.text, (!isSpace c) = true := fun c hc => by
    simp [name.isSpace_of_mem hc]
  have hspan : (name.text ++ attributes.render).span (fun c => !isSpace c) =
      (name.text, attributes.render) := by
    obtain ⟨entries, distinct⟩ := attributes
    cases entries with
    | nil =>
      simpa only [Attributes.render, List.flatMap_nil, List.append_nil] using Text.span_all word
    | cons entry entries => exact Text.span_append word (by decide) _
  rw [Tag.ofContent, hspan]
  simp only [Attributes.tag, Attributes.render]
  rw [attributesFrom_entries _ _ _ (length_le_flatMap_renderEntry _) attributes.distinct (by simp)]

/-- The content of a tag does not end in a slash. -/
theorem getLast?_render (name : Name) (attributes : Attributes) :
    (name.text ++ attributes.render).getLast? ≠ some '/' := by
  obtain ⟨entries, distinct⟩ := attributes
  intro h
  rcases entries.eq_nil_or_concat with rfl | ⟨init, last, rfl⟩
  · have hname : name.text.getLast? = some '/' := by simpa [Attributes.render] using h
    exact name.notMem (c := '/') (by decide) (List.mem_of_getLast? hname)
  · have hquote : name.text ++ Attributes.render ⟨init.concat last, distinct⟩ =
        (name.text ++ (init.flatMap Attributes.renderEntry ++
          (" " ++ last.1.text ++ "=\"" ++ escape last.2))) ++ ['"'] := by
      simp [Attributes.render, Attributes.renderEntry]
    rw [hquote, List.getLast?_concat] at h
    simp at h

end MarkdownExport.Xml
