import MarkdownExport.Word.Snapshot

/-! What a package went through when it was read without a failure. -/
namespace MarkdownExport.Word

/-- A step that gives a result was preceded by one that gave what it needs. -/
theorem exists_ok_of_bind {ε α β : Type} {x : Except ε α} {f : α → Except ε β} {b : β}
    (h : x >>= f = .ok b) : ∃ a, x = .ok a ∧ f a = .ok b := by
  cases x with
  | error e => cases h
  | ok a => exact ⟨a, rfl, h⟩

theorem eq_ok_of_toOption {ε α : Type} {x : Except ε α} {a : α} (h : x.toOption = some a) :
    x = .ok a := by
  cases x with
  | error e => cases h
  | ok b =>
    obtain rfl := Option.some.inj h
    rfl

theorem readEvents_cons (σ : Source) (s : State) (event : Xml.Event) (events : List Xml.Event) :
    readEvents σ s (event :: events) = step σ s event >>= fun t => readEvents σ t events := rfl

theorem readEvents_singleton (σ : Source) (s : State) (event : Xml.Event) :
    readEvents σ s [event] = step σ s event := by
  rw [readEvents_cons]
  cases step σ s event <;> rfl

theorem readEvents_append (σ : Source) (s : State) (es fs : List Xml.Event) :
    readEvents σ s (es ++ fs) = readEvents σ s es >>= fun t => readEvents σ t fs :=
  List.foldlM_append

theorem readEvents_cons_of_step {σ : Source} {s t : State} {event : Xml.Event}
    (h : step σ s event = .ok t) (events : List Xml.Event) :
    readEvents σ s (event :: events) = readEvents σ t events := by
  rw [readEvents_cons, h]
  rfl

theorem readEvents_append_of_ok {σ : Source} {s t : State} {es : List Xml.Event}
    (h : readEvents σ s es = .ok t) (fs : List Xml.Event) :
    readEvents σ s (es ++ fs) = readEvents σ t fs := by
  rw [readEvents_append, h]
  rfl

/-! One event at a time, outside skipped elements. -/

section Step
variable {σ : Source} {s : State} {tag : Xml.Tag}

theorem step_skipped (hs : s.skipDepth = 0) (h : Element.ofName tag.name = .skipped) :
    step σ s (.opened tag) = .ok { s with skipDepth := 1 } := by
  simp only [step, hs, if_pos h]

theorem step_opened (hs : s.skipDepth = 0) (h : Element.ofName tag.name ≠ .skipped) :
    step σ s (.opened tag) = .ok (openElement σ tag s) := by
  simp only [step, hs, if_neg h]

theorem step_empty (hs : s.skipDepth = 0) (tag : Xml.Tag) :
    step σ s (.empty tag) = .ok (closeElement σ tag.name (openElement σ tag s)) := by
  simp only [step, hs]

theorem step_closed (hs : s.skipDepth = 0) (name : Text) :
    step σ s (.closed name) = .ok (closeElement σ name s) := by
  simp only [step, hs]

theorem step_text (hs : s.skipDepth = 0) (raw : Text) :
    step σ s (.text raw) = captureText raw s := by
  simp only [step, hs]

end Step

/-- What an event that is read leads to. -/
inductive Steps (σ : Source) (s : State) : Xml.Event → State → Prop
  | skips {tag : Xml.Tag} (hs : s.skipDepth = 0) (h : Element.ofName tag.name = .skipped) :
    Steps σ s (.opened tag) { s with skipDepth := 1 }
  | opens {tag : Xml.Tag} (hs : s.skipDepth = 0) (h : Element.ofName tag.name ≠ .skipped) :
    Steps σ s (.opened tag) (openElement σ tag s)
  | empties {tag : Xml.Tag} (hs : s.skipDepth = 0) :
    Steps σ s (.empty tag) (closeElement σ tag.name (openElement σ tag s))
  | closes {name : Text} (hs : s.skipDepth = 0) :
    Steps σ s (.closed name) (closeElement σ name s)
  | captures {raw : Text} {t : State} (hs : s.skipDepth = 0) (h : captureText raw s = .ok t) :
    Steps σ s (.text raw) t
  | deepens {tag : Xml.Tag} {d : Nat} (hs : s.skipDepth = d + 1) :
    Steps σ s (.opened tag) { s with skipDepth := d + 2 }
  | returns {name : Text} {d : Nat} (hs : s.skipDepth = d + 1) :
    Steps σ s (.closed name) { s with skipDepth := d }
  | passesEmpty {tag : Xml.Tag} (hs : s.skipDepth ≠ 0) : Steps σ s (.empty tag) s
  | passesText {raw : Text} (hs : s.skipDepth ≠ 0) : Steps σ s (.text raw) s

theorem steps_of_step {σ : Source} {s t : State} {event : Xml.Event}
    (h : step σ s event = .ok t) : Steps σ s event t := by
  cases hs : s.skipDepth with
  | zero =>
    cases event with
    | opened tag =>
      by_cases hskip : Element.ofName tag.name = .skipped
      · rw [step_skipped hs hskip] at h
        obtain rfl := Except.ok.inj h
        exact .skips hs hskip
      · rw [step_opened hs hskip] at h
        obtain rfl := Except.ok.inj h
        exact .opens hs hskip
    | empty tag =>
      rw [step_empty hs] at h
      obtain rfl := Except.ok.inj h
      exact .empties hs
    | closed name =>
      rw [step_closed hs] at h
      obtain rfl := Except.ok.inj h
      exact .closes hs
    | text raw =>
      rw [step_text hs] at h
      exact .captures hs h
  | succ d =>
    have hne : s.skipDepth ≠ 0 := hs ▸ Nat.succ_ne_zero d
    simp only [step, hs] at h
    cases event with
    | opened tag =>
      obtain rfl := Except.ok.inj h
      exact .deepens hs
    | closed name =>
      obtain rfl := Except.ok.inj h
      exact .returns hs
    | empty tag =>
      obtain rfl := Except.ok.inj h
      exact .passesEmpty hne
    | text raw =>
      obtain rfl := Except.ok.inj h
      exact .passesText hne

theorem readPart_eq_ok {σ : Source} {part : Xml.Scan} {s : State} :
    readPart σ part = .ok s ↔ readEvents σ {} part.events = .ok s ∧ part.failure = none := by
  unfold readPart
  split <;> simp_all

theorem eq_ok_of_inPart {α : Type} {part : Text} {x : Except Xml.Error α} {a : α}
    (h : inPart part x = .ok a) : x = .ok a := by
  cases x with
  | error e => cases h
  | ok b =>
    cases h
    rfl

variable {package : Package} {profile : Profile}

theorem readNotes_eq_ok {numbering : Numbering} {notes : List Footnote}
    (h : readNotes package numbering profile = .ok notes) :
    notes = [] ∨ ∃ xml rels s, package.text? footnotesPart = .ok (some xml) ∧
      readPart ⟨rels, numbering, profile⟩ (Xml.scan xml) = .ok s ∧ notes = s.footnotes := by
  obtain ⟨text?, ht, h⟩ := exists_ok_of_bind h
  cases text? with
  | none =>
    cases h
    exact Or.inl rfl
  | some xml =>
    obtain ⟨rels, -, h⟩ := exists_ok_of_bind h
    obtain ⟨s, hs, h⟩ := exists_ok_of_bind h
    cases h
    exact Or.inr ⟨xml, rels, s, ht, eq_ok_of_inPart hs, rfl⟩

theorem readContents_eq_ok {c : Contents} (h : readContents package profile = .ok c) :
    ∃ xml rels numbering s, package.text? documentPart = .ok (some xml) ∧
      readPart ⟨rels, numbering, profile⟩ (Xml.scan xml) = .ok s ∧
      readNotes package numbering profile = .ok c.notes ∧ c.blocks = s.blocks := by
  obtain ⟨text?, ht, h⟩ := exists_ok_of_bind h
  cases text? with
  | none => cases h
  | some xml =>
    obtain ⟨rels, -, h⟩ := exists_ok_of_bind h
    obtain ⟨numbering, -, h⟩ := exists_ok_of_bind h
    obtain ⟨s, hs, h⟩ := exists_ok_of_bind h
    obtain ⟨notes, hn, h⟩ := exists_ok_of_bind h
    cases h
    exact ⟨xml, rels, numbering, s, ht, eq_ok_of_inPart hs, hn, rfl⟩

theorem snapshot_eq_ok {s : Snapshot} (h : snapshot package profile = .ok s) :
    ∃ c, readContents package profile = .ok c ∧ s.html = c.html := by
  obtain ⟨c, hc, h⟩ := exists_ok_of_bind h
  cases h
  exact ⟨c, hc, rfl⟩

/-- The package of these parts, each a name with its text. -/
def Package.ofTexts (parts : Dictionary Text) : Package :=
  parts.map fun (name, text) => ⟨name, .ok (String.ofList text).toUTF8⟩

theorem fromUTF8?_toUTF8 (s : String) : String.fromUTF8? s.toUTF8 = some s := by
  have h := s.isValidUTF8
  unfold String.fromUTF8?
  rw [String.toUTF8_eq_toByteArray, dif_pos (by simpa using h)]
  rfl

theorem Package.text?_ofTexts (parts : Dictionary Text) (name : Text) :
    (Package.ofTexts parts).text? name = .ok ((parts.find? name).map dropByteOrderMarks) := by
  induction parts with
  | nil => rfl
  | cons part parts ih =>
    obtain ⟨k, text⟩ := part
    unfold Package.text? Package.ofTexts at ih ⊢
    rw [List.map_cons, List.find?_cons]
    by_cases hk : k = name
    · subst hk
      simp only [beq_self_eq_true, fromUTF8?_toUTF8, String.toList_ofList]
      simp [Dictionary.find?]
    · rw [beq_false_of_ne hk, ih, Dictionary.find?, if_neg hk]

/-- A snapshot is there if its text can be worked out. -/
theorem exists_snapshot {html : Text}
    (h : (snapshot package profile).toOption.map Snapshot.html = some html) :
    ∃ s, snapshot package profile = .ok s ∧ s.html = html := by
  cases hs : snapshot package profile with
  | error e =>
    rw [hs] at h
    cases h
  | ok s =>
    rw [hs] at h
    cases h
    exact ⟨s, rfl, rfl⟩

end MarkdownExport.Word
