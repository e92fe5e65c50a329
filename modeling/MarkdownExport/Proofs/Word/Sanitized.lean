import MarkdownExport.Proofs.Word.Frame
import MarkdownExport.Proofs.Word.Openness
import MarkdownExport.Proofs.Xml.Escape

/-! The strict profile is a change of what is read and not of the reading: it gives what the
faithful one gives without the pictures and with sanitized link targets. -/
namespace MarkdownExport.Word
open Xml (Event Tag)

/-- An entry with the sanitized target of its identifier, if there is one. -/
def Relationships.sanitizeEntry (rels : Relationships) (entry : Text × Relationship) :
    Option (Text × Relationship) :=
  ((rels.target? entry.1).bind sanitizeTarget).map fun target =>
    (entry.1, { entry.2 with target := target })

def Relationships.sanitized (rels : Relationships) : Relationships :=
  rels.filterMap rels.sanitizeEntry

/-- An anchor is a target without its number sign. -/
def sanitizeAnchor (a : Attribute) : Attribute :=
  if a.name = "w:anchor".toList then
    match (Xml.unescape a.value).toOption.bind fun anchor => sanitizeTarget ('#' :: anchor) with
    | some target => { a with value := Xml.escape target.tail }
    | none => a
  else a

def sanitizeTag (tag : Tag) : Tag :=
  if Element.ofName tag.name = .hyperlink then
    { tag with attributes := tag.attributes.map sanitizeAnchor }
  else tag

/-- Pictures go, be they empty or not; what is inside them stays. -/
def sanitizeEvent : Event → Option Event
  | .opened tag =>
    if Element.ofName tag.name = .picture then none else some (.opened (sanitizeTag tag))
  | .empty tag =>
    if Element.ofName tag.name = .picture then none else some (.empty (sanitizeTag tag))
  | .closed name => if Element.ofName name = .picture then none else some (.closed name)
  | .text raw => some (.text raw)

def sanitizePart (part : Xml.Scan) : Xml.Scan := ⟨part.events.filterMap sanitizeEvent, part.failure⟩

def State.contents (s : State) : Contents := ⟨s.blocks, s.footnotes, s.seen⟩

/-! Link targets. -/

theorem Relationships.target?_cons (id key : Text) (rel : Relationship) (rels : Relationships) :
    Relationships.target? id ((key, rel) :: rels) =
      if key = id then some rel.target else rels.target? id := by
  by_cases hkey : key = id <;> simp [target?, Dictionary.find?, hkey]

theorem Relationships.target?_sanitized (rels : Relationships) (id : Text) :
    rels.sanitized.target? id = (rels.target? id).bind sanitizeTarget := by
  -- Every entry of an identifier gets the target of the first one, so it does not matter which of
  -- them are looked at.
  have among (entries : Relationships) :
      Relationships.target? id (entries.filterMap rels.sanitizeEntry) =
        (entries.target? id).bind fun _ => (rels.target? id).bind sanitizeTarget := by
    induction entries with
    | nil => rfl
    | cons entry entries ih =>
      obtain ⟨key, rel⟩ := entry
      have hentry : rels.sanitizeEntry (key, rel) =
          ((rels.target? key).bind sanitizeTarget).map fun target =>
            (key, { rel with target := target }) := rfl
      rw [List.filterMap_cons, target?_cons, hentry]
      by_cases hkey : key = id
      · subst hkey
        rw [if_pos rfl]
        cases htarget : (rels.target? key).bind sanitizeTarget with
        | none =>
          rw [htarget] at ih
          simpa using ih
        | some target => simp [target?_cons]
      · rw [if_neg hkey, ← ih]
        cases (rels.target? key).bind sanitizeTarget with
        | none => rfl
        | some target => simp [target?_cons, hkey]
  rw [sanitized, among rels]
  cases rels.target? id <;> rfl

theorem sanitizeTarget_anchor (anchor : Text) :
    ∃ anchor', sanitizeTarget ('#' :: anchor) = some ('#' :: anchor') := by
  have hstart : Text.trimStart ('#' :: anchor) = '#' :: anchor := by
    simp [Text.trimStart, isBlank]
  obtain ⟨rest, htrim⟩ : ∃ rest, Text.trim ('#' :: anchor) = '#' :: rest := by
    rw [Text.trim, hstart, Text.trimEnd, List.reverse_cons, List.dropWhile_append]
    split
    · exact ⟨[], rfl⟩
    · exact ⟨_, by rw [List.reverse_append]; rfl⟩
  refine ⟨rest, ?_⟩
  have hscheme : (scriptSchemes.any fun scheme =>
      Text.startsWith (Text.lower ('#' :: rest)) scheme) = false := rfl
  simp only [sanitizeTarget, htrim, hscheme]
  rfl

theorem sanitizeAnchor_name (a : Attribute) : (sanitizeAnchor a).name = a.name := by
  unfold sanitizeAnchor
  split
  · split <;> rfl
  · rfl

variable {tag : Tag} {rels : Relationships} {numbering : Numbering}

theorem sanitizeTag_name (tag : Tag) : (sanitizeTag tag).name = tag.name := by
  unfold sanitizeTag
  split <;> rfl

theorem linkTarget_sanitizeTag (h : Element.ofName tag.name = .hyperlink) :
    Source.linkTarget ⟨rels.sanitized, numbering, .faithful⟩ (sanitizeTag tag) =
      Source.linkTarget ⟨rels, numbering, .strict⟩ tag := by
  have hfind (key : Text) : (sanitizeTag tag).attributes.find? (fun a => a.name == key) =
      (tag.attributes.find? fun a => a.name == key).map sanitizeAnchor := by
    have hnames : (fun a : Attribute => a.name == key) ∘ sanitizeAnchor =
        fun a => a.name == key := by
      funext a
      exact congrArg (· == key) (sanitizeAnchor_name a)
    rw [sanitizeTag, if_pos h, List.find?_map, hnames]
  have hid : (sanitizeTag tag).value? "r:id" = tag.value? "r:id" := by
    simp only [Tag.value?, hfind]
    cases hfound : tag.attributes.find? fun a => a.name == "r:id".toList with
    | none => rfl
    | some a =>
      have hname : a.name = "r:id".toList := by simpa using List.find?_some hfound
      have hother : a.name ≠ "w:anchor".toList := by
        rw [hname]
        decide
      simp only [Option.map_some, sanitizeAnchor, if_neg hother]
  have hanchor : ((sanitizeTag tag).value? "w:anchor").map ('#' :: ·) =
      ((tag.value? "w:anchor").map ('#' :: ·)).bind sanitizeTarget := by
    simp only [Tag.value?, hfind]
    cases hfound : tag.attributes.find? fun a => a.name == "w:anchor".toList with
    | none => rfl
    | some a =>
      have hname : a.name = "w:anchor".toList := by simpa using List.find?_some hfound
      simp only [Option.map_some, sanitizeAnchor, if_pos hname]
      cases hvalue : Xml.unescape a.value with
      | error e => simp [hvalue, Except.toOption]
      | ok anchor =>
        obtain ⟨anchor', htarget⟩ := sanitizeTarget_anchor anchor
        simp [htarget, Except.toOption]
  simp only [Source.linkTarget, Profile.target, hid]
  cases tag.value? "r:id" with
  | some id => exact rels.target?_sanitized id
  | none => exact hanchor

/-! The two readers side by side. -/

/-- No picture is known to a drawing. -/
def pictureless : Frame := ⟨⟨[], [], []⟩, fun drawing => { drawing with source := none }⟩

/-- The number of elements that are no pictures. -/
def countPlain (names : List Text) : Nat :=
  names.countP fun name => Element.ofName name ≠ .picture

theorem countPlain_cons_picture {name : Text} (h : Element.ofName name = .picture)
    (names : List Text) : countPlain (name :: names) = countPlain names :=
  List.countP_cons_of_neg (by simpa using h)

theorem countPlain_cons_plain {name : Text} (h : Element.ofName name ≠ .picture)
    (names : List Text) : countPlain (name :: names) = countPlain names + 1 :=
  List.countP_cons_of_pos (by simpa using h)

/-- The state of the faithful reader beside the strict one inside the elements `stack`. Pictures do
not count among the elements that it skips. -/
def State.twin (stack : List Text) (s : State) : State :=
  { s.framed pictureless with skipDepth := countPlain (stack.take s.skipDepth) }

theorem State.twin_contents (stack : List Text) (s : State) :
    (s.twin stack).contents = s.contents := by
  simp [contents, twin, framed, pictureless]

theorem State.twin_of_visible {s : State} (h : s.skipDepth = 0) (stack : List Text) :
    s.twin stack = s.framed pictureless := by
  simp [twin, framed, countPlain, h]

section Step
variable (rels) (numbering) (s : State)

theorem openElement_pictureless {tag : Tag} (h : Element.ofName tag.name ≠ .picture) :
    openElement ⟨rels.sanitized, numbering, .faithful⟩ (sanitizeTag tag) (s.framed pictureless) =
      (openElement ⟨rels, numbering, .strict⟩ tag s).framed pictureless := by
  by_cases hlink : Element.ofName tag.name = .hyperlink
  · have hlink' : Element.ofName (sanitizeTag tag).name = .hyperlink := by
      rw [sanitizeTag_name, hlink]
    simp only [openElement, hlink, hlink', linkTarget_sanitizeTag hlink]
    rfl
  · have htag : sanitizeTag tag = tag := if_neg hlink
    rw [htag]
    cases plain : (Element.ofName tag.name).isReferring with
    | false => exact openElement_framed _ s plain
    | true =>
      unfold openElement
      cases he : Element.ofName tag.name with
      | hyperlink => exact absurd he hlink
      | picture => exact absurd he h
      | drawing => rfl
      | drawingProperties => simp [State.framed, pictureless, Function.comp_def]
      | _ => simp [he, Element.isReferring] at plain

/-- A picture changes nothing but the drawing's source. -/
theorem openElement_picture {tag : Tag} (h : Element.ofName tag.name = .picture) :
    (openElement ⟨rels, numbering, .strict⟩ tag s).framed pictureless = s.framed pictureless := by
  simp only [openElement, h, openPicture]
  split
  · simp [State.framed, pictureless, Function.comp_def]
  · rfl

theorem closeElement_picture {σ : Source} {name : Text} (h : Element.ofName name = .picture) :
    closeElement σ name s = s := by
  simp only [closeElement, h]

/-- The strict reader leaves a drawing out because of its profile, and the faithful one because it
knows no source. -/
theorem closeElement_pictureless (name : Text) :
    closeElement ⟨rels.sanitized, numbering, .faithful⟩ name (s.framed pictureless) =
      (closeElement ⟨rels, numbering, .strict⟩ name s).framed pictureless := by
  by_cases hdrawing : Element.ofName name = .drawing
  · simp only [closeElement, hdrawing, closeDrawing]
    obtain ⟨blocks, footnotes, footnote, tables, paragraph, links, run, drawing⟩ := s
    cases drawing <;> rfl
  · have same : (⟨rels.sanitized, numbering, .faithful⟩ : Source).numbering =
        (⟨rels, numbering, .strict⟩ : Source).numbering := rfl
    exact closeElement_framed pictureless s same hdrawing

end Step

section Run
variable {s : State} {stack stack' : List Text}

/-- Outside skipped elements the faithful reader is not shown a picture's tags. -/
theorem step_twin_of_visible (hs : s.skipDepth = 0) {event : Event}
    (hnest : Xml.nestStep stack event = some stack') :
    readEvents ⟨rels.sanitized, numbering, .faithful⟩ (s.twin stack) (sanitizeEvent event).toList =
      (step ⟨rels, numbering, .strict⟩ s event).map (State.twin stack') := by
  have hframed : (s.framed pictureless).skipDepth = 0 := hs
  have htwin {t : State} (ht : t.skipDepth = 0) :
      (Except.ok t : Except Xml.Error State).map (State.twin stack') =
        .ok (t.framed pictureless) :=
    congrArg Except.ok (State.twin_of_visible ht stack')
  rw [State.twin_of_visible hs]
  cases event with
  | opened tag =>
    obtain rfl := Xml.nestStep_opened hnest
    have hopened : (openElement ⟨rels, numbering, .strict⟩ tag s).skipDepth = 0 :=
      (openElement_skipDepth tag).trans hs
    by_cases hpicture : Element.ofName tag.name = .picture
    · rw [step_opened hs (by simp [hpicture]), htwin hopened,
        openElement_picture rels numbering s hpicture, sanitizeEvent, if_pos hpicture]
      rfl
    · rw [sanitizeEvent, if_neg hpicture, Option.toList_some, readEvents_singleton]
      by_cases hskip : Element.ofName tag.name = .skipped
      · rw [step_skipped hs hskip, step_skipped hframed (by rw [sanitizeTag_name, hskip])]
        have hcount : countPlain [tag.name] = 1 := countPlain_cons_plain hpicture []
        simp [Except.map, State.twin, State.framed, hcount]
      · rw [step_opened hs hskip, step_opened hframed (by rwa [sanitizeTag_name]), htwin hopened,
          openElement_pictureless rels numbering s hpicture]
  | empty tag =>
    obtain rfl := Option.some.inj hnest
    have hopened : (openElement ⟨rels, numbering, .strict⟩ tag s).skipDepth = 0 :=
      (openElement_skipDepth tag).trans hs
    have hclosed : (closeElement ⟨rels, numbering, .strict⟩ tag.name
        (openElement ⟨rels, numbering, .strict⟩ tag s)).skipDepth = 0 :=
      (closeElement_skipDepth tag.name).trans hopened
    rw [step_empty hs, htwin hclosed]
    by_cases hpicture : Element.ofName tag.name = .picture
    · rw [closeElement_picture _ hpicture, openElement_picture rels numbering s hpicture,
        sanitizeEvent, if_pos hpicture]
      rfl
    · rw [sanitizeEvent, if_neg hpicture, Option.toList_some, readEvents_singleton,
        step_empty hframed, sanitizeTag_name, openElement_pictureless rels numbering s hpicture,
        closeElement_pictureless rels numbering]
  | closed name =>
    obtain rfl := Xml.nestStep_closed hnest
    have hclosed : (closeElement ⟨rels, numbering, .strict⟩ name s).skipDepth = 0 :=
      (closeElement_skipDepth name).trans hs
    rw [step_closed hs, htwin hclosed]
    by_cases hpicture : Element.ofName name = .picture
    · rw [closeElement_picture s hpicture, sanitizeEvent, if_pos hpicture]
      rfl
    · rw [sanitizeEvent, if_neg hpicture, Option.toList_some, readEvents_singleton,
        step_closed hframed, closeElement_pictureless rels numbering]
  | text raw =>
    obtain rfl := Option.some.inj hnest
    rw [sanitizeEvent, Option.toList_some, readEvents_singleton, step_text hs, step_text hframed,
      captureText_framed]
    cases hcapture : captureText raw s with
    | error e => rfl
    | ok t => exact (htwin ((captureText_skipDepth hcapture).trans hs)).symm

/-- The element that the strict reader skips is no picture, so the faithful one skips it as well. -/
theorem exists_twin_skipDepth (hfits : s.outline.Fits stack) {d : Nat} (hs : s.skipDepth = d + 1) :
    ∃ n, (s.twin stack).skipDepth = n + 1 := by
  obtain ⟨name, hname, hskip⟩ := hfits.skipped d hs
  have hmem : name ∈ stack.take s.skipDepth := by
    rw [hs]
    exact List.mem_of_getElem? ((List.getElem?_take_of_lt d.lt_succ_self).trans hname)
  have hcount : 0 < (s.twin stack).skipDepth :=
    List.countP_pos_iff.mpr ⟨name, hmem, by simp [hskip]⟩
  exact Nat.exists_eq_succ_of_ne_zero hcount.ne'

/-- Inside a skipped element both readers follow the nesting, with the pictures or without them. -/
theorem step_twin_of_skipping (hfits : s.outline.Fits stack) {d : Nat} (hs : s.skipDepth = d + 1)
    {event : Event} (hnest : Xml.nestStep stack event = some stack') :
    readEvents ⟨rels.sanitized, numbering, .faithful⟩ (s.twin stack) (sanitizeEvent event).toList =
      (step ⟨rels, numbering, .strict⟩ s event).map (State.twin stack') := by
  obtain ⟨n, hn⟩ := exists_twin_skipDepth hfits hs
  have hcount : countPlain (stack.take (d + 1)) = n + 1 := by
    rw [← hs]
    exact hn
  have htwin (k m : Nat) (hm : countPlain (stack'.take k) = m) :
      ({ s with skipDepth := k } : State).twin stack' = { s.twin stack with skipDepth := m } := by
    subst hm
    rfl
  have hsame : s.twin stack = { s.twin stack with skipDepth := n + 1 } := by rw [← hn]
  cases event with
  | opened tag =>
    obtain rfl := Xml.nestStep_opened hnest
    by_cases hpicture : Element.ofName tag.name = .picture
    · have hcount' := (countPlain_cons_picture hpicture (stack.take (d + 1))).trans hcount
      simp only [sanitizeEvent, if_pos hpicture, Option.toList_none, step, hs, Except.map]
      rw [htwin (d + 2) (n + 1) hcount', ← hsame]
      rfl
    · have hcount' := (countPlain_cons_plain hpicture (stack.take (d + 1))).trans
        (congrArg (· + 1) hcount)
      simp only [sanitizeEvent, if_neg hpicture, Option.toList_some, readEvents_singleton, step, hs,
        hn, Except.map]
      rw [htwin (d + 2) (n + 2) hcount']
  | closed name =>
    obtain rfl := Xml.nestStep_closed hnest
    by_cases hpicture : Element.ofName name = .picture
    · have hcount' := (countPlain_cons_picture hpicture (stack'.take d)).symm.trans hcount
      simp only [sanitizeEvent, if_pos hpicture, Option.toList_none, step, hs, Except.map]
      rw [htwin d (n + 1) hcount', ← hsame]
      rfl
    · have hcount' := (countPlain_cons_plain hpicture (stack'.take d)).symm.trans hcount
      simp only [sanitizeEvent, if_neg hpicture, Option.toList_some, readEvents_singleton, step, hs,
        hn, Except.map]
      rw [htwin d n (Nat.succ.inj hcount')]
  | empty tag =>
    obtain rfl := Option.some.inj hnest
    simp only [sanitizeEvent, step, hs, Except.map]
    split
    · rfl
    · simp only [Option.toList_some, readEvents_singleton, step, hn]
  | text raw =>
    obtain rfl := Option.some.inj hnest
    simp only [sanitizeEvent, Option.toList_some, readEvents_singleton, step, hs, hn, Except.map]

theorem readEvents_twin (hfits : s.outline.Fits stack) {events : List Event}
    (hnest : Xml.nest stack events = some stack') :
    readEvents ⟨rels.sanitized, numbering, .faithful⟩ (s.twin stack)
        (events.filterMap sanitizeEvent) =
      (readEvents ⟨rels, numbering, .strict⟩ s events).map (State.twin stack') := by
  induction events generalizing s stack with
  | nil =>
    obtain rfl := Option.some.inj hnest
    rfl
  | cons event events ih =>
    obtain ⟨middle, hstep, hrest⟩ := Option.bind_eq_some_iff.mp hnest
    have htwin : readEvents ⟨rels.sanitized, numbering, .faithful⟩ (s.twin stack)
        (sanitizeEvent event).toList =
        (step ⟨rels, numbering, .strict⟩ s event).map (State.twin middle) := by
      cases hs : s.skipDepth with
      | zero => exact step_twin_of_visible hs hstep
      | succ d => exact step_twin_of_skipping hfits hs hstep
    have hevents : (event :: events).filterMap sanitizeEvent =
        (sanitizeEvent event).toList ++ events.filterMap sanitizeEvent := by
      rw [List.filterMap_cons]
      cases sanitizeEvent event <;> rfl
    rw [hevents, readEvents_append, htwin, readEvents_cons]
    cases hread : step ⟨rels, numbering, .strict⟩ s event with
    | error e => rfl
    | ok t =>
      have hfits' : t.outline.Fits middle := by
        rw [step_outline hread]
        exact hfits.step hstep
      exact ih hfits' hrest

end Run

/-- A strict reading of a part gives what a faithful reading gives of the part without its pictures,
when each link has its sanitized target. -/
theorem readPart_strict (rels : Relationships) (numbering : Numbering) (xml : Text) :
    (readPart ⟨rels, numbering, .strict⟩ (Xml.scan xml)).map State.contents =
        (readPart ⟨rels.sanitized, numbering, .faithful⟩
          (sanitizePart (Xml.scan xml))).map State.contents ∧
    ∀ tag, Element.ofName tag.name = .hyperlink →
      Source.linkTarget ⟨rels.sanitized, numbering, .faithful⟩ (sanitizeTag tag) =
        (Source.linkTarget ⟨rels, numbering, .faithful⟩ tag).bind sanitizeTarget := by
  refine ⟨?_, fun tag h => linkTarget_sanitizeTag h⟩
  obtain ⟨stack, hnest⟩ := Xml.exists_nest_scan xml
  have htwin : readEvents ⟨rels.sanitized, numbering, .faithful⟩ {}
      ((Xml.scan xml).events.filterMap sanitizeEvent) =
      (readEvents ⟨rels, numbering, .strict⟩ {} (Xml.scan xml).events).map (State.twin stack) :=
    readEvents_twin Outline.Fits.initial hnest
  simp only [readPart, sanitizePart, htwin]
  cases readEvents ⟨rels, numbering, .strict⟩ {} (Xml.scan xml).events with
  | error e => rfl
  | ok s =>
    cases (Xml.scan xml).failure with
    | some e => rfl
    | none => exact congrArg Except.ok (s.twin_contents stack).symm

/-- A script link keeps its text, and the text on both sides of a picture is one run. -/
theorem readPart_strict_script :
    let rels : Relationships := [("r", ⟨"javascript:f()", []⟩), ("i", ⟨"i.png", []⟩)]
    let xml : Text := "<w:p><w:hyperlink r:id='r'><w:r><w:t>x</w:t><w:drawing>" ++
      "<a:blip r:embed='i'/></w:drawing><w:t>y</w:t></w:r></w:hyperlink></w:p>"
    (readPart ⟨rels.sanitized, [], .faithful⟩ (sanitizePart (Xml.scan xml))).map State.contents =
        .ok ⟨[.text .paragraph "xy"], [], [.hyperlink]⟩ ∧
      Source.linkTarget ⟨rels.sanitized, [], .faithful⟩
        (sanitizeTag ⟨"w:hyperlink", [⟨"r:id", "r"⟩]⟩) = none := by
  intro rels xml
  have hread : readPart ⟨rels, [], .strict⟩ (Xml.scan xml) =
      .ok { blocks := [.text .paragraph "xy"], seen := [.hyperlink] } :=
    eq_ok_of_toOption (by decide +kernel)
  obtain ⟨hcontents, htarget⟩ := readPart_strict rels [] xml
  constructor
  · rw [← hcontents, hread]
    rfl
  · rw [htarget _ (by decide)]
    decide

end MarkdownExport.Word
