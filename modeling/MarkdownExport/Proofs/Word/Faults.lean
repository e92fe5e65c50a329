import MarkdownExport.Proofs.Word.Openness

/-! When a package cannot be read, and why. Reading is a row of steps, and the first step at fault
tells the failure. Neither the profile nor any part beside the five that are consulted has a say. -/
namespace MarkdownExport

/-- The part that an error is about, if it is about one. -/
def Error.part? : Error → Option Text
  | .xml part _ => some part
  | .missingPart name | .invalidUtf8 name => some name
  | .zip _ | .io _ => none

/-- The message tells the part. -/
theorem Error.part_infix_message {e : Error} {part : Text} (h : e.part? = some part) :
    part <:+: e.message := by
  cases e with
  | zip | io => cases h
  | xml name fault =>
    cases h
    exact ⟨_, _, (List.append_assoc _ _ _).symm⟩
  | missingPart name | invalidUtf8 name =>
    cases h
    exact ⟨_, _, rfl⟩

namespace Word
open Xml (Event)

/-- What a computation fails with. -/
def fault? {ε α : Type} : Except ε α → Option ε
  | .ok _ => none
  | .error e => some e

theorem fault?_eq_some {ε α : Type} {x : Except ε α} {e : ε} :
    fault? x = some e ↔ x = .error e := by
  cases x <;> simp [fault?]

theorem fault?_eq_none {ε α : Type} {x : Except ε α} : fault? x = none ↔ ∃ a, x = .ok a := by
  cases x <;> simp [fault?]

/-- A second step whose fault does not hang on what the first one gives. -/
theorem fault?_bind {ε α β : Type} {x : Except ε α} {f : α → Except ε β} {later : Option ε}
    (h : ∀ a, x = .ok a → fault? (f a) = later) : fault? (x >>= f) = (fault? x).or later := by
  cases x with
  | error e => rfl
  | ok a => exact h a rfl

theorem fault?_bind_ok {ε α β : Type} (x : Except ε α) (g : α → β) :
    fault? (x >>= fun a => .ok (g a)) = fault? x := by
  cases x <;> rfl

theorem findSome?_cons_eq_or {α β : Type} (f : α → Option β) (a : α) (as : List α) :
    (a :: as).findSome? f = (f a).or (as.findSome? f) := by
  rw [List.findSome?_cons]
  cases f a <;> rfl

theorem fault?_inPart {α : Type} (part : Text) (x : Except Xml.Error α) :
    fault? (inPart part x) = (fault? x).map (.xml part) := by
  cases x <;> rfl

/-! Within a part. -/

/-- Whether the reader takes in a text here, outside skipped elements. -/
def Outline.captures (o : Outline) : Bool :=
  o.skipDepth == 0 && (o.holds .text || o.holds .instruction)

def Outline.captured? (o : Outline) : Event → Option Text
  | .text raw => if o.captures then some raw else none
  | _ => none

/-- The texts that are taken in from the events, as they are written. -/
def capturedTexts (o : Outline) : List Event → List Text
  | [] => []
  | event :: events => (o.captured? event).toList ++ capturedTexts (o.step event) events

/-- What is wrong with the entities of a text. -/
def entityFault? (raw : Text) : Option Xml.Error := (fault? (Xml.unescape raw)).map .entity

/-- What is wrong with a part that is read: the first text in it that cannot be taken in, or else
its markup. -/
def readingFault? (part : Xml.Scan) : Option Xml.Error :=
  ((capturedTexts (State.outline {}) part.events).findSome? entityFault?).or part.failure

section Part
variable {σ : Source} {s : State}

theorem captureText_fault? (hs : s.skipDepth = 0) (raw : Text) :
    fault? (captureText raw s) = (s.outline.captured? (.text raw)).bind entityFault? := by
  have hcaptures : s.outline.captures = (s.capturesText || s.capturesInstruction) := by
    simp [Outline.captures, State.outline, hs]
  unfold captureText Outline.captured?
  rw [hcaptures]
  split
  · rw [Option.bind_some, entityFault?]
    cases Xml.unescape raw <;> rfl
  · rfl

/-- Only a text that is taken in can be at fault. -/
theorem step_fault? (event : Event) :
    fault? (step σ s event) = (s.outline.captured? event).bind entityFault? := by
  obtain ⟨d, hd⟩ : ∃ d, s.skipDepth = d := ⟨_, rfl⟩
  cases d with
  | zero =>
    cases event with
    | opened tag =>
      by_cases hskip : Element.ofName tag.name = .skipped
      · rw [step_skipped hd hskip]
        rfl
      · rw [step_opened hd hskip]
        rfl
    | empty tag =>
      rw [step_empty hd]
      rfl
    | closed name =>
      rw [step_closed hd]
      rfl
    | text raw =>
      rw [step_text hd]
      exact captureText_fault? hd raw
  | succ d =>
    have hskipped : s.outline.captures = false := by simp [Outline.captures, State.outline, hd]
    cases event with
    | opened tag | closed name | empty tag =>
      simp only [step, hd]
      rfl
    | text raw =>
      simp only [step, hd, Outline.captured?, hskipped]
      rfl

theorem readEvents_fault? (events : List Event) :
    fault? (readEvents σ s events) =
      (capturedTexts s.outline events).findSome? entityFault? := by
  induction events generalizing s with
  | nil => rfl
  | cons event events ih =>
    have hlater : ∀ t, step σ s event = .ok t → fault? (readEvents σ t events) =
        (capturedTexts (s.outline.step event) events).findSome? entityFault? := by
      intro t ht
      rw [ih, step_outline ht]
    rw [readEvents_cons, fault?_bind hlater, step_fault?, capturedTexts, List.findSome?_append]
    cases s.outline.captured? event <;> simp

theorem readPart_fault? (part : Xml.Scan) : fault? (readPart σ part) = readingFault? part := by
  have hevents := readEvents_fault? (σ := σ) (s := {}) part.events
  unfold readPart readingFault?
  rw [← hevents]
  cases readEvents σ {} part.events with
  | error e => rfl
  | ok s => cases part.failure <;> rfl

end Part

/-! Within a package. -/

def Package.part? (package : Package) (name : Text) : Option Part :=
  package.find? fun part => part.name == name

/-- The content of every part can be had. -/
def Package.IsReadable (package : Package) : Prop :=
  ∀ part ∈ package, ∃ bytes, part.content = .ok bytes

/-- The parts that reading looks for. Relationships of footnotes count only where there are
footnotes. -/
def Package.consulted (package : Package) : List Text :=
  [documentPart, documentRelationshipsPart, numberingPart, footnotesPart] ++
    if (package.part? footnotesPart).isSome then [footnotesRelationshipsPart] else []

inductive Consultation where
  /-- To get the text of a part, which may be missing unless it is the document. -/
  | load
  /-- To look at the markup of a part alone. -/
  | tokenize
  /-- To take in the content of a part. -/
  | read
  deriving DecidableEq, Repr

/-- What is done about footnotes. -/
def Package.noteConsultations (package : Package) : List (Consultation × Text) :=
  if (package.part? footnotesPart).isSome then
    [(.load, footnotesPart), (.load, footnotesRelationshipsPart),
     (.tokenize, footnotesRelationshipsPart), (.read, footnotesPart)]
  else []

/-- What is done with which part, in this order. -/
def Package.consultations (package : Package) : List (Consultation × Text) :=
  [(.load, documentPart), (.load, documentRelationshipsPart),
   (.tokenize, documentRelationshipsPart), (.load, numberingPart), (.tokenize, numberingPart),
   (.read, documentPart)] ++ package.noteConsultations

def Package.loadingFault? (package : Package) (name : Text) : Option Error :=
  match package.part? name with
  | none => if name = documentPart then some (.missingPart name) else none
  | some part =>
    match part.content with
    | .error e => some e
    | .ok bytes => if bytes.IsValidUTF8 then none else some (.invalidUtf8 name)

/-- What is wrong with the XML of a part, if there is any. -/
def Package.xmlFault? (package : Package) (name : Text) (inside? : Xml.Scan → Option Xml.Error) :
    Option Error :=
  match package.text? name with
  | .ok (some xml) => (inside? (Xml.scan xml)).map (.xml name)
  | _ => none

/-- Why a step fails, if the steps before it did not. -/
def Package.stepFault? (package : Package) : Consultation × Text → Option Error
  | (.load, name) => package.loadingFault? name
  | (.tokenize, name) => package.xmlFault? name Xml.Scan.failure
  | (.read, name) => package.xmlFault? name readingFault?

theorem Relationships.fault?_ofScan (scan : Xml.Scan) :
    fault? (Relationships.ofScan scan) = scan.failure := by
  unfold Relationships.ofScan
  cases scan.failure <;> rfl

theorem Numbering.fault?_ofScan (scan : Xml.Scan) :
    fault? (Numbering.ofScan scan) = scan.failure := by
  unfold Numbering.ofScan
  cases scan.failure <;> rfl

section Package
variable {package : Package} {name : Text}

theorem Package.text?_eq_none : package.text? name = .ok none ↔ package.part? name = none := by
  unfold text? part?
  cases package.find? fun part => part.name == name with
  | none => simp
  | some part =>
    cases hcontent : part.content with
    | error e => simp [hcontent]
    | ok bytes => cases htext : String.fromUTF8? bytes <;> simp [hcontent, htext]

theorem Package.loadingFault?_eq (package : Package) (name : Text) :
    package.loadingFault? name =
      match package.text? name with
      | .error e => some e
      | .ok none => if name = documentPart then some (.missingPart name) else none
      | .ok (some _) => none := by
  unfold loadingFault? text? part? String.fromUTF8?
  cases package.find? fun part => part.name == name with
  | none => rfl
  | some part =>
    cases hcontent : part.content with
    | error e => simp only [hcontent]
    | ok bytes =>
      by_cases h : bytes.IsValidUTF8
      · simp only [hcontent, dif_pos h, if_pos h]
      · simp only [hcontent, dif_neg h, if_neg h]

theorem fault?_readOptional {α : Type} (hname : name ≠ documentPart) {missing : α}
    {interpret : Xml.Scan → Except Xml.Error α}
    (hinterpret : ∀ scan, fault? (interpret scan) = scan.failure) :
    fault? (readOptional package name missing interpret) =
      (package.loadingFault? name).or (package.xmlFault? name Xml.Scan.failure) := by
  rw [Package.loadingFault?_eq]
  unfold readOptional Package.xmlFault?
  cases package.text? name with
  | error e => rfl
  | ok text? =>
    cases text? with
    | none => simp only [if_neg hname]; rfl
    | some xml =>
      refine (fault?_inPart name _).trans ?_
      rw [hinterpret]
      rfl

/-- The step that reads a part, whatever the relationships and the numbering are. -/
theorem fault?_read {xml : Text} (htext : package.text? name = .ok (some xml)) (σ : Source) :
    fault? (inPart name (readPart σ (Xml.scan xml))) = package.stepFault? (.read, name) := by
  rw [fault?_inPart, readPart_fault?, Package.stepFault?, Package.xmlFault?, htext]

theorem readNotes_fault? (numbering : Numbering) (profile : Profile) :
    fault? (readNotes package numbering profile) =
      package.noteConsultations.findSome? package.stepFault? := by
  have hload := Package.loadingFault?_eq package footnotesPart
  unfold readNotes Package.noteConsultations
  cases htext : package.text? footnotesPart with
  | error e =>
    have hpresent : (package.part? footnotesPart).isSome := by
      simp [Option.isSome_iff_ne_none, ← Package.text?_eq_none, htext]
    rw [htext] at hload
    rw [if_pos hpresent, findSome?_cons_eq_or, Package.stepFault?, hload]
    rfl
  | ok given? =>
    cases given? with
    | none =>
      rw [Package.text?_eq_none] at htext
      rw [htext]
      rfl
    | some xml =>
      have hpresent : (package.part? footnotesPart).isSome := by
        simp [Option.isSome_iff_ne_none, ← Package.text?_eq_none, htext]
      rw [htext] at hload
      change fault? (readOptional _ footnotesRelationshipsPart [] Relationships.ofScan >>= _) = _
      refine Eq.trans
        (fault?_bind fun rels _ => (fault?_bind_ok _ _).trans (fault?_read htext _)) ?_
      rw [fault?_readOptional (by decide) Relationships.fault?_ofScan, if_pos hpresent]
      simp only [findSome?_cons_eq_or, List.findSome?_nil, Package.stepFault?, hload,
        Option.or_none, Option.none_or, Option.or_assoc]

/-- Reading a package fails as its first step at fault does, and only then. -/
theorem readContents_fault? (profile : Profile) :
    fault? (readContents package profile) =
      package.consultations.findSome? package.stepFault? := by
  have hload := Package.loadingFault?_eq package documentPart
  unfold readContents Package.consultations
  cases htext : package.text? documentPart with
  | error e =>
    rw [htext] at hload
    rw [List.cons_append, findSome?_cons_eq_or, Package.stepFault?, hload]
    rfl
  | ok given? =>
    rw [htext] at hload
    cases given? with
    | none =>
      rw [List.cons_append, findSome?_cons_eq_or, Package.stepFault?, hload]
      rfl
    | some xml =>
      have hread (rels : Relationships) (numbering : Numbering)
          (contents : State → List Footnote → Contents) :
          fault? (do
            let s ← inPart documentPart (readPart ⟨rels, numbering, profile⟩ (Xml.scan xml))
            let notes ← readNotes package numbering profile
            Except.ok (contents s notes)) =
            (package.stepFault? (.read, documentPart)).or
              (package.noteConsultations.findSome? package.stepFault?) := by
        rw [← fault?_read htext ⟨rels, numbering, profile⟩, ← readNotes_fault? numbering profile]
        exact fault?_bind fun _ _ => fault?_bind_ok _ _
      -- what a step is at fault for does not hang on what the steps before it gave
      change fault? (readOptional _ documentRelationshipsPart [] Relationships.ofScan >>= _) = _
      refine Eq.trans (fault?_bind fun rels _ => fault?_bind fun numbering _ =>
        hread rels numbering fun s notes => ⟨s.blocks, notes, _⟩) ?_
      rw [fault?_readOptional (by decide) Relationships.fault?_ofScan,
        fault?_readOptional (by decide) Numbering.fault?_ofScan]
      simp only [List.cons_append, List.nil_append, findSome?_cons_eq_or, Package.stepFault?, hload,
        Option.none_or, Option.or_assoc]

theorem snapshot_fault? (profile : Profile) :
    fault? (snapshot package profile) = package.consultations.findSome? package.stepFault? := by
  rw [← readContents_fault? profile]
  exact fault?_bind_ok _ _

/-! Packages without a fault. -/

theorem entityFault?_eq_none {raw : Text} :
    entityFault? raw = none ↔ ∃ t, Xml.unescape raw = .ok t := by
  rw [entityFault?, Option.map_eq_none_iff, fault?_eq_none]

theorem readingFault?_eq_none {part : Xml.Scan} :
    readingFault? part = none ↔
      (∀ raw ∈ capturedTexts (State.outline {}) part.events, ∃ t, Xml.unescape raw = .ok t) ∧
        part.failure = none := by
  simp only [readingFault?, Option.or_eq_none_iff, List.findSome?_eq_none_iff, entityFault?_eq_none]

theorem Package.xmlFault?_eq_none {inside? : Xml.Scan → Option Xml.Error} :
    package.xmlFault? name inside? = none ↔
      ∀ xml, package.text? name = .ok (some xml) → inside? (Xml.scan xml) = none := by
  unfold xmlFault?
  split
  · rename_i xml htext
    rw [Option.map_eq_none_iff, htext]
    exact ⟨fun h _ hxml => by cases hxml; exact h, fun h => h xml rfl⟩
  · rename_i hmissing
    exact ⟨fun _ xml hxml => absurd hxml (hmissing xml), fun _ => rfl⟩

theorem Package.loadingFault?_eq_none :
    package.loadingFault? name = none ↔
      (name = documentPart → (package.part? name).isSome) ∧
        ∀ part, package.part? name = some part →
          ∃ bytes, part.content = .ok bytes ∧ bytes.IsValidUTF8 := by
  unfold loadingFault?
  cases package.part? name with
  | none => simp
  | some part =>
    cases hcontent : part.content with
    | error e => simp [hcontent]
    | ok bytes => simp [hcontent]

theorem Package.mem_consulted {kind : Consultation} (h : (kind, name) ∈ package.consultations) :
    name ∈ package.consulted := by
  unfold consultations noteConsultations at h
  unfold consulted
  split at h <;> grind

/-- Every part that is there and consulted is loaded and gone through. -/
theorem Package.mem_consultations (h : name ∈ package.consulted)
    (hpart : (package.part? name).isSome) :
    (.load, name) ∈ package.consultations ∧
      ((.tokenize, name) ∈ package.consultations ∨ (.read, name) ∈ package.consultations) := by
  unfold consulted at h
  unfold consultations noteConsultations
  by_cases hnotes : (package.part? footnotesPart).isSome
  · rw [if_pos hnotes] at h ⊢
    simp only [List.cons_append, List.nil_append, List.mem_cons, List.not_mem_nil, or_false] at h
    rcases h with rfl | rfl | rfl | rfl | rfl <;> simp
  · rw [if_neg hnotes] at h ⊢
    simp only [List.append_nil, List.mem_cons, List.not_mem_nil, or_false] at h
    rcases h with rfl | rfl | rfl | rfl
    · simp
    · simp
    · simp
    · exact absurd hpart hnotes

theorem Package.read_mem_consultations :
    (.read, name) ∈ package.consultations ↔
      name = documentPart ∨ (package.part? footnotesPart).isSome ∧ name = footnotesPart := by
  unfold consultations noteConsultations
  by_cases hnotes : (package.part? footnotesPart).isSome <;> simp [hnotes]

/-- What it takes for a package to be read. -/
structure Package.IsSound (package : Package) : Prop where
  document : (package.part? documentPart).isSome
  encoded : ∀ name ∈ package.consulted, ∀ part, package.part? name = some part →
    ∃ bytes, part.content = .ok bytes ∧ bytes.IsValidUTF8
  tokenized : ∀ name ∈ package.consulted, ∀ xml, package.text? name = .ok (some xml) →
    (Xml.scan xml).failure = none
  unescaped : ∀ name, name = documentPart ∨ name = footnotesPart →
    ∀ xml, package.text? name = .ok (some xml) →
      ∀ raw ∈ capturedTexts (State.outline {}) (Xml.scan xml).events,
        ∃ t, Xml.unescape raw = .ok t

theorem Package.text?_congr {package' : Package} (h : package'.part? name = package.part? name) :
    package'.text? name = package.text? name := by
  unfold text?
  change (match package'.part? name with | none => _ | some part => _) = _
  rw [h]
  rfl

/-- No step is at fault in sound packages, and in no others. -/
theorem Package.isSound_iff :
    package.IsSound ↔ ∀ step ∈ package.consultations, package.stepFault? step = none := by
  constructor
  · rintro h ⟨kind, name⟩ hstep
    have hname := mem_consulted hstep
    cases kind with
    | load =>
      refine loadingFault?_eq_none.mpr ⟨?_, h.encoded name hname⟩
      rintro rfl
      exact h.document
    | tokenize => exact xmlFault?_eq_none.mpr (h.tokenized name hname)
    | read =>
      have hread : name = documentPart ∨ name = footnotesPart :=
        (read_mem_consultations.mp hstep).imp_right And.right
      refine xmlFault?_eq_none.mpr fun xml htext => readingFault?_eq_none.mpr ⟨?_, ?_⟩
      · exact h.unescaped name hread xml htext
      · exact h.tokenized name hname xml htext
  · intro h
    have hdocument : (package.part? documentPart).isSome :=
      (loadingFault?_eq_none.mp (h (.load, documentPart) (by simp [consultations]))).1 rfl
    have hpart {name : Text} {xml : Text} (htext : package.text? name = .ok (some xml)) :
        (package.part? name).isSome := by
      simp [Option.isSome_iff_ne_none, ← text?_eq_none, htext]
    refine ⟨hdocument, fun name hname part hfound => ?_, fun name hname xml htext => ?_,
      fun name hname xml htext => ?_⟩
    · have hload := (mem_consultations hname (Option.isSome_of_eq_some hfound)).1
      exact (loadingFault?_eq_none.mp (h _ hload)).2 part hfound
    · rcases (mem_consultations hname (hpart htext)).2 with hstep | hstep
      · exact xmlFault?_eq_none.mp (h _ hstep) xml htext
      · exact (readingFault?_eq_none.mp (xmlFault?_eq_none.mp (h _ hstep) xml htext)).2
    · have hstep : (.read, name) ∈ package.consultations := by
        rw [read_mem_consultations]
        rcases hname with rfl | rfl
        · exact .inl rfl
        · exact .inr ⟨hpart htext, rfl⟩
      exact (readingFault?_eq_none.mp (xmlFault?_eq_none.mp (h _ hstep) xml htext)).1

/-- A step that fails names its part, unless the part's content cannot be had. -/
theorem Package.stepFault?_part? (hreadable : package.IsReadable) {step : Consultation × Text}
    {e : Error} (h : package.stepFault? step = some e) : e.part? = some step.2 := by
  obtain ⟨kind, name⟩ := step
  have hxml {inside? : Xml.Scan → Option Xml.Error} (h : package.xmlFault? name inside? = some e) :
      e.part? = some name := by
    unfold xmlFault? at h
    split at h
    · obtain ⟨fault, -, rfl⟩ := Option.map_eq_some_iff.mp h
      rfl
    · cases h
  cases kind with
  | tokenize | read => exact hxml h
  | load =>
    change package.loadingFault? name = some e at h
    unfold loadingFault? at h
    cases hpart : package.part? name with
    | none =>
      rw [hpart] at h
      obtain ⟨-, he⟩ := Option.ite_none_right_eq_some.mp h
      cases he
      rfl
    | some part =>
      obtain ⟨bytes, hbytes⟩ := hreadable part (List.mem_of_find?_eq_some hpart)
      rw [hpart] at h
      simp only [hbytes] at h
      obtain ⟨-, he⟩ := Option.ite_none_left_eq_some.mp h
      cases he
      rfl

/-- Parts that are not consulted, and footnote relationships without footnotes, do not matter. -/
theorem snapshot_congr {package' : Package} (profile : Profile)
    (h : ∀ name ∈ package.consulted, package'.part? name = package.part? name) :
    snapshot package' profile = snapshot package profile := by
  have htext (name : Text) (hname : name ∈ package.consulted) :
      package'.text? name = package.text? name := Package.text?_congr (h name hname)
  have hnotes (numbering : Numbering) :
      readNotes package' numbering profile = readNotes package numbering profile := by
    unfold readNotes readOptional
    rw [htext footnotesPart (by simp [Package.consulted])]
    by_cases hpresent : (package.part? footnotesPart).isSome
    · rw [htext footnotesRelationshipsPart (by simp [Package.consulted, hpresent])]
    · have hnone : package.text? footnotesPart = .ok none := by
        rw [Package.text?_eq_none]
        simpa using hpresent
      rw [hnone]
      rfl
  unfold snapshot readContents readOptional
  simp only [hnotes, htext documentPart (by simp [Package.consulted]),
    htext documentRelationshipsPart (by simp [Package.consulted]),
    htext numberingPart (by simp [Package.consulted])]

/-- Reading succeeds exactly with sound packages. Otherwise the first of its steps that is at fault
tells the failure, which names that step's part. Profiles fail alike, and no part counts that is not
consulted. -/
theorem snapshot_failure (package : Package) (profile : Profile)
    (hreadable : package.IsReadable) :
    ((∃ s, snapshot package profile = .ok s) ↔ package.IsSound) ∧
      (∀ e, snapshot package profile = .error e ↔
        ∃ before step after, package.consultations = before ++ step :: after ∧
          (∀ earlier ∈ before, package.stepFault? earlier = none) ∧
          package.stepFault? step = some e ∧ e.part? = some step.2 ∧ step.2 <:+: e.message) ∧
      (∀ other, fault? (snapshot package other) = fault? (snapshot package profile)) ∧
      ∀ package' : Package,
        (∀ name ∈ package.consulted, package'.part? name = package.part? name) →
          snapshot package' profile = snapshot package profile := by
  refine ⟨?_, fun e => ?_, fun other => ?_, fun package' h => snapshot_congr profile h⟩
  · rw [← fault?_eq_none, snapshot_fault?, List.findSome?_eq_none_iff, Package.isSound_iff]
  · rw [← fault?_eq_some, snapshot_fault?, List.findSome?_eq_some_iff]
    constructor
    · rintro ⟨before, step, after, heq, hstep, hbefore⟩
      have hpart := Package.stepFault?_part? hreadable hstep
      exact ⟨before, step, after, heq, hbefore, hstep, hpart, Error.part_infix_message hpart⟩
    · rintro ⟨before, step, after, heq, hbefore, hstep, -⟩
      exact ⟨before, step, after, heq, hstep, hbefore⟩
  · rw [snapshot_fault?, snapshot_fault?]

theorem Package.isReadable_ofTexts (parts : Dictionary Text) :
    (Package.ofTexts parts).IsReadable := by
  intro part hpart
  obtain ⟨_, -, rfl⟩ := List.mem_map.mp hpart
  exact ⟨_, rfl⟩

/-- A package whose document has an unknown entity and whose numbering closes another element. -/
def twoFaults : Package := .ofTexts
  [(documentPart, "<w:p><w:r><w:t>&none;</w:t></w:r></w:p>"), (numberingPart, "<a></b>")]

/-- Numbering comes before the content of the document. -/
theorem snapshot_failure_twoFaults :
    snapshot twoFaults .strict = .error (.xml numberingPart (.mismatched "a" "b")) ∧
      ∃ before step after, twoFaults.consultations = before ++ step :: after ∧
        (∀ earlier ∈ before, twoFaults.stepFault? earlier = none) ∧ step.2 = numberingPart := by
  have hfault : fault? (snapshot twoFaults .strict) =
      some (.xml numberingPart (.mismatched "a" "b")) := by
    simp only [snapshot, readContents, readNotes, readOptional, twoFaults, Package.text?_ofTexts]
    decide +kernel
  have herror := fault?_eq_some.mp hfault
  have hreadable : twoFaults.IsReadable := Package.isReadable_ofTexts _
  obtain ⟨-, hfirst, -⟩ := snapshot_failure twoFaults .strict hreadable
  obtain ⟨before, step, after, heq, hbefore, -, hpart, -⟩ := (hfirst _).mp herror
  exact ⟨herror, before, step, after, heq, hbefore, (Option.some.inj hpart).symm⟩

end Package

end Word
end MarkdownExport
