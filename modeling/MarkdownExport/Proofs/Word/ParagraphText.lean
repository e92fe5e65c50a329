import Mathlib.Data.List.Perm.Subperm
import MarkdownExport.Proofs.Word.Ancestry
import MarkdownExport.Proofs.Word.Openness
import MarkdownExport.Proofs.Word.PlainText

/-! Text on its way into a paragraph. What is captured waits in the open run, then in the open
links, and stays in its order; the only way to lose it is to leave a run that holds text. -/
namespace MarkdownExport.Word
open Xml (Event Balanced nest nestStep)
open scoped List

namespace State

/-- The text of the open paragraph outside its open run: its own, then that of its open links from
the outermost on. -/
def placedText (s : State) : Text :=
  (s.paragraph.elim [] fun p => plainText p.content.finish) ++
    s.links.reverse.flatMap fun link => plainText link.content.finish

def runText (s : State) : Text := s.run.elim [] fun run => plainText run.content

/-- The text of the open paragraph so far. -/
def lineText (s : State) : Text := s.placedText ++ s.runText

/-- The text that an event gives to the document. -/
def captured (s : State) : Event → Text
  | .text raw =>
    if s.skipDepth = 0 ∧ s.capturesText ∧ !s.capturesInstruction then
      (Xml.unescape raw).toOption.getD []
    else []
  | _ => []

/-- The text of a run that is left before its end: another run starts, or the paragraph ends. -/
def stranded (s : State) : Event → Text
  | .opened tag | .empty tag =>
    if s.skipDepth = 0 ∧ Element.ofName tag.name = .run then s.runText else []
  | .closed name => if s.skipDepth = 0 ∧ Element.ofName name = .paragraph then s.runText else []
  | .text _ => []

end State

/-- What `f` gives for the events, each with the state in which the reader meets it. -/
def collect (σ : Source) (f : State → Event → Text) (s : State) : List Event → Text
  | [] => []
  | event :: events =>
    f s event ++ match step σ s event with
      | .ok t => collect σ f t events
      | .error _ => []

namespace Outline
variable {o : Outline} {k : Element}

theorem opened_holds (h : o.holds k = true) (e : Element) : (o.opened e).holds k = true := by
  simp [opened, h]

theorem closed_holds (h : o.holds k = true) {e : Element} (hne : e ≠ k) :
    (o.closed e).holds k = true := by
  simp [closed, h, Ne.symm hne]

/-- What is open stays so until an element of its kind ends. -/
theorem step_holds (h : o.holds k = true) {event : Event}
    (hne : o.skipDepth = 0 → eventElement? event ≠ some k) : (o.step event).holds k = true := by
  obtain ⟨holds, depth, d⟩ := o
  cases d with
  | zero =>
    have hevent := hne rfl
    cases event with
    | opened tag =>
      simp only [step]
      split
      · exact h
      · exact opened_holds h _
    | empty tag => exact closed_holds (opened_holds h _) fun he => hevent (congrArg some he)
    | closed name => exact closed_holds h fun he => hevent (congrArg some he)
    | text raw => exact h
  | succ d => cases event <;> exact h

end Outline

section Line
variable {V : Vocabulary} {σ : Source} {s : State}

namespace State

theorem runText_onInline (change : Inline → Inline) : (s.onInline change).runText = s.runText := by
  obtain ⟨blocks, footnotes, footnote, tables, paragraph, links⟩ := s
  cases links with
  | cons link links => rfl
  | nil => cases paragraph <;> rfl

theorem isSome_paragraph_onInline (change : Inline → Inline) :
    (s.onInline change).paragraph.isSome = s.paragraph.isSome :=
  congrArg (fun o => o.holds .paragraph) (outline_onInline change)

/-- A change that adds text to inline content adds it at the end of what is placed. -/
theorem placedText_onInline (hs : s.IsMarkup V) (hopen : s.paragraph.isSome)
    {change : Inline → Inline} {u : Text}
    (hchange : ∀ i, i.IsMarkup V → plainText (change i).finish = plainText i.finish ++ u) :
    (s.onInline change).placedText = s.placedText ++ u := by
  obtain ⟨blocks, footnotes, footnote, tables, paragraph, links⟩ := s
  obtain ⟨p, rfl⟩ := Option.isSome_iff_exists.mp hopen
  cases links with
  | cons link links =>
    have hlink := hchange _ (hs.links link List.mem_cons_self).1
    simp [placedText, onInline, hlink]
  | nil =>
    have hp := hchange _ (hs.paragraph p rfl)
    simp [placedText, onInline, hp]

theorem lineText_pushText (hs : s.IsMarkup V) (hopen : s.paragraph.isSome) {html : Text}
    (hhtml : IsInline V html) : (s.pushText html).lineText = s.lineText ++ plainText html := by
  unfold pushText
  cases hrun : s.run with
  | some run =>
    simp only [lineText, runText, hrun, Option.elim_some, plainText_append (hs.run run hrun) hhtml]
    exact (List.append_assoc _ _ _).symm
  | none =>
    have hpush := placedText_onInline hs hopen fun i hi => hi.plainText_pushRun hhtml {}
    have hempty : s.runText = [] := by simp [runText, hrun]
    simp only [lineText, runText_onInline, hpush, hempty, List.append_nil]

theorem lineText_fieldInstruction (instruction : Text) :
    (s.fieldInstruction instruction).lineText = s.lineText := by
  unfold fieldInstruction
  split <;> rfl

theorem lineText_onTable (change : OpenTable → OpenTable) :
    (s.onTable change).lineText = s.lineText := by
  obtain ⟨blocks, footnotes, footnote, tables⟩ := s
  cases tables <;> rfl

theorem lineText_onFormat (change : RunFormat → RunFormat) :
    (s.onFormat change).lineText = s.lineText := by
  obtain ⟨blocks, footnotes, footnote, tables, paragraph, links, run, drawing, inProperties⟩ := s
  cases inProperties <;> cases run <;> rfl

theorem lineText_onParagraph {change : OpenParagraph → OpenParagraph}
    (h : ∀ p, (change p).content = p.content) :
    ({ s with paragraph := s.paragraph.map change } : State).lineText = s.lineText := by
  cases hp : s.paragraph <;> simp [lineText, placedText, runText, hp, h]

end State

theorem openBreak_lineText (hs : s.IsMarkup V) (hopen : s.paragraph.isSome) (tag : Xml.Tag) :
    ∃ added, (openBreak tag s).lineText = s.lineText ++ added := by
  unfold openBreak
  split
  · exact ⟨[], (List.append_nil _).symm⟩
  · split
    · exact ⟨[], (List.append_nil _).symm⟩
    · exact ⟨_, State.lineText_pushText hs hopen ⟨_, .lineBreak⟩⟩

theorem openReference_lineText (hs : s.IsMarkup V) (tag : Xml.Tag) :
    ∃ added, (openReference tag s).lineText = s.lineText ++ added := by
  unfold openReference
  split
  next id _ =>
    cases hrun : s.run with
    | none =>
      exact ⟨[], by simp [State.onRun, State.lineText, State.placedText, State.runText, hrun]⟩
    | some run =>
      have hid := plainText_append (hs.run run hrun) (.text (escapeText_isText id))
      exact ⟨id, by simp [State.onRun, State.lineText, State.placedText, State.runText, hrun, hid]⟩
  next => exact ⟨[], (List.append_nil _).symm⟩

/-- The start of an element adds text at the end or none. A run takes the place of one before it and
of its text. -/
theorem openElement_lineText (hs : s.IsMarkup V) (hopen : s.paragraph.isSome) {tag : Xml.Tag}
    (hparagraph : Element.ofName tag.name ≠ .paragraph) :
    ∃ added, (openElement σ tag s).lineText ++
      (if Element.ofName tag.name = .run then s.runText else []) = s.lineText ++ added := by
  have grows {t : State} (h : ∃ added, t.lineText = s.lineText ++ added) :
      ∃ added, t.lineText ++ [] = s.lineText ++ added := by simpa using h
  have unchanged {t : State} (h : t.lineText = s.lineText) :
      ∃ added, t.lineText ++ [] = s.lineText ++ added := ⟨[], congrArg (· ++ []) h⟩
  unfold openElement
  cases he : Element.ofName tag.name with
  | paragraph => exact absurd he hparagraph
  | run => exact ⟨[], by simp [State.lineText, State.placedText, State.runText]⟩
  | paragraphStyle | numberingId => exact unchanged (State.lineText_onParagraph fun p => rfl)
  | bold | italic | strike | verticalAlign => exact unchanged (State.lineText_onFormat _)
  | tab =>
    dsimp only
    split
    · exact grows ⟨_, State.lineText_pushText hs hopen (.text (.of_plain (by decide)))⟩
    · exact unchanged rfl
  | lineBreak => exact grows (openBreak_lineText hs hopen tag)
  | hyperlink =>
    apply unchanged
    simp [State.lineText, State.placedText, State.runText, State.note, Inline.finish]
  | footnoteReference => exact grows (openReference_lineText (hs.note .footnoteRef) tag)
  | endnoteReference => exact grows (openReference_lineText (hs.note .endnoteRef) tag)
  | simpleField =>
    dsimp only
    split
    · exact unchanged (State.lineText_fieldInstruction _)
    · exact unchanged rfl
  | fieldCharacter | vectorShape =>
    dsimp only
    split <;> exact unchanged rfl
  | picture =>
    dsimp only [openPicture]
    split <;> exact unchanged rfl
  | row | cell => exact unchanged (State.lineText_onTable _)
  | _ => exact unchanged rfl

theorem closeRun_lineText (hs : s.IsMarkup V) (hopen : s.paragraph.isSome) :
    (closeRun s).lineText = s.lineText := by
  unfold closeRun
  cases hrun : s.run with
  | none => rfl
  | some run =>
    have hs' : State.IsMarkup V { s with run := none } := { hs with run := by simp }
    have hpush := State.placedText_onInline (s := { s with run := none }) hs' hopen
      fun i hi => hi.plainText_pushRun (hs.run run hrun) run.format
    simp only [State.lineText, State.runText_onInline, hpush]
    simp [State.runText, State.placedText, hrun]

theorem closeLink_lineText (hs : s.IsMarkup V) (hopen : s.paragraph.isSome) :
    (closeLink s).lineText = s.lineText := by
  unfold closeLink
  cases hlinks : s.links with
  | nil => rfl
  | cons link links =>
    have hall := hs.links
    rw [hlinks, List.forall_mem_cons] at hall
    obtain ⟨⟨hcontent, htarget⟩, hrest⟩ := hall
    have hs' : State.IsMarkup V { s with links := links } := { hs with links := hrest }
    have hlink := linkMarkup_isInline htarget hcontent.finish
    have hpush := State.placedText_onInline (s := { s with links := links }) hs' hopen
      fun i hi => hi.plainText_pushMarkup hlink
    rw [plainText_linkMarkup hcontent.finish] at hpush
    simp only [State.lineText, State.runText_onInline, hpush]
    simp [State.runText, State.placedText, hlinks]

/-- An image is no text, and the run in front of it is placed first. -/
theorem placeImage_lineText (hs : s.IsMarkup V) (hopen : s.paragraph.isSome) {html : Text}
    (hhtml : IsInline V html) (himage : plainText html = []) :
    (placeImage html s).lineText = s.lineText := by
  have hpush {t : State} (ht : t.IsMarkup V) (htopen : t.paragraph.isSome) :
      (t.onInline (Inline.pushMarkup html)).lineText = t.lineText := by
    have hplaced := State.placedText_onInline ht htopen fun i hi => hi.plainText_pushMarkup hhtml
    simp only [State.lineText, State.runText_onInline, hplaced, himage, List.append_nil]
  unfold placeImage
  cases hrun : s.run with
  | none => exact hpush hs hopen
  | some run =>
    have hs' : State.IsMarkup V { s with run := some { run with content := [] } } := by
      refine { hs with run := ?_ }
      rintro _ ⟨⟩
      exact .nil
    have hrunMarkup := hs.run run hrun
    have hplaced := State.placedText_onInline hs' hopen
      fun i hi => hi.plainText_pushRun hrunMarkup run.format
    refine (hpush (hs'.onInline fun i hi => hi.pushRun _ hrunMarkup)
      ((State.isSome_paragraph_onInline _).trans hopen)).trans ?_
    simp only [State.lineText, State.runText_onInline, hplaced]
    simp [State.runText, State.placedText, hrun]

/-- The end of an element leaves the text as it is. -/
theorem closeElement_lineText (hσ : V.Admits σ) (hs : s.IsMarkup V) (hopen : s.paragraph.isSome)
    {name : Text} (hparagraph : Element.ofName name ≠ .paragraph) :
    (closeElement σ name s).lineText = s.lineText := by
  unfold closeElement
  cases he : Element.ofName name with
  | paragraph => exact absurd he hparagraph
  | run => exact closeRun_lineText hs hopen
  | hyperlink => exact closeLink_lineText hs hopen
  | drawing =>
    dsimp only [closeDrawing]
    split
    next drawing _ =>
      split
      next source hprofile _ =>
        have hs' : State.IsMarkup V { s with drawing := none } := { hs with }
        exact placeImage_lineText hs' hopen (imageMarkup_isInline (hσ.image hprofile) _ _)
          (plainText_imageMarkup _ _)
      next => rfl
    next => rfl
  | row | cell => exact State.lineText_onTable _
  | table =>
    dsimp only [closeTable]
    split
    next =>
      split
      · exact State.lineText_onTable _
      · rfl
    next => rfl
  | footnote =>
    dsimp only [closeFootnote]
    split
    next => split <;> rfl
    next => rfl
  | _ => rfl

theorem captureText_lineText {t : State} {raw : Text} (hs : s.IsMarkup V)
    (hopen : s.paragraph.isSome) (hskip : s.skipDepth = 0) (h : captureText raw s = .ok t) :
    t.lineText = s.lineText ++ s.captured (.text raw) := by
  unfold captureText at h
  split at h
  next hcaptures =>
    split at h
    next content hcontent =>
      obtain rfl := Except.ok.inj h
      cases hinstruction : s.capturesInstruction with
      | true =>
        have hnone : s.captured (.text raw) = [] := by simp [State.captured, hinstruction]
        rw [hnone, List.append_nil, if_pos rfl]
        exact State.lineText_fieldInstruction content
      | false =>
        have htext : s.capturesText = true := by simpa [hinstruction] using hcaptures
        have hsome : s.captured (.text raw) = content := by
          simp [State.captured, hinstruction, htext, hskip, hcontent, Except.toOption]
        have hpush := State.lineText_pushText hs hopen (.text (escapeText_isText content))
        rw [plainText_escapeText] at hpush
        rwa [hsome, if_neg Bool.false_ne_true]
    next => cases h
  next hcaptures =>
    obtain rfl := Except.ok.inj h
    have hnone : s.captured (.text raw) = [] := by
      have htext : s.capturesText = false := by
        cases htext : s.capturesText with
        | false => rfl
        | true => exact absurd (by simp [htext]) hcaptures
      simp [State.captured, htext]
    rw [hnone, List.append_nil]

/-- Every event inside a paragraph keeps the text that is there, or strands some at its end, and
adds what it captures. -/
theorem step_lineText {t : State} {event : Event} (hσ : V.Admits σ) (hs : s.IsMarkup V)
    (hopen : s.paragraph.isSome) (hread : step σ s event = .ok t)
    (hparagraph : s.skipDepth = 0 → eventElement? event ≠ some .paragraph) :
    ∃ added, s.captured event <+ added ∧
      t.lineText ++ s.stranded event = s.lineText ++ added := by
  obtain ⟨d, hd⟩ : ∃ d, s.skipDepth = d := ⟨_, rfl⟩
  have unchanged (hcaptured : s.captured event = []) (hstranded : s.stranded event = [])
      (h : t.lineText = s.lineText) :
      ∃ added, s.captured event <+ added ∧
        t.lineText ++ s.stranded event = s.lineText ++ added :=
    ⟨[], by simp [hcaptured], by rw [hstranded, h]⟩
  cases d with
  | zero =>
    have hplain := hparagraph hd
    cases event with
    | opened tag =>
      have hname : Element.ofName tag.name ≠ .paragraph := fun he => hplain (congrArg some he)
      by_cases hskip : Element.ofName tag.name = .skipped
      · rw [step_skipped hd hskip] at hread
        obtain rfl := Except.ok.inj hread
        exact unchanged rfl (by simp [State.stranded, hskip]) rfl
      · rw [step_opened hd hskip] at hread
        obtain rfl := Except.ok.inj hread
        obtain ⟨added, hadded⟩ := openElement_lineText (σ := σ) hs hopen hname
        exact ⟨added, List.nil_sublist added, by simpa [State.stranded, hd] using hadded⟩
    | empty tag =>
      have hname : Element.ofName tag.name ≠ .paragraph := fun he => hplain (congrArg some he)
      rw [step_empty hd] at hread
      obtain rfl := Except.ok.inj hread
      obtain ⟨added, hadded⟩ := openElement_lineText (σ := σ) hs hopen hname
      have hopen' : (openElement σ tag s).outline.holds .paragraph = true := by
        have hstill : s.outline.holds .paragraph = true := hopen
        rw [openElement_outline]
        exact Outline.opened_holds hstill _
      refine ⟨added, List.nil_sublist added, ?_⟩
      rw [closeElement_lineText hσ (hs.openElement hσ tag) hopen' hname]
      simpa [State.stranded, hd] using hadded
    | closed name =>
      have hname : Element.ofName name ≠ .paragraph := fun he => hplain (congrArg some he)
      rw [step_closed hd] at hread
      obtain rfl := Except.ok.inj hread
      exact unchanged rfl (by simp [State.stranded, hname])
        (closeElement_lineText hσ hs hopen hname)
    | text raw =>
      rw [step_text hd] at hread
      refine ⟨_, List.Sublist.refl _, ?_⟩
      exact (List.append_nil _).trans (captureText_lineText hs hopen hd hread)
  | succ d =>
    have hcaptured : s.captured event = [] := by cases event <;> simp [State.captured, hd]
    have hstranded : s.stranded event = [] := by cases event <;> simp [State.stranded, hd]
    cases event with
    | opened tag | closed name | empty tag | text raw =>
      simp only [step, hd] at hread
      obtain rfl := Except.ok.inj hread
      exact unchanged hcaptured hstranded rfl

end Line

section Part
variable {σ : Source} {s t : State}

theorem collect_singleton (f : State → Event → Text) (s : State) (event : Event) :
    collect σ f s [event] = f s event := by
  rw [collect]
  cases step σ s event <;> exact List.append_nil _

theorem collect_append {f : State → Event → Text} {es : List Event}
    (h : readEvents σ s es = .ok t) (fs : List Event) :
    collect σ f s (es ++ fs) = collect σ f s es ++ collect σ f t fs := by
  induction es generalizing s with
  | nil =>
    obtain rfl := Except.ok.inj h
    rfl
  | cons event es ih =>
    obtain ⟨u, hstep, hrest⟩ := exists_ok_of_bind h
    simp only [List.cons_append, collect, hstep, ih hrest, List.append_assoc]

/-- Inside a paragraph no text gets lost but what runs strand. -/
theorem readEvents_lineText {done events rest : List Event} {inner inner' outer : List Text}
    (hflat : IsFlat (done ++ (events ++ rest))) (hdone : nest [] done = some (inner ++ outer))
    (houter : .paragraph ∈ outer.map Element.ofName) (hs : readEvents σ {} done = .ok s)
    (hopen : s.paragraph.isSome) (hnest : nest inner events = some inner')
    (hread : readEvents σ s events = .ok t) :
    t.paragraph.isSome ∧ ∃ added, collect σ State.captured s events <+ added ∧
      t.lineText ++ collect σ State.stranded s events ~ s.lineText ++ added ∧
      (collect σ State.stranded s events = [] → t.lineText = s.lineText ++ added) := by
  induction events generalizing done s inner with
  | nil =>
    obtain rfl := Except.ok.inj hread
    exact ⟨hopen, [], List.Sublist.refl _, List.Perm.refl _, fun _ => (List.append_nil _).symm⟩
  | cons event events ih =>
    obtain ⟨middle, hevent, hrest⟩ := Option.bind_eq_some_iff.mp hnest
    obtain ⟨u, hstep, hread⟩ := exists_ok_of_bind hread
    have hfits : s.outline.Fits (inner ++ outer) := fits_of_nest hdone hs
    have hparagraph : s.skipDepth = 0 → eventElement? event ≠ some .paragraph := by
      intro hskip
      refine hflat.ne_paragraph hdone hevent houter ?_
      have hplain := hfits.plain
      rwa [Outline.visible, show s.outline.skipDepth = 0 from hskip, List.drop_zero] at hplain
    have hopen' : u.outline.holds .paragraph = true := by
      rw [step_outline hstep]
      exact Outline.step_holds hopen hparagraph
    have hmarkup : s.IsMarkup σ.profile.vocabulary :=
      State.IsMarkup.initial.readEvents (vocabulary_admits σ) hs
    obtain ⟨first, hfirst, hgrow⟩ :=
      step_lineText (vocabulary_admits σ) hmarkup hopen hstep hparagraph
    have hdone' : nest [] (done ++ [event]) = some (middle ++ outer) := by
      rw [Xml.nest_append, hdone]
      exact (Option.bind_some _ _).trans (by simp [Xml.nest_cons, Xml.nestStep_append hevent])
    have hs' : readEvents σ {} (done ++ [event]) = .ok u := by
      rw [readEvents_append_of_ok hs, readEvents_singleton, hstep]
    have hflat' : IsFlat (done ++ [event] ++ (events ++ rest)) := by
      rw [List.append_assoc]
      exact hflat
    obtain ⟨hopened, later, hlater, hperm, hequal⟩ := ih hflat' hdone' hs' hopen' hrest hread
    refine ⟨hopened, first ++ later, ?_, ?_, ?_⟩
    · simp only [collect, hstep]
      exact hfirst.append hlater
    · simp only [collect, hstep]
      calc t.lineText ++ (s.stranded event ++ collect σ State.stranded u events)
        _ ~ t.lineText ++ (collect σ State.stranded u events ++ s.stranded event) :=
          List.perm_append_comm.append_left _
        _ = t.lineText ++ collect σ State.stranded u events ++ s.stranded event :=
          (List.append_assoc _ _ _).symm
        _ ~ u.lineText ++ later ++ s.stranded event := hperm.append_right _
        _ ~ u.lineText ++ s.stranded event ++ later := by
          rw [List.append_assoc, List.append_assoc]
          exact List.perm_append_comm.append_left _
        _ = s.lineText ++ (first ++ later) := by rw [hgrow, List.append_assoc]
    · simp only [collect, hstep]
      intro hnone
      obtain ⟨hnow, hthen⟩ := List.append_eq_nil_iff.mp hnone
      rw [hnow, List.append_nil] at hgrow
      rw [hequal hthen, hgrow, List.append_assoc]

/-- Where no link is open, the text so far is the paragraph's own and its run's. -/
theorem lineText_of_links {p : OpenParagraph} (hp : s.paragraph = some p) (hlinks : s.links = []) :
    s.lineText = plainText p.content.finish ++ s.runText := by
  simp [State.lineText, State.placedText, hp, hlinks]

/-- Between the elements `stack`, none of which is skipped or a link, nothing is skipped and no link
is open. -/
theorem links_of_fits {stack : List Text} (hfits : s.outline.Fits stack)
    (hvisible : .skipped ∉ stack.map Element.ofName)
    (hlink : .hyperlink ∉ stack.map Element.ofName) : s.skipDepth = 0 ∧ s.links = [] := by
  have hskip : s.skipDepth = 0 := hfits.skipDepth_eq_zero
    fun name hname he => hvisible (List.mem_map.mpr ⟨name, hname, he⟩)
  have hdepth : s.links.length = (s.outline.visible stack).count .hyperlink :=
    hfits.covers.depth .hyperlink
  have hall : s.outline.visible stack = stack.map Element.ofName := by
    rw [Outline.visible, show s.outline.skipDepth = 0 from hskip, List.drop_zero]
  rw [hall, List.count_eq_zero.mpr hlink] at hdepth
  exact ⟨hskip, List.length_eq_zero_iff.mp hdepth⟩

/-- Of a paragraph, what is captured is in its text in the same order if no run strands text, and
what is not in its text was stranded in any case. -/
theorem paragraph_text {before inside after : List Event} {tag : Xml.Tag} {stack : List Text}
    (hflat : IsFlat (before ++ .opened tag :: (inside ++ .closed tag.name :: after)))
    (htag : Element.ofName tag.name = .paragraph) (hstack : nest [] before = some stack)
    (hvisible : .skipped ∉ stack.map Element.ofName) (hinside : Balanced inside)
    (hstart : readEvents σ {} (before ++ [.opened tag]) = .ok s)
    (hread : readEvents σ s inside = .ok t) :
    ∃ p, t.paragraph = some p ∧
      collect σ State.captured s inside <+~
        plainText p.content.finish ++ collect σ State.stranded s (inside ++ [.closed tag.name]) ∧
      (collect σ State.stranded s (inside ++ [.closed tag.name]) = [] →
        collect σ State.captured s inside <+ plainText p.content.finish) := by
  have hplain : .paragraph ∉ stack.map Element.ofName :=
    (hflat.of_start hstack List.mem_cons_self hvisible).1 htag
  have hlink : .hyperlink ∉ stack.map Element.ofName :=
    hflat.hyperlink_notMem hstack hvisible hplain
  have hdone : nest [] (before ++ [.opened tag]) = some ([] ++ tag.name :: stack) := by
    rw [Xml.nest_append, hstack]
    rfl
  -- The paragraph is open from its start on.
  have hopen : s.paragraph.isSome := by
    rw [readEvents_append] at hstart
    obtain ⟨s₀, hbefore, hstep⟩ := exists_ok_of_bind hstart
    rw [readEvents_singleton] at hstep
    have hskip := (links_of_fits (fits_of_nest hstack hbefore) hvisible hlink).1
    rw [step_opened hskip (by simp [htag])] at hstep
    obtain rfl := Except.ok.inj hstep
    simp [openElement, htag]
  have hflat' : IsFlat (before ++ [.opened tag] ++ (inside ++ .closed tag.name :: after)) := by
    rw [List.append_assoc]
    exact hflat
  obtain ⟨hopened, added, hadded, hperm, hequal⟩ := readEvents_lineText hflat' hdone
    (List.mem_map.mpr ⟨tag.name, List.mem_cons_self, htag⟩) hstart hopen hinside hread
  -- At its end all its links are closed, and its run is left.
  obtain ⟨hskip, hlinks⟩ : t.skipDepth = 0 ∧ t.links = [] := by
    have hnest : nest [] (before ++ [.opened tag] ++ inside) = some (tag.name :: stack) := by
      rw [Xml.nest_append, hdone]
      exact hinside.nest _
    have hreads : readEvents σ {} (before ++ [.opened tag] ++ inside) = .ok t := by
      rw [readEvents_append_of_ok hstart, hread]
    refine links_of_fits (fits_of_nest hnest hreads) ?_ ?_
    · simp only [List.map_cons, htag]
      exact List.not_mem_cons_of_ne_of_not_mem (by decide) hvisible
    · simp only [List.map_cons, htag]
      exact List.not_mem_cons_of_ne_of_not_mem (by decide) hlink
  obtain ⟨p, hp⟩ := Option.isSome_iff_exists.mp hopened
  have hstranded : collect σ State.stranded s (inside ++ [.closed tag.name]) =
      collect σ State.stranded s inside ++ t.runText := by
    rw [collect_append hread, collect_singleton]
    simp [State.stranded, hskip, htag]
  rw [lineText_of_links hp hlinks] at hperm hequal
  refine ⟨p, hp, ?_, fun hnone => ?_⟩
  · have hcaptured : collect σ State.captured s inside <+~ s.lineText ++ added :=
      (hadded.trans (List.sublist_append_right _ _)).subperm
    refine hcaptured.trans (hperm.symm.subperm.trans ?_)
    rw [hstranded, List.append_assoc]
    exact (List.perm_append_comm.append_left _).subperm
  · rw [hstranded] at hnone
    obtain ⟨hbefore, hrun⟩ := List.append_eq_nil_iff.mp hnone
    have htext := hequal hbefore
    rw [hrun, List.append_nil] at htext
    rw [htext]
    exact hadded.trans (List.sublist_append_right _ _)

/-- A link, a deletion and a run within a run that holds no text. -/
theorem paragraph_text_nested :
    let inside := (Xml.scan ("<w:r><w:t>a</w:t></w:r><w:hyperlink w:anchor='k'><w:del><w:r>" ++
      "<w:delText>b</w:delText></w:r></w:del></w:hyperlink><w:r><w:ruby><w:rt><w:r>" ++
      "<w:t>c</w:t></w:r></w:rt></w:ruby><w:t>d</w:t></w:r>")).events
    let s : State := { paragraph := some {} }
    collect {} State.captured s inside = "abcd" ∧
      ∃ t p, readEvents {} s inside = .ok t ∧ t.paragraph = some p ∧
        collect {} State.captured s inside <+ plainText p.content.finish := by
  intro inside s
  let t : State :=
    { paragraph := some { content := ⟨"a<a href=\"#k\"><del>b</del></a>", some ({}, "cd")⟩ }
      seen := [.revision, .hyperlink] }
  have hrun : IsFlat ([] ++ .opened ⟨"w:p", []⟩ :: (inside ++ .closed "w:p" :: [])) ∧
      Balanced inside ∧ (readEvents {} s inside).toOption = some t ∧
      collect {} State.captured s inside = "abcd" ∧
      collect {} State.stranded s (inside ++ [.closed "w:p"]) = [] := by
    decide +kernel
  obtain ⟨hflat, hinside, hread, hcaptured, hstranded⟩ := hrun
  have hread := eq_ok_of_toOption hread
  obtain ⟨p, hp, -, hkept⟩ := paragraph_text hflat (by decide) rfl (by decide) hinside rfl hread
  exact ⟨hcaptured, t, p, hread, hp, hkept hstranded⟩

/-- Ruby text in a run that holds text already: the run that starts takes its place. -/
theorem paragraph_text_ruby :
    let tag : Xml.Tag := ⟨"w:p", []⟩
    let inside := (Xml.scan ("<w:r><w:t>a</w:t><w:ruby><w:rt><w:r><w:t>b</w:t></w:r></w:rt>" ++
      "<w:rubyBase><w:r><w:t>c</w:t></w:r></w:rubyBase></w:ruby></w:r>")).events
    let s : State := { paragraph := some {} }
    IsFlat (.opened tag :: (inside ++ [.closed tag.name])) ∧ Balanced inside ∧
      readEvents {} {} [.opened tag] = .ok s ∧
      ∃ t p, readEvents {} s inside = .ok t ∧ t.paragraph = some p ∧
        collect {} State.captured s inside = "abc" ∧ plainText p.content.finish = "bc" ∧
        ¬ collect {} State.captured s inside <+ plainText p.content.finish := by
  intro tag inside s
  let t : State := { paragraph := some { content := ⟨[], some ({}, "bc")⟩ } }
  have hrun : IsFlat (.opened tag :: (inside ++ [.closed tag.name])) ∧ Balanced inside ∧
      (readEvents {} s inside).toOption = some t ∧
      collect {} State.captured s inside = "abc" := by
    decide +kernel
  obtain ⟨hflat, hinside, hread, hcaptured⟩ := hrun
  have htext : plainText (Inline.finish ⟨[], some ({}, "bc")⟩) = "bc".toList := by decide +kernel
  refine ⟨hflat, hinside, rfl, t, _, eq_ok_of_toOption hread, rfl, hcaptured, htext, ?_⟩
  rw [hcaptured, htext]
  intro hkept
  exact absurd hkept.length_le (by decide)

end Part

end MarkdownExport.Word
