import MarkdownExport.Proofs.Word.Parts
import MarkdownExport.Proofs.Xml.Nesting

/-! What the reader holds open follows from the elements that are open in the part. Each element has
one effect on it, whatever the reader holds. -/
namespace MarkdownExport.Word

namespace Element

/-- The reader knows at most one open element of these kinds. -/
def isSlot : Element → Bool
  | footnote | paragraph | run | drawing | runProperties | text | instruction => true
  | _ => false

/-- The reader counts the open elements of these kinds. -/
def isCounted : Element → Bool
  | table | hyperlink | deleted => true
  | _ => false

end Element

/-- What is open, without its content. -/
@[ext]
structure Outline where
  holds : Element → Bool
  depth : Element → Nat
  skipDepth : Nat

namespace Outline

def opened (e : Element) (o : Outline) : Outline := { o with
  holds := fun k => (k == e && e.isSlot) || o.holds k
  depth := fun k => o.depth k + if k = e ∧ e.isCounted then 1 else 0 }

def closed (e : Element) (o : Outline) : Outline := { o with
  holds := fun k => k != e && o.holds k
  depth := fun k => o.depth k - if k = e then 1 else 0 }

end Outline

namespace State

def outline (s : State) : Outline where
  holds
    | .footnote => s.footnote.isSome
    | .paragraph => s.paragraph.isSome
    | .run => s.run.isSome
    | .drawing => s.drawing.isSome
    | .runProperties => s.inRunProperties
    | .text => s.capturesText
    | .instruction => s.capturesInstruction
    | _ => false
  depth
    | .table => s.tables.length
    | .hyperlink => s.links.length
    | .deleted => s.deletedDepth
    | _ => 0
  skipDepth := s.skipDepth

variable {s : State}

@[simp] theorem outline_onInline (change : Inline → Inline) :
    (s.onInline change).outline = s.outline := by
  unfold onInline
  split
  next link links h => simp [outline, h]
  next =>
    split
    next p h => simp [outline, h]
    next => rfl

@[simp] theorem outline_pushText (html : Text) : (s.pushText html).outline = s.outline := by
  unfold pushText
  split
  next run h => simp [outline, h]
  next => exact outline_onInline _

@[simp] theorem outline_fieldInstruction (instruction : Text) :
    (s.fieldInstruction instruction).outline = s.outline := by
  unfold fieldInstruction
  split <;> rfl

@[simp] theorem outline_onTable (change : OpenTable → OpenTable) :
    (s.onTable change).outline = s.outline := by
  unfold onTable
  split
  next t ts h => simp [outline, h]
  next => rfl

@[simp] theorem outline_onRun (change : OpenRun → OpenRun) :
    (s.onRun change).outline = s.outline := by
  simp [onRun, outline]

@[simp] theorem outline_onFormat (change : RunFormat → RunFormat) :
    (s.onFormat change).outline = s.outline := by
  unfold onFormat
  split
  · exact outline_onRun _
  · rfl

@[simp] theorem outline_setCell (content : Text) : (s.setCell content).outline = s.outline :=
  outline_onTable _

end State

section Element
variable {σ : Source} {s : State}

theorem Outline.opened_of_plain {e : Element} (hslot : e.isSlot = false)
    (hcounted : e.isCounted = false) (o : Outline) : o.opened e = o := by
  simp [Outline.opened, hslot, hcounted]

theorem openBreak_outline (tag : Xml.Tag) : (openBreak tag s).outline = s.outline := by
  unfold openBreak
  split
  · rfl
  · split
    · rfl
    · exact State.outline_pushText _

theorem openReference_outline (tag : Xml.Tag) : (openReference tag s).outline = s.outline := by
  unfold openReference
  split
  · exact State.outline_onRun _
  · rfl

theorem openPicture_outline (tag : Xml.Tag) : (openPicture σ tag s).outline = s.outline := by
  unfold openPicture
  split
  · simp [State.outline]
  · rfl

/-- The start of an element opens that element and nothing else. -/
theorem openElement_outline (tag : Xml.Tag) :
    (openElement σ tag s).outline = s.outline.opened (Element.ofName tag.name) := by
  unfold openElement
  cases he : Element.ofName tag.name with
  | footnote | paragraph | run | runProperties | text | instruction | hyperlink | deleted | drawing
  | table =>
    ext k
    · cases k <;> rfl
    · cases k <;> rfl
    · rfl
  | paragraphStyle | numberingId | drawingProperties =>
    rw [Outline.opened_of_plain rfl rfl]
    simp [State.outline]
  | bold | italic | strike | verticalAlign =>
    rw [Outline.opened_of_plain rfl rfl]
    exact State.outline_onFormat _
  | tab =>
    rw [Outline.opened_of_plain rfl rfl]
    dsimp only
    split
    · exact State.outline_pushText _
    · rfl
  | lineBreak =>
    rw [Outline.opened_of_plain rfl rfl]
    exact openBreak_outline tag
  | footnoteReference | endnoteReference =>
    rw [Outline.opened_of_plain rfl rfl]
    exact openReference_outline tag
  | simpleField =>
    rw [Outline.opened_of_plain rfl rfl]
    dsimp only
    split
    · exact State.outline_fieldInstruction _
    · rfl
  | fieldCharacter | vectorShape =>
    rw [Outline.opened_of_plain rfl rfl]
    dsimp only
    split <;> rfl
  | picture =>
    rw [Outline.opened_of_plain rfl rfl]
    exact openPicture_outline tag
  | row | cell =>
    rw [Outline.opened_of_plain rfl rfl]
    exact State.outline_onTable _
  | inserted | commentReference | bookmark | contentControl | anchor | chart | smartArt | shape
  | object | math =>
    rw [Outline.opened_of_plain rfl rfl]
    rfl
  | skipped | other => rw [Outline.opened_of_plain rfl rfl]

theorem closeRun_outline : (closeRun s).outline = s.outline.closed .run := by
  have hclosed : ({ s with run := none } : State).outline = s.outline.closed .run := by
    ext k
    · cases k <;> rfl
    · cases k <;> rfl
    · rfl
  unfold closeRun
  split
  next run h => rw [State.outline_onInline, hclosed]
  next h => rw [← hclosed, ← h]

theorem closeLink_outline : (closeLink s).outline = s.outline.closed .hyperlink := by
  unfold closeLink
  split
  next link links h =>
    rw [State.outline_onInline]
    ext k
    · cases k <;> rfl
    · cases k <;> first | rfl | simp [State.outline, Outline.closed, h]
    · rfl
  next h =>
    ext k
    · cases k <;> rfl
    · cases k <;> first | rfl | simp [State.outline, Outline.closed, h]
    · rfl

theorem placeImage_outline (html : Text) : (placeImage html s).outline = s.outline := by
  unfold placeImage
  rw [State.outline_onInline]
  split
  next run h =>
    rw [State.outline_onInline]
    simp [State.outline, h]
  next => rfl

theorem closeDrawing_outline : (closeDrawing σ s).outline = s.outline.closed .drawing := by
  have hclosed : ({ s with drawing := none } : State).outline = s.outline.closed .drawing := by
    ext k
    · cases k <;> rfl
    · cases k <;> rfl
    · rfl
  unfold closeDrawing
  split
  next drawing h =>
    dsimp only
    split
    · rw [placeImage_outline, hclosed]
    · exact hclosed
  next h => rw [← hclosed, ← h]

theorem closeParagraph_outline : (closeParagraph σ s).outline = s.outline.closed .paragraph := by
  have hclosed : ({ s with paragraph := none } : State).outline = s.outline.closed .paragraph := by
    ext k
    · cases k <;> rfl
    · cases k <;> rfl
    · rfl
  unfold closeParagraph
  split
  next p h =>
    dsimp only
    split
    · rw [State.outline_setCell, hclosed]
    · split
      · exact hclosed
      · exact hclosed
  next h => rw [← hclosed, ← h]

theorem closeTable_outline : (closeTable s).outline = s.outline.closed .table := by
  unfold closeTable
  split
  next t ts h =>
    have hclosed : ({ s with tables := ts } : State).outline = s.outline.closed .table := by
      ext k
      · cases k <;> rfl
      · cases k <;> first | rfl | simp [State.outline, Outline.closed, h]
      · rfl
    dsimp only
    split
    · rw [State.outline_setCell, hclosed]
    · exact hclosed
  next h =>
    ext k
    · cases k <;> rfl
    · cases k <;> first | rfl | simp [State.outline, Outline.closed, h]
    · rfl

theorem closeFootnote_outline : (closeFootnote s).outline = s.outline.closed .footnote := by
  have hclosed : ({ s with footnote := none } : State).outline = s.outline.closed .footnote := by
    ext k
    · cases k <;> rfl
    · cases k <;> rfl
    · rfl
  unfold closeFootnote
  split
  next note h =>
    dsimp only
    split
    · exact hclosed
    · exact hclosed
  next h => rw [← hclosed, ← h]

/-- The end of an element closes that element and nothing else. -/
theorem closeElement_outline (name : Text) :
    (closeElement σ name s).outline = s.outline.closed (Element.ofName name) := by
  unfold closeElement
  cases Element.ofName name with
  | run => exact closeRun_outline
  | hyperlink => exact closeLink_outline
  | drawing => exact closeDrawing_outline
  | paragraph => exact closeParagraph_outline
  | table => exact closeTable_outline
  | footnote => exact closeFootnote_outline
  | row | cell =>
    dsimp only
    rw [State.outline_onTable]
    ext k
    · cases k <;> rfl
    · cases k <;> rfl
    · rfl
  | _ =>
    ext k
    · cases k <;> rfl
    · cases k <;> rfl
    · rfl

theorem captureText_outline {s' : State} {raw : Text} (h : captureText raw s = .ok s') :
    s'.outline = s.outline := by
  unfold captureText at h
  split at h
  · split at h
    next content _ =>
      obtain rfl := Except.ok.inj h
      split
      · exact State.outline_fieldInstruction _
      · exact State.outline_pushText _
    next => cases h
  · obtain rfl := Except.ok.inj h
    rfl

theorem openElement_skipDepth (tag : Xml.Tag) : (openElement σ tag s).skipDepth = s.skipDepth :=
  congrArg Outline.skipDepth (openElement_outline tag)

theorem closeElement_skipDepth (name : Text) : (closeElement σ name s).skipDepth = s.skipDepth :=
  congrArg Outline.skipDepth (closeElement_outline name)

theorem captureText_skipDepth {s' : State} {raw : Text} (h : captureText raw s = .ok s') :
    s'.skipDepth = s.skipDepth :=
  congrArg Outline.skipDepth (captureText_outline h)

end Element

/-- What an event does to what is open. -/
def Outline.step (o : Outline) (event : Xml.Event) : Outline :=
  match o.skipDepth, event with
  | 0, .opened tag =>
    if Element.ofName tag.name = .skipped then { o with skipDepth := 1 }
    else o.opened (Element.ofName tag.name)
  | 0, .empty tag => (o.opened (Element.ofName tag.name)).closed (Element.ofName tag.name)
  | 0, .closed name => o.closed (Element.ofName name)
  | depth + 1, .opened _ => { o with skipDepth := depth + 2 }
  | depth + 1, .closed _ => { o with skipDepth := depth }
  | _, _ => o

theorem step_outline {σ : Source} {s s' : State} {event : Xml.Event} (h : step σ s event = .ok s') :
    s'.outline = s.outline.step event := by
  have hdepth : s.outline.skipDepth = s.skipDepth := rfl
  cases steps_of_step h with
  | skips hs hskip =>
    simp only [Outline.step, hdepth, hs, if_pos hskip]
    rfl
  | opens hs hskip =>
    simp only [Outline.step, hdepth, hs, if_neg hskip]
    exact openElement_outline _
  | empties hs =>
    simp only [Outline.step, hdepth, hs, closeElement_outline, openElement_outline]
  | closes hs =>
    simp only [Outline.step, hdepth, hs, closeElement_outline]
  | captures hs hread =>
    simp only [Outline.step, hdepth, hs, captureText_outline hread]
  | deepens hs | returns hs =>
    simp only [Outline.step, hdepth, hs]
    rfl
  | passesEmpty hs | passesText hs =>
    obtain ⟨d, hd⟩ := Nat.exists_eq_succ_of_ne_zero hs
    simp only [Outline.step, hdepth, hd]

/-! Along the nesting of a part. -/

/-- A relation between the open elements and the reader that every event keeps is kept by a part. -/
theorem readEvents_of_nest {σ : Source} {R : List Text → State → Prop}
    (keeps : ∀ {stack stack' s s' event}, R stack s → Xml.nestStep stack event = some stack' →
      step σ s event = .ok s' → R stack' s')
    {stack stack' : List Text} {s s' : State} {events : List Xml.Event} (h : R stack s)
    (hnest : Xml.nest stack events = some stack') (hread : readEvents σ s events = .ok s') :
    R stack' s' := by
  induction events generalizing stack s with
  | nil =>
    obtain rfl := Option.some.inj hnest
    obtain rfl := Except.ok.inj hread
    exact h
  | cons event events ih =>
    obtain ⟨middle, hstep, hnest⟩ := Option.bind_eq_some_iff.mp hnest
    obtain ⟨t, ht, hread⟩ := exists_ok_of_bind hread
    exact ih (keeps h hstep ht) hnest hread

namespace Outline

/-- The kinds of the open elements that are not skipped. -/
def visible (stack : List Text) (o : Outline) : List Element :=
  (stack.drop o.skipDepth).map Element.ofName

/-- Whatever is open belongs to one of the elements. -/
structure Covers (elements : List Element) (o : Outline) : Prop where
  holds : ∀ k, o.holds k = true → k ∈ elements
  depth : ∀ k, o.depth k = if k.isCounted then elements.count k else 0

theorem Covers.opened {elements : List Element} {o : Outline} (h : o.Covers elements)
    (e : Element) : (o.opened e).Covers (e :: elements) where
  holds k hk := by
    simp only [Outline.opened, Bool.or_eq_true, Bool.and_eq_true, beq_iff_eq] at hk
    rcases hk with ⟨rfl, -⟩ | hk
    · exact List.mem_cons_self
    · exact List.mem_cons_of_mem e (h.holds k hk)
  depth k := by
    simp only [Outline.opened, h.depth k, List.count_cons]
    by_cases hk : k = e
    · subst hk
      by_cases hc : k.isCounted <;> simp [hc]
    · simp [hk, Ne.symm hk]

theorem Covers.closed {elements : List Element} {o : Outline} {e : Element}
    (h : o.Covers (e :: elements)) : (o.closed e).Covers elements where
  holds k hk := by
    simp only [Outline.closed, Bool.and_eq_true, bne_iff_ne] at hk
    exact List.mem_of_ne_of_mem hk.1 (h.holds k hk.2)
  depth k := by
    simp only [Outline.closed, h.depth k, List.count_cons]
    by_cases hk : k = e
    · subst hk
      by_cases hc : k.isCounted <;> simp [hc]
    · simp [hk, Ne.symm hk]

/-- What is open belongs to the elements of `stack`. Those within a skipped element do not count. -/
structure Fits (stack : List Text) (o : Outline) : Prop where
  covers : o.Covers (o.visible stack)
  plain : .skipped ∉ o.visible stack
  skipped : ∀ d, o.skipDepth = d + 1 →
    ∃ name, stack[d]? = some name ∧ Element.ofName name = .skipped

variable {stack stack' : List Text} {o : Outline}

theorem Fits.initial : (State.outline {}).Fits [] where
  covers := ⟨fun k => by cases k <;> simp [State.outline],
    fun k => by cases k <;> simp [State.outline, visible]⟩
  plain := by simp [visible]
  skipped d h := by cases h

theorem Fits.step {event : Xml.Event} (h : o.Fits stack)
    (hnest : Xml.nestStep stack event = some stack') : (o.step event).Fits stack' := by
  obtain ⟨holds, depth, d⟩ := o
  obtain ⟨hcovers, hplain, hskipped⟩ := h
  cases d with
  | zero =>
    simp only [visible, List.drop_zero] at hcovers hplain
    cases event with
    | opened tag =>
      obtain rfl := Xml.nestStep_opened hnest
      simp only [Outline.step]
      split
      next hskip =>
        refine ⟨⟨hcovers.holds, hcovers.depth⟩, hplain, ?_⟩
        rintro _ ⟨⟩
        exact ⟨tag.name, rfl, hskip⟩
      next hskip =>
        refine ⟨hcovers.opened _, ?_, by simp [Outline.opened]⟩
        exact List.not_mem_cons_of_ne_of_not_mem (Ne.symm hskip) hplain
    | empty tag =>
      obtain rfl := Option.some.inj hnest
      exact ⟨(hcovers.opened _).closed, hplain,
        by simp [Outline.step, Outline.opened, Outline.closed]⟩
    | closed name =>
      obtain rfl := Xml.nestStep_closed hnest
      exact ⟨hcovers.closed, fun h => hplain (List.mem_cons_of_mem _ h),
        by simp [Outline.step, Outline.closed]⟩
    | text raw =>
      obtain rfl := Option.some.inj hnest
      exact ⟨hcovers, hplain, hskipped⟩
  | succ d =>
    cases event with
    | opened tag =>
      obtain rfl := Xml.nestStep_opened hnest
      exact ⟨⟨hcovers.holds, hcovers.depth⟩, hplain, by simpa [Outline.step] using hskipped⟩
    | closed name =>
      obtain rfl := Xml.nestStep_closed hnest
      refine ⟨⟨hcovers.holds, hcovers.depth⟩, hplain, ?_⟩
      rintro d rfl
      exact hskipped (d + 1) rfl
    | empty tag | text raw =>
      obtain rfl := Option.some.inj hnest
      exact ⟨hcovers, hplain, hskipped⟩

/-- Outside skipped elements nothing is skipped. -/
theorem Fits.skipDepth_eq_zero (h : o.Fits stack)
    (plain : ∀ name ∈ stack, Element.ofName name ≠ .skipped) : o.skipDepth = 0 := by
  cases hd : o.skipDepth with
  | zero => rfl
  | succ d =>
    obtain ⟨name, hname, hskip⟩ := h.skipped d hd
    exact absurd hskip (plain name (List.mem_of_getElem? hname))

end Outline

/-- What the reader holds open belongs to the elements that are open in the part. -/
theorem fits_of_nest {σ : Source} {stack : List Text} {s : State} {events : List Xml.Event}
    (hnest : Xml.nest [] events = some stack) (hread : readEvents σ {} events = .ok s) :
    s.outline.Fits stack := by
  refine readEvents_of_nest (R := fun stack s => s.outline.Fits stack) ?_ .initial hnest hread
  intro stack stack' s s' event h hnest hstep
  rw [step_outline hstep]
  exact h.step hnest

end MarkdownExport.Word
