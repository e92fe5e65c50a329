import MarkdownExport.Proofs.Word.Raw
import MarkdownExport.Proofs.Word.Reading.Blocks

/-! Reading paragraphs as any producer may write them. Each part of a run, each run and each item
adds its pieces to its line, and nothing else of the reader's state is left changed but what is
counted. -/
namespace MarkdownExport.Word
open Document (Piece lineHtml)
open Raw

section Reading
variable {σ : Source} {s : State}

theorem Reads.around {e : Element} (t : Tagged e) (he : e ≠ .skipped) {inside : List Xml.Event}
    {s₁ t₁ s' : State} (hs : s.skipDepth = 0) (hopen : openElement σ t.tag s = s₁)
    (hinside : Reads σ s₁ inside t₁) (ht : t₁.skipDepth = 0)
    (hclose : closeElement σ t.tag.name t₁ = s') : Reads σ s (t.around inside) s' := by
  subst hopen hclose
  have hplain : Element.ofName t.tag.name ≠ .skipped := by rw [t.kind]; exact he
  exact (Reads.opened hs hplain).append (hinside.append (.closed ht t.tag.name))

/-- A property changes the format of the run, if there is one, and nothing else. -/
theorem Raw.Property.read_eq (i : Property) (s : State) :
    closeElement σ i.tag.name (openElement σ i.tag s) =
      (s.noteAll i.features).onFormat i.onFormat := by
  have hkind := i.kind
  have hid (s : State) : s.onFormat (fun f => f) = s := by
    obtain ⟨blocks, footnotes, footnote, tables, paragraph, links, run, drawing, properties⟩ := s
    cases properties <;> cases run <;> rfl
  unfold closeElement openElement Property.features
  cases he : Element.ofName i.tag.name with
  | bold | italic | strike | verticalAlign =>
    simp only [State.noteAll_nil]
    refine congrArg (s.onFormat ·) (funext fun f => ?_)
    simp only [Property.onFormat, he]
  | inserted | deleted =>
    have hformat : i.onFormat = fun f => f := funext fun f => by simp only [Property.onFormat, he]
    rw [hformat, hid]
    rfl
  | _ => simp [he, isProperty] at hkind

theorem Raw.Noted.read_eq (n : Noted) (s : State) :
    closeElement σ n.tag.name (openElement σ n.tag s) = s.noteAll n.features := by
  have hkind := n.kind
  unfold closeElement openElement Noted.features
  cases he : Element.ofName n.tag.name with
  | commentReference | bookmark => rfl
  | fieldCharacter =>
    dsimp only
    split <;> rfl
  | _ => simp [he, isNoted] at hkind

/-- Properties leave nothing else behind, in a run and in the mark of a paragraph. -/
theorem Raw.reads_properties (hs : s.skipDepth = 0) (hp : s.inRunProperties = false)
    (tag : Tagged .runProperties) (items : List Property) :
    Reads σ s (propertyEvents tag items)
      ((s.noteAll (items.flatMap Property.features)).onRun fun run =>
        { run with format := items.foldl (fun f i => i.onFormat f) run.format }) := by
  have hitems (t : State) (ht : t.skipDepth = 0) (hp : t.inRunProperties = true) :
      Reads σ t (items.map fun i => .empty i.tag)
        ((t.noteAll (items.flatMap Property.features)).onRun fun run =>
          { run with format := items.foldl (fun f i => i.onFormat f) run.format }) := by
    induction items generalizing t with
    | nil =>
      have hid : (t.noteAll []).onRun (fun run => run) = t := by
        cases t
        simp [State.onRun]
      exact hid.symm ▸ Reads.nil
    | cons i items ih =>
      have hfirst := Reads.empty (σ := σ) ht i.tag
      rw [i.read_eq, State.onFormat, if_pos (by exact hp)] at hfirst
      have hrest := ih ((t.noteAll i.features).onRun fun run =>
        { run with format := i.onFormat run.format }) ht hp
      have hboth := hfirst.append hrest
      have hnext : ((((t.noteAll i.features).onRun fun run =>
          { run with format := i.onFormat run.format }).noteAll
            (items.flatMap Property.features)).onRun fun run =>
              { run with format := items.foldl (fun f i => i.onFormat f) run.format }) =
          ((t.noteAll ((i :: items).flatMap Property.features)).onRun fun run =>
            { run with format := (i :: items).foldl (fun f i => i.onFormat f) run.format }) := by
        simp [State.onRun, State.noteAll, Function.comp_def]
      rw [hnext] at hboth
      exact hboth
  have hinside := hitems { s with inRunProperties := true } hs rfl
  refine Reads.around tag (by decide) hs ?_ hinside hs ?_
  · rw [openElement, tag.kind]
  · rw [closeElement, tag.kind]
    cases s
    cases hp
    rfl

theorem State.IsIdle.noteAll (hs : s.IsIdle) (fs : List Feature) : (s.noteAll fs).IsIdle :=
  { hs with }

/-- No run and no drawing is open. -/
structure State.IsClear (s : State) : Prop extends s.IsIdle where
  drawing : s.drawing = none

namespace State.IsClear

theorem noteAll (hs : s.IsClear) (fs : List Feature) : (s.noteAll fs).IsClear :=
  { hs with }

theorem onInline (hs : s.IsClear) (change : Inline → Inline) : (s.onInline change).IsClear := by
  have hidle := hs.toIsIdle.onInline change
  rw [onInline_eq] at hidle ⊢
  exact { hidle with drawing := hs.drawing }

end State.IsClear

theorem State.onInline_inRun (change : Inline → Inline) (s : State) (f : RunFormat)
    (content : Text) :
    (s.inRun f content).onInline change = (s.onInline change).inRun f content := by
  rw [onInline_eq, onInline_eq]
  rfl

/-! Parts of runs. -/

/-- Texts of a run add up, whatever stands between them. -/
theorem Raw.reads_texts (hs : s.IsIdle) (f : RunFormat) (content : Text) (pieces : List Written) :
    Reads σ (s.inText f content) (pieces.map fun w => .text w.raw)
      (s.inText f (content ++ pieces.flatMap fun w => escapeText w.text)) := by
  induction pieces generalizing content with
  | nil =>
    rw [List.flatMap_nil, List.append_nil]
    exact Reads.nil
  | cons w pieces ih =>
    have hcapture : captureText w.raw (s.inText f content) =
        .ok (s.inText f (content ++ escapeText w.text)) := by
      have hinstruction := hs.capturesInstruction
      simp [captureText, State.inText, State.inRun, hinstruction, w.reads, State.pushText]
    have hskip : (s.inText f content).skipDepth = 0 := hs.skipDepth
    have hfirst := Reads.text (σ := σ) hskip hcapture
    rw [List.flatMap_cons, ← List.append_assoc]
    exact hfirst.append (ih _)

/-- Instructions are counted and leave nothing else. -/
theorem Raw.reads_instructions (hs : s.skipDepth = 0) (hc : s.capturesInstruction = true)
    (pieces : List Written) :
    Reads σ s (pieces.map fun w => .text w.raw)
      (s.noteAll (pieces.flatMap fun w => instructionFeatures w.text)) := by
  induction pieces generalizing s with
  | nil => exact Reads.nil
  | cons w pieces ih =>
    have hcapture : captureText w.raw s = .ok (s.noteAll (instructionFeatures w.text)) := by
      simp only [captureText, hc, Bool.or_true, if_true, w.reads, State.fieldInstruction,
        instructionFeatures]
      split <;> rfl
    have hfirst := Reads.text (σ := σ) hs hcapture
    have hrest := ih (s := s.noteAll (instructionFeatures w.text)) hs hc
    rw [State.noteAll_noteAll] at hrest
    exact hfirst.append hrest

theorem Raw.openElement_detail {tag : Xml.Tag} (h : isDetail (Element.ofName tag.name) = true) :
    openElement σ tag s = { s.noteAll (detailFeatures tag) with
      drawing := s.drawing.map (detailOnDrawing σ tag) } := by
  have hid : s.drawing.map (fun o => o) = s.drawing := Option.map_id'
  unfold openElement detailFeatures detailOnDrawing
  cases he : Element.ofName tag.name with
  | drawingProperties => rfl
  | picture =>
    dsimp only
    unfold openPicture
    cases (tag.value? "r:embed").bind σ.relationships.target? with
    | some target => rfl
    | none => simp
  | vectorShape =>
    dsimp only
    rw [hid]
    split <;> rfl
  | anchor | chart | smartArt | shape | object =>
    dsimp only
    rw [hid]
    rfl
  | _ => simp [he, isDetail] at h

theorem Raw.closeElement_detail {name : Text} (h : isDetail (Element.ofName name) = true) :
    closeElement σ name s = s := by
  unfold closeElement
  cases he : Element.ofName name with
  | anchor | drawingProperties | picture | chart | smartArt | shape | vectorShape | object => rfl
  | _ => simp [he, isDetail] at h

theorem Raw.Detail.step_eq (hs : s.skipDepth = 0) (d : Detail) :
    step σ s d.event = .ok { s.noteAll d.features with
      drawing := s.drawing.map (d.onDrawing σ) } := by
  have hid : s.drawing.map (fun o => o) = s.drawing := Option.map_id'
  obtain ⟨event, hkind⟩ := d
  cases event with
  | opened tag =>
    have hdetail : isDetail (Element.ofName tag.name) = true := hkind
    have hplain : Element.ofName tag.name ≠ .skipped := by
      intro hskipped
      rw [hskipped] at hdetail
      cases hdetail
    rw [step_opened hs hplain, openElement_detail hdetail]
    rfl
  | empty tag =>
    rw [step_empty hs, openElement_detail hkind, closeElement_detail hkind]
    rfl
  | closed name =>
    rw [step_closed hs, closeElement_detail hkind]
    change Except.ok s = .ok { s with drawing := s.drawing.map fun o => o }
    rw [hid]
  | text raw => cases hkind

theorem Raw.reads_details (hs : s.skipDepth = 0) (details : List Detail) :
    Reads σ s (details.map Detail.event) { s.noteAll (details.flatMap Detail.features) with
      drawing := s.drawing.map fun o => details.foldl (fun o d => d.onDrawing σ o) o } := by
  induction details generalizing s with
  | nil =>
    have hid : s.drawing.map (fun o => o) = s.drawing := Option.map_id'
    change Reads σ s [] { s with drawing := s.drawing.map fun o => o }
    rw [hid]
    exact Reads.nil
  | cons d details ih =>
    have hrest := ih (s := { s.noteAll d.features with
      drawing := s.drawing.map (d.onDrawing σ) }) hs
    have hboth := (Reads.of_step (d.step_eq hs)).append hrest
    simpa [State.noteAll, Function.comp_def] using hboth

theorem Raw.reads_drawing (hs : s.IsClear) (f : RunFormat) (content : Text)
    (tag : Tagged .drawing) (details : List Detail) :
    Reads σ (s.inRun f content) (tag.around (details.map Detail.event))
      (closeDrawing σ { (s.noteAll (details.flatMap Detail.features)).inRun f content with
        drawing := some (details.foldl (fun o d => d.onDrawing σ o) {}) }) := by
  have hskip : ({ s.inRun f content with drawing := some {} } : State).skipDepth = 0 :=
    hs.skipDepth
  refine Reads.around tag (by decide) hs.skipDepth ?_ (reads_details hskip details) hs.skipDepth ?_
  · rw [openElement, tag.kind]
  · rw [closeElement, tag.kind]
    rfl

/-- A drawing without an image leaves its run as it is, and an image ends the piece before it. -/
theorem Raw.closeDrawing_eq (hs : s.IsClear) (f : RunFormat) (content : Text) (o : OpenDrawing) :
    closeDrawing σ { s.inRun f content with drawing := some o } =
      match imageOf σ o with
      | some html =>
        (s.onInline fun i => (i.push (.run f content)).push (.markup html)).inRun f []
      | none => s.inRun f content := by
  have hdrawing := hs.drawing
  have hclosed : ({ s.inRun f content with drawing := none } : State) = s.inRun f content := by
    cases s
    cases hdrawing
    rfl
  simp only [closeDrawing, hclosed, imageOf]
  cases hprofile : σ.profile with
  | strict => rfl
  | faithful =>
    cases o.source with
    | none => rfl
    | some source =>
      have hplace : placeImage (imageMarkup source o.description) (s.inRun f content) =
          ((s.inRun f []).onInline (Inline.pushRun f content)).onInline
            (Inline.pushMarkup (imageMarkup source o.description)) := rfl
      simp only [if_true, Option.map_some]
      rw [hplace, State.onInline_onInline, State.onInline_inRun]
      rfl

/-- In the properties of a run a tab is none. -/
theorem Raw.tab_read_eq (hs : s.inRunProperties = false) (f : RunFormat) (content : Text)
    (tag : Tagged .tab) :
    closeElement σ tag.tag.name (openElement σ tag.tag (s.inRun f content)) =
      s.inRun f (content ++ ['\t']) := by
  have hproperties : (s.inRun f content).inRunProperties = false := hs
  simp only [closeElement, openElement, tag.kind, hproperties]
  rfl

/-- A break of the page is counted and shows nothing. -/
theorem Raw.lineBreak_read_eq (f : RunFormat) (content : Text) (tag : Tagged .lineBreak) :
    closeElement σ tag.tag.name (openElement σ tag.tag (s.inRun f content)) =
      (s.noteAll (Part.lineBreak tag).features).inRun f
        (content ++ (Part.lineBreak tag).html) := by
  simp only [closeElement, openElement, tag.kind, openBreak, Part.features, Part.html,
    isPageBreak, decide_eq_true_eq]
  split
  · rename_i hnone
    cases hnone
  · split
    · rw [List.append_nil]
      rfl
    · rfl

theorem Raw.Reference.open_eq (r : Reference) (s : State) (f : RunFormat) (content : Text) :
    openReference r.tag (s.inRun f content) =
      s.inRun ((Part.reference r).onFormat f) (content ++ (Part.reference r).html) := by
  have hformat : (Part.reference r).onFormat f =
      if r.id?.isSome then { f with superscript := true } else f := rfl
  have hhtml : (Part.reference r).html = (r.id?.map escapeText).getD [] := rfl
  cases hid : r.tag.value? "w:id" with
  | some id =>
    have hid' : r.id? = some id := hid
    rw [openReference, hid, hformat, hhtml, hid']
    rfl
  | none =>
    have hid' : r.id? = none := hid
    rw [openReference, hid, hformat, hhtml, hid', Option.map_none, Option.getD_none,
      List.append_nil]
    rfl

theorem Raw.Reference.read_eq (r : Reference) (s : State) (f : RunFormat) (content : Text) :
    closeElement σ r.tag.name (openElement σ r.tag (s.inRun f content)) =
      (s.noteAll (Part.reference r).features).inRun ((Part.reference r).onFormat f)
        (content ++ (Part.reference r).html) := by
  rw [← r.open_eq]
  rcases r.kind with hkind | hkind
  · simp only [closeElement, openElement, Part.features, hkind]
    rfl
  · simp only [closeElement, openElement, Part.features, hkind]
    rfl

/-- A part without an image goes on with the piece that is being written. -/
theorem Raw.reads_part (hs : s.IsClear) (f : RunFormat) (content : Text) {part : Part}
    (hplain : part.image? σ = none) :
    Reads σ (s.inRun f content) part.events
      ((s.noteAll part.features).inRun (part.onFormat f) (content ++ part.html)) := by
  have hskip : (s.inRun f content).skipDepth = 0 := hs.skipDepth
  cases part with
  | properties tag items =>
    have h := reads_properties (σ := σ) (s := s.inRun f content) hskip hs.inRunProperties tag items
    rw [Part.html, List.append_nil]
    exact h
  | text tag pieces =>
    have htexts := reads_texts (σ := σ) hs.toIsIdle f content pieces
    refine Reads.around tag (by decide) hskip ?_ htexts hs.skipDepth ?_
    · rw [openElement, tag.kind]
      rfl
    · exact closeElement_inText hs.toIsIdle tag.kind f _
  | instruction tag pieces =>
    have hinstructions := reads_instructions (σ := σ)
      (s := { s.inRun f content with capturesInstruction := true }) hskip rfl pieces
    refine Reads.around tag (by decide) hskip ?_ hinstructions hs.skipDepth ?_
    · rw [openElement, tag.kind]
    · have hinstruction := hs.capturesInstruction
      rw [closeElement, tag.kind, Part.html, List.append_nil]
      cases s
      cases hinstruction
      rfl
  | tab tag =>
    have h := Reads.empty (σ := σ) hskip tag.tag
    rw [tab_read_eq hs.inRunProperties] at h
    exact h
  | lineBreak tag =>
    have h := Reads.empty (σ := σ) hskip tag.tag
    rw [lineBreak_read_eq] at h
    exact h
  | reference r =>
    have h := Reads.empty (σ := σ) hskip r.tag
    rw [r.read_eq] at h
    exact h
  | noted n =>
    have h := Reads.empty (σ := σ) hskip n.tag
    rw [n.read_eq] at h
    rw [Part.html, List.append_nil]
    exact h
  | drawing tag details =>
    have h := reads_drawing (σ := σ) hs f content tag details
    have himage : imageOf σ (details.foldl (fun o d => d.onDrawing σ o) {}) = none := hplain
    rw [closeDrawing_eq (hs.noteAll _), himage] at h
    rw [Part.html, List.append_nil]
    exact h
  | detail d =>
    have h := Reads.of_step (d.step_eq (σ := σ) hskip)
    have hdrawing : (s.inRun f content).drawing = none := hs.drawing
    rw [hdrawing] at h
    have hnone := hs.drawing
    rw [Part.html, List.append_nil]
    cases s
    cases hnone
    exact h

/-- A drawing with an image ends the piece before it, and what follows is a piece of its own. -/
theorem Raw.reads_image (hs : s.IsClear) (f : RunFormat) (content : Text) {part : Part}
    {html : Text} (himage : part.image? σ = some html) :
    Reads σ (s.inRun f content) part.events
      (((s.noteAll part.features).onInline fun i =>
        (i.push (.run f content)).push (.markup html)).inRun f []) := by
  cases part with
  | drawing tag details =>
    have h := reads_drawing (σ := σ) hs f content tag details
    have hshown : imageOf σ (details.foldl (fun o d => d.onDrawing σ o) {}) = some html := himage
    rw [closeDrawing_eq (hs.noteAll _), hshown] at h
    exact h
  | _ => cases himage

/-- The parts of a run and its end add its pieces to the line. -/
theorem Raw.reads_parts (hs : s.IsClear) (tag : Tagged .run) (f : RunFormat) (content : Text)
    (parts : List Part) :
    Reads σ (s.inRun f content) (parts.flatMap Part.events ++ [tag.closed])
      ((s.noteAll (parts.flatMap Part.features)).onInline fun i =>
        (writeParts σ f content parts).foldl Inline.push i) := by
  induction parts generalizing s f content with
  | nil =>
    have hclosed := Reads.closed (σ := σ) (s := s.inRun f content) hs.skipDepth tag.tag.name
    rw [closeElement, tag.kind] at hclosed
    dsimp only at hclosed
    rw [closeRun_inRun hs.toIsIdle] at hclosed
    exact hclosed
  | cons part parts ih =>
    rw [List.flatMap_cons, List.append_assoc]
    cases himage : part.image? σ with
    | none =>
      have hfirst := reads_part hs f content himage
      have hrest := ih (hs.noteAll part.features) (part.onFormat f) (content ++ part.html)
      rw [State.noteAll_noteAll] at hrest
      simp only [writeParts, himage]
      exact hfirst.append hrest
    | some html =>
      have hfirst := reads_image hs f content himage
      have hrest := ih ((hs.noteAll part.features).onInline fun i =>
        (i.push (.run f content)).push (.markup html)) f []
      rw [State.onInline_noteAll, State.onInline_onInline, State.noteAll_noteAll] at hrest
      simp only [writeParts, himage, List.foldl_cons]
      exact hfirst.append hrest

theorem Raw.reads_run (hs : s.IsClear) (r : Run) :
    Reads σ s r.events
      ((s.noteAll r.features).onInline fun i =>
        (r.pieces σ s.deletedDepth).foldl Inline.push i) := by
  have hplain : Element.ofName r.tag.tag.name ≠ .skipped := by
    rw [r.tag.kind]
    decide
  have hopened := Reads.opened (σ := σ) hs.skipDepth hplain
  have hopen : openElement σ r.tag.tag s = s.inRun { strike := 0 < s.deletedDepth } [] := by
    rw [openElement, r.tag.kind]
    rfl
  rw [hopen] at hopened
  exact hopened.append (reads_parts hs r.tag _ [] r.parts)

/-! Lines. -/

namespace State

/-- Within a text element. -/
def capturing (s : State) : State := { s with capturesText := true }

theorem pushText_capturing (hs : s.run = none) (html : Text) :
    s.capturing.pushText html = (s.onInline (Inline.pushRun {} html)).capturing := by
  have hrun : s.capturing.run = none := hs
  rw [pushText, hrun, onInline_eq]
  dsimp only
  rw [onInline_eq]
  rfl

theorem closed_capturing (hs : s.capturesText = false) :
    { s.capturing with capturesText := false } = s := by
  cases s
  cases hs
  rfl

end State

/-- Texts of formulas are pieces of their own. -/
theorem Raw.reads_formulaText (hs : s.IsIdle) (pieces : List Written) :
    Reads σ s.capturing (pieces.map fun w => .text w.raw)
      (s.onInline fun i =>
        (pieces.map fun w => Piece.run {} (escapeText w.text)).foldl Inline.push i).capturing := by
  induction pieces generalizing s with
  | nil =>
    simp only [List.map_nil, List.foldl_nil, State.onInline_id]
    exact Reads.nil
  | cons w pieces ih =>
    have htext : s.capturing.capturesText = true := rfl
    have hinstruction : s.capturing.capturesInstruction = false := hs.capturesInstruction
    have hcapture : captureText w.raw s.capturing =
        .ok (s.onInline fun i => i.push (.run {} (escapeText w.text))).capturing := by
      simp only [captureText, htext, hinstruction, Bool.or_false, if_true, w.reads,
        Bool.false_eq_true, if_false, State.pushText_capturing hs.run]
      rfl
    have hskip : s.capturing.skipDepth = 0 := hs.skipDepth
    have hfirst := Reads.text (σ := σ) hskip hcapture
    have hrest := ih (hs.onInline fun i => i.push (.run {} (escapeText w.text)))
    rw [State.onInline_onInline] at hrest
    exact hfirst.append hrest

theorem Raw.Group.open_eq (g : Group) : openElement σ g.tag s = s.noteAll g.features := by
  have hkind := g.kind
  unfold openElement Group.features
  cases he : Element.ofName g.tag.name with
  | inserted | contentControl | math => rfl
  | simpleField =>
    dsimp only
    cases g.tag.value? "w:instr" with
    | none => rfl
    | some instruction =>
      simp only [State.fieldInstruction, Option.map_some, Option.getD_some, instructionFeatures]
      split <;> rfl
  | _ => simp [he, isGroup] at hkind

theorem Raw.Group.close_eq (g : Group) : closeElement σ g.tag.name s = s := by
  have hkind := g.kind
  unfold closeElement
  cases he : Element.ofName g.tag.name with
  | inserted | contentControl | math | simpleField => rfl
  | _ => simp [he, isGroup] at hkind

theorem Raw.Group.reads_around (g : Group) (hs : s.skipDepth = 0) {inside : List Xml.Event}
    {s' : State} (h : Reads σ (s.noteAll g.features) inside s') (hs' : s'.skipDepth = 0) :
    Reads σ s (.opened g.tag :: (inside ++ [.closed g.tag.name])) s' := by
  have hplain : Element.ofName g.tag.name ≠ .skipped := by
    intro hskipped
    have hkind := g.kind
    rw [hskipped] at hkind
    cases hkind
  have hopened := Reads.opened (σ := σ) hs hplain
  have hclosed := Reads.closed (σ := σ) hs' g.tag.name
  rw [g.open_eq] at hopened
  rw [g.close_eq] at hclosed
  exact hopened.append (h.append hclosed)

mutual

theorem Raw.reads_item : (item : Item) → ∀ {s : State}, s.IsClear →
    Reads σ s item.events
      ((s.noteAll item.features).onInline fun i =>
        (item.pieces σ s.deletedDepth).foldl Inline.push i)
  | .run r, _, hs => reads_run hs r
  | .text tag pieces, s, hs => by
    have htexts := reads_formulaText (σ := σ) hs.toIsIdle pieces
    refine Reads.around tag (by decide) hs.skipDepth ?_ htexts (hs.onInline _).skipDepth ?_
    · rw [openElement, tag.kind]
      rfl
    · rw [closeElement, tag.kind]
      exact State.closed_capturing (hs.onInline _).capturesText
  | .properties tag items, s, hs => by
    have hproperties := reads_properties (σ := σ) hs.skipDepth hs.inRunProperties tag items
    have hrun := hs.run
    simp only [Item.pieces, List.foldl_nil, State.onInline_id]
    cases s
    cases hrun
    exact hproperties
  | .noted n, s, hs => by
    have h := Reads.empty (σ := σ) hs.skipDepth n.tag
    rw [n.read_eq] at h
    simp only [Item.pieces, List.foldl_nil, State.onInline_id]
    exact h
  | .group g items, s, hs => by
    have hitems := reads_items items (hs.noteAll g.features)
    rw [State.noteAll_noteAll] at hitems
    exact g.reads_around hs.skipDepth hitems ((hs.noteAll _).onInline _).skipDepth
  | .deleted tag items, s, hs => by
    have hnote : ({ s.noteAll [.revision] with deletedDepth := s.deletedDepth + 1 } :
        State).IsClear := { hs with }
    have hitems := reads_items items hnote
    refine Reads.around tag (by decide) hs.skipDepth ?_ hitems
      ((hnote.noteAll _).onInline _).skipDepth ?_
    · rw [openElement, tag.kind]
      rfl
    · rw [closeElement, tag.kind, State.onInline_eq, State.onInline_eq]
      simp [State.noteAll, Item.features, Item.pieces]
  | .link tag items, s, hs => by
    have hlink : (s.inLink (σ.linkTarget tag.tag) {}).IsClear := { hs with }
    have hitems := reads_items items hlink
    refine Reads.around tag (by decide) hs.skipDepth ?_ hitems
      ((hlink.noteAll _).onInline _).skipDepth ?_
    · rw [openElement, tag.kind]
      rfl
    · have hclose (content : Inline) :
          closeLink (({ s.inLink (σ.linkTarget tag.tag) {} with
            links := ⟨σ.linkTarget tag.tag, content⟩ :: s.links } : State).noteAll
              (Item.featuresAll items)) =
            (s.noteAll (Item.link tag items).features).onInline
              (Inline.pushMarkup (linkMarkup (σ.linkTarget tag.tag) content.finish)) := by
        simp [closeLink, State.inLink, State.noteAll, Item.features]
      have hcontent :=
        hclose ((Item.piecesAll σ s.deletedDepth items).foldl Inline.push {})
      rw [Inline.finish_foldl_push] at hcontent
      rw [closeElement, tag.kind]
      exact hcontent

/-- Items add their pieces to the line, one after the other. -/
theorem Raw.reads_items : (items : List Item) → ∀ {s : State}, s.IsClear →
    Reads σ s (Item.eventsAll items)
      ((s.noteAll (Item.featuresAll items)).onInline fun i =>
        (Item.piecesAll σ s.deletedDepth items).foldl Inline.push i)
  | [], s, _ => by
    simp only [Item.piecesAll, List.foldl_nil, State.onInline_id]
    exact Reads.nil
  | item :: items, s, hs => by
    have hfirst := reads_item item hs
    have hrest := reads_items items ((hs.noteAll item.features).onInline fun i =>
      (item.pieces σ s.deletedDepth).foldl Inline.push i)
    rw [State.onInline_noteAll, State.onInline_onInline, State.onInline_deletedDepth,
      State.noteAll_noteAll] at hrest
    simp only [Item.piecesAll, List.foldl_append]
    exact hfirst.append hrest

end

/-! Paragraphs. -/

theorem Raw.reads_setting (hs : s.IsIdle) (p : OpenParagraph) (setting : Setting) :
    Reads σ (s.inParagraph p) setting.events
      ((s.noteAll setting.features).inParagraph (setting.onParagraph p)) := by
  have hskip : (s.inParagraph p).skipDepth = 0 := hs.skipDepth
  cases setting with
  | style tag =>
    have h := Reads.empty (σ := σ) hskip tag.tag
    simp only [closeElement, openElement, tag.kind] at h
    exact h
  | numbering tag =>
    have h := Reads.empty (σ := σ) hskip tag.tag
    simp only [closeElement, openElement, tag.kind] at h
    exact h
  | mark tag items =>
    have h := reads_properties (σ := σ) hskip hs.inRunProperties tag items
    have hrun := hs.run
    cases s
    cases hrun
    exact h
  | tab tag =>
    have h := Reads.empty (σ := σ) hskip tag.tag
    have hrun : (s.inParagraph p).run = none := hs.run
    simp only [closeElement, openElement, tag.kind, hrun, Option.isSome_none, Bool.and_false,
      Bool.false_eq_true, if_false] at h
    exact h

theorem Raw.reads_settings (hs : s.IsIdle) (p : OpenParagraph) (settings : List Setting) :
    Reads σ (s.inParagraph p) (settings.flatMap Setting.events)
      ((s.noteAll (settings.flatMap Setting.features)).inParagraph
        (settings.foldl Setting.onParagraph p)) := by
  induction settings generalizing s p with
  | nil => exact Reads.nil
  | cons setting settings ih =>
    have hfirst := reads_setting (σ := σ) hs p setting
    have hrest := ih (hs.noteAll setting.features) (setting.onParagraph p)
    rw [State.noteAll_noteAll] at hrest
    exact hfirst.append hrest

theorem Raw.Paragraph.content_start (p : Paragraph) : p.start.content = {} := by
  have hkeep (settings : List Setting) (q : OpenParagraph) :
      (settings.foldl Setting.onParagraph q).content = q.content := by
    induction settings generalizing q with
    | nil => rfl
    | cons setting settings ih =>
      rw [List.foldl_cons, ih]
      cases setting <;> rfl
  exact hkeep p.settings {}

/-- No paragraph and no link is open, but there may be a deletion around. -/
structure State.IsOutside (s : State) : Prop extends s.IsClear where
  paragraph : s.paragraph = none
  links : s.links = []

/-- A paragraph is placed as its line says, and nothing else is left of it but what is counted. -/
theorem Raw.reads_paragraph (hs : s.IsOutside) (p : Paragraph) :
    Reads σ s p.events
      ((s.noteAll p.features).placeText (p.kind σ) (p.html σ s.deletedDepth)) := by
  have hnote : (s.noteAll p.features).IsOutside := { hs with }
  have hsettings := reads_settings (σ := σ) hs.toIsIdle {} p.settings
  have hclear : ((s.noteAll (p.settings.flatMap Setting.features)).inParagraph p.start).IsClear :=
    { hs with }
  have hitems := reads_items (σ := σ) p.items hclear
  have hinside := hsettings.append hitems
  refine Reads.around p.tag (by decide) hs.skipDepth ?_ hinside
    (((hclear.noteAll _).onInline _).skipDepth) ?_
  · rw [openElement, p.tag.kind]
    rfl
  · have hopen : ((s.noteAll (p.settings.flatMap Setting.features)).inParagraph p.start).noteAll
        (Item.featuresAll p.items) = (s.noteAll p.features).inParagraph p.start := by
      simp [State.noteAll, State.inParagraph, Paragraph.features]
    have hdepth : ((s.noteAll (p.settings.flatMap Setting.features)).inParagraph
        p.start).deletedDepth = s.deletedDepth := rfl
    rw [closeElement, p.tag.kind, hopen, State.onInline_inParagraph hnote.links, hdepth]
    have hclose := closeParagraph_inParagraph (σ := σ) hnote.paragraph
      { p.start with
        content := (p.pieces σ s.deletedDepth).foldl Inline.push p.start.content }
    rw [p.content_start, Inline.finish_foldl_push] at hclose
    rw [p.content_start]
    exact hclose

end Reading
end MarkdownExport.Word
