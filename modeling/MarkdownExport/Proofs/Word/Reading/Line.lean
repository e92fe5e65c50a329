import MarkdownExport.Proofs.Word.Grouping
import MarkdownExport.Proofs.Word.Parts
import MarkdownExport.Proofs.Xml.Scanning

/-! Reading lines back from their WordprocessingML: runs, revisions and links add their pieces to the
line that is open, and nothing else of the reader's state is left changed. -/
namespace MarkdownExport.Word
open Xml (Content Attributes Name)
open Document

/-- The reader gets from `s` to `s'` by these events, without a failure. -/
def Reads (σ : Source) (s : State) (events : List Xml.Event) (s' : State) : Prop :=
  readEvents σ s events = .ok s'

namespace Reads
variable {σ : Source} {s t u : State} {events more : List Xml.Event}

theorem nil : Reads σ s [] s := rfl

theorem append (h : Reads σ s events t) (h' : Reads σ t more u) : Reads σ s (events ++ more) u := by
  rw [Reads, readEvents_append, h]
  exact h'

theorem of_step {event : Xml.Event} (h : step σ s event = .ok t) : Reads σ s [event] t := by
  rw [Reads, readEvents_cons, h]
  rfl

theorem opened (hs : s.skipDepth = 0) {tag : Xml.Tag} (h : Element.ofName tag.name ≠ .skipped) :
    Reads σ s [.opened tag] (openElement σ tag s) :=
  of_step (by simp [step, hs, h])

theorem closed (hs : s.skipDepth = 0) (name : Text) :
    Reads σ s [.closed name] (closeElement σ name s) :=
  of_step (by simp [step, hs])

theorem empty (hs : s.skipDepth = 0) (tag : Xml.Tag) :
    Reads σ s [.empty tag] (closeElement σ tag.name (openElement σ tag s)) :=
  of_step (by simp [step, hs])

theorem text (hs : s.skipDepth = 0) {raw : Text} (h : captureText raw s = .ok t) :
    Reads σ s [.text raw] t :=
  of_step (by simp [step, hs, h])

/-- An element is read as its start, its children and its end. -/
theorem element {s₁ t₁ : State} (name : Name) (attributes : Attributes) {children : List Content}
    (hs : s.skipDepth = 0) (h : Element.ofName name.text ≠ .skipped)
    (hopen : openElement σ (attributes.tag name) s = s₁)
    (hc : Reads σ s₁ (Content.eventsAll children) t₁) (ht : t₁.skipDepth = 0)
    (hclose : closeElement σ name.text t₁ = t) :
    Reads σ s (Content.element name attributes children).events t := by
  rw [Content.events, ← List.singleton_append]
  subst hopen hclose
  exact (opened hs h).append (hc.append (closed ht name.text))

theorem cons {c : Content} {cs : List Content} (h : Reads σ s c.events t)
    (h' : Reads σ t (Content.eventsAll cs) u) : Reads σ s (Content.eventsAll (c :: cs)) u :=
  h.append h'

theorem singleton {c : Content} (h : Reads σ s c.events t) :
    Reads σ s (Content.eventsAll [c]) t :=
  h.cons nil

end Reads

theorem Content.eventsAll_append (cs ds : List Content) :
    Content.eventsAll (cs ++ ds) = Content.eventsAll cs ++ Content.eventsAll ds := by
  induction cs with
  | nil => rfl
  | cons c cs ih => simp [Content.eventsAll, ih]

namespace State

/-- Notes features in the order in which they come. -/
def noteAll (fs : List Feature) (s : State) : State := { s with seen := fs.reverse ++ s.seen }

@[simp] theorem noteAll_nil (s : State) : s.noteAll [] = s := rfl

theorem noteAll_noteAll (fs gs : List Feature) (s : State) :
    (s.noteAll fs).noteAll gs = s.noteAll (fs ++ gs) := by
  simp [noteAll]

/-- No run is open, and nothing that belongs to one. -/
structure IsIdle (s : State) : Prop where
  run : s.run = none
  inRunProperties : s.inRunProperties = false
  capturesText : s.capturesText = false
  capturesInstruction : s.capturesInstruction = false
  skipDepth : s.skipDepth = 0

/-- Inline content goes to the innermost link, else to the paragraph, and touches nothing else. -/
theorem onInline_eq (change : Inline → Inline) (s : State) :
    s.onInline change = { s with
      links := s.links.modifyHead fun link => { link with content := change link.content }
      paragraph := if s.links = [] then
          s.paragraph.map fun p => { p with content := change p.content }
        else s.paragraph } := by
  obtain ⟨blocks, footnotes, footnote, tables, paragraph, links⟩ := s
  cases links with
  | cons link links => rfl
  | nil => cases paragraph <;> rfl

theorem onInline_id (s : State) : s.onInline (fun i => i) = s := by
  obtain ⟨blocks, footnotes, footnote, tables, paragraph, links⟩ := s
  cases links with
  | cons link links => rfl
  | nil => cases paragraph <;> rfl

theorem onInline_onInline (change change' : Inline → Inline) (s : State) :
    (s.onInline change).onInline change' = s.onInline fun i => change' (change i) := by
  obtain ⟨blocks, footnotes, footnote, tables, paragraph, links⟩ := s
  cases links with
  | cons link links => rfl
  | nil => cases paragraph <;> rfl

theorem onInline_noteAll (change : Inline → Inline) (fs : List Feature) (s : State) :
    (s.onInline change).noteAll fs = (s.noteAll fs).onInline change := by
  rw [onInline_eq, onInline_eq]
  rfl

theorem IsIdle.onInline {s : State} (h : s.IsIdle) (change : Inline → Inline) :
    (s.onInline change).IsIdle := by
  rw [onInline_eq]
  exact { h with }

@[simp] theorem onInline_deletedDepth (change : Inline → Inline) (s : State) :
    (s.onInline change).deletedDepth = s.deletedDepth := by
  rw [onInline_eq]

end State

/-! Runs. -/

section Run
variable {σ : Source} {s : State}

/-- A run whose properties are being read. -/
def State.inFormat (s : State) (f : RunFormat) : State :=
  { s with run := some { format := f }, inRunProperties := true }

/-- A property that is written only if it is wanted. -/
theorem reads_flag (hs : s.skipDepth = 0) (name : Name) (attributes : Attributes)
    (change : Bool → RunFormat)
    (hopen : openElement σ (attributes.tag name) (s.inFormat (change false)) =
      s.inFormat (change true))
    (hclose : closeElement σ name.text (s.inFormat (change true)) = s.inFormat (change true))
    (wanted : Bool) :
    Reads σ (s.inFormat (change false))
      (Content.eventsAll (if wanted then [.empty name attributes] else []))
      (s.inFormat (change wanted)) := by
  cases wanted with
  | false => exact Reads.nil
  | true =>
    have hskip : (s.inFormat (change false)).skipDepth = 0 := hs
    have h := Reads.empty (σ := σ) hskip (attributes.tag name)
    rw [Attributes.tag_name, hopen, hclose] at h
    exact h.singleton

/-- The flags of a format come in their order, and strike may be set from the start. -/
theorem reads_formatXml (hs : s.skipDepth = 0) (struck : Bool) (f : RunFormat) :
    Reads σ (s.inFormat { strike := struck }) (Content.eventsAll (formatXml f))
      (s.inFormat { f with strike := f.strike || struck }) := by
  obtain ⟨bold, italic, strike, superscript⟩ := f
  have hbold := reads_flag (σ := σ) hs ⟨"w:b", by decide⟩ .nil
    (fun bold => { bold := bold, strike := struck }) rfl rfl bold
  have hitalic := reads_flag (σ := σ) hs ⟨"w:i", by decide⟩ .nil
    (fun italic => { bold := bold, italic := italic, strike := struck }) rfl rfl italic
  have hstrike := reads_flag (σ := σ) hs ⟨"w:strike", by decide⟩ .nil
    (fun strike => { bold := bold, italic := italic, strike := strike || struck })
    (by cases struck <;> rfl) rfl strike
  have hsuper := reads_flag (σ := σ) hs ⟨"w:vertAlign", by decide⟩
    (.single valueName "superscript")
    (fun superscript => ⟨bold, italic, strike || struck, superscript⟩) rfl rfl superscript
  rw [formatXml, Content.eventsAll_append, Content.eventsAll_append, Content.eventsAll_append]
  exact ((hbold.append hitalic).append hstrike).append hsuper

/-- A run inside the elements that are open, its properties read. -/
def State.inRun (s : State) (f : RunFormat) (content : Text) : State :=
  { s with run := some ⟨f, content⟩ }

theorem closeElement_runProperties (hs : s.IsIdle) (f : RunFormat) :
    closeElement σ runPropertiesName.text (s.inFormat f) = s.inRun f [] := by
  obtain ⟨-, hproperties, -, -, -⟩ := hs
  cases s
  cases hproperties
  rfl

theorem reads_runProperties (hs : s.IsIdle) (struck : Bool) (f : RunFormat) :
    Reads σ (s.inRun { strike := struck } [])
      (Content.eventsAll (properties runPropertiesName (formatXml f)))
      (s.inRun { f with strike := f.strike || struck } []) := by
  have hflags := reads_formatXml (σ := σ) hs.skipDepth struck f
  unfold properties
  by_cases hempty : formatXml f = []
  · rw [hempty] at hflags
    have hformat : RunFormat.mk f.bold f.italic (f.strike || struck) f.superscript =
        { strike := struck } := by
      have h := Except.ok.inj hflags
      simpa [State.inFormat] using h.symm
    rw [hempty, hformat]
    exact Reads.nil
  · rw [if_neg (by simpa using hempty)]
    have hskip : (s.inRun { strike := struck } []).skipDepth = 0 := hs.skipDepth
    have h := Reads.element runPropertiesName .nil hskip (by decide) rfl hflags hs.skipDepth
      (closeElement_runProperties hs _)
    exact h.singleton

/-- A run whose text is being read. -/
def State.inText (s : State) (f : RunFormat) (content : Text) : State :=
  { s.inRun f content with capturesText := true }

theorem captureText_inText (hs : s.IsIdle) (f : RunFormat) (content : Text) :
    captureText (Xml.escape content) (s.inText f []) = .ok (s.inText f (escapeText content)) := by
  obtain ⟨-, -, -, hinstruction, -⟩ := hs
  simp [captureText, State.inText, State.inRun, hinstruction, State.pushText]

theorem closeElement_inText (hs : s.IsIdle) {name : Text} (hname : Element.ofName name = .text)
    (f : RunFormat) (content : Text) :
    closeElement σ name (s.inText f content) = s.inRun f content := by
  obtain ⟨-, -, htext, -, -⟩ := hs
  rw [closeElement, hname]
  cases s
  cases htext
  rfl

/-- The text element of a run, under either of its names. -/
theorem reads_text (hs : s.IsIdle) {name : Name} (hname : Element.ofName name.text = .text)
    (attributes : Attributes) (f : RunFormat) (content : Text) :
    Reads σ (s.inRun f []) (Content.leaf name attributes content).events
      (s.inRun f (escapeText content)) := by
  have hopen : openElement σ (attributes.tag name) (s.inRun f []) = s.inText f [] := by
    rw [openElement, Attributes.tag_name, hname]
    rfl
  have hstart : Reads σ (s.inRun f []) [.opened (attributes.tag name)] (s.inText f []) := by
    rw [← hopen]
    have hplain : Element.ofName (attributes.tag name).name ≠ .skipped := by simp [hname]
    exact Reads.opened (s := s.inRun f []) hs.skipDepth hplain
  have hend : Reads σ (s.inText f (escapeText content)) [.closed name.text]
      (s.inRun f (escapeText content)) := by
    rw [← closeElement_inText (σ := σ) hs hname]
    exact Reads.closed (s := s.inText f _) hs.skipDepth name.text
  rw [Content.events, ← List.singleton_append]
  refine hstart.append (Reads.append ?_ hend)
  by_cases hempty : content = []
  · subst hempty
    exact Reads.nil
  · rw [if_neg hempty]
    exact Reads.text (s := s.inText f []) hs.skipDepth (captureText_inText hs f content)

/-- The piece of a run within so many deletions. -/
def Document.Run.pieceAt (depth : Nat) (r : Run) : Piece :=
  if 0 < depth then r.deletedPiece else r.piece

theorem Document.Run.pieceAt_eq (depth : Nat) (r : Run) :
    r.pieceAt depth =
      .run { r.format with strike := r.format.strike || decide (0 < depth) }
        (escapeText r.text) := by
  by_cases h : 0 < depth <;> simp [pieceAt, h, deletedPiece, piece]

theorem closeRun_inRun (hs : s.IsIdle) (f : RunFormat) (content : Text) :
    closeRun (s.inRun f content) = s.onInline (Inline.pushRun f content) := by
  have hclosed : ({ s with run := none } : State) = s := by
    obtain ⟨hrun, -, -, -, -⟩ := hs
    cases s
    cases hrun
    rfl
  change ({ s with run := none } : State).onInline _ = _
  rw [hclosed]

theorem closeElement_run (hs : s.IsIdle) (f : RunFormat) (content : Text) :
    closeElement σ runName.text (s.inRun f content) =
      s.onInline (Inline.pushRun f content) :=
  closeRun_inRun hs f content

theorem reads_run (hs : s.IsIdle) {name : Name} (hname : Element.ofName name.text = .text)
    (r : Run) :
    Reads σ s (r.xml name).events (s.onInline fun i => i.push (r.pieceAt s.deletedDepth)) := by
  have hproperties := reads_runProperties (σ := σ) hs (0 < s.deletedDepth) r.format
  have htext := reads_text (σ := σ) hs hname (.single ⟨"xml:space", by decide⟩ "preserve")
    { r.format with strike := r.format.strike || decide (0 < s.deletedDepth) } r.text
  have hall := hproperties.append htext.singleton
  rw [← Content.eventsAll_append] at hall
  simp only [Run.pieceAt_eq]
  exact Reads.element runName .nil hs.skipDepth (by decide) rfl hall hs.skipDepth
    (closeElement_run hs _ _)

theorem reads_runs (hs : s.IsIdle) {name : Name} (hname : Element.ofName name.text = .text)
    (rs : List Run) :
    Reads σ s (Content.eventsAll (rs.map (Run.xml name)))
      (s.onInline fun i => (rs.map (Run.pieceAt s.deletedDepth)).foldl Inline.push i) := by
  induction rs generalizing s with
  | nil =>
    rw [List.map_nil, List.map_nil]
    simp only [List.foldl_nil, State.onInline_id]
    exact Reads.nil
  | cons r rs ih =>
    have hfirst := reads_run (σ := σ) hs hname r
    have hrest := ih (hs.onInline fun i => i.push (r.pieceAt s.deletedDepth))
    rw [State.onInline_onInline, State.onInline_deletedDepth] at hrest
    exact hfirst.cons hrest

end Run

/-! Lines. -/

section Item
variable (rels : Relationships) (numbering : Numbering) {s : State}

theorem linkTarget_eq (target : Target) :
    Source.linkTarget ⟨rels, numbering, .faithful⟩ (target.attributes.tag hyperlinkName) =
      target.resolve rels := by
  cases target with
  | relationship id =>
    have hid := Attributes.value?_tag_single hyperlinkName relationshipIdName id "r:id"
    rw [if_pos (by decide)] at hid
    simp only [Source.linkTarget, Target.attributes, hid]
    rfl
  | anchor name =>
    have hid := Attributes.value?_tag_single hyperlinkName anchorName name "r:id"
    have hanchor := Attributes.value?_tag_single hyperlinkName anchorName name "w:anchor"
    rw [if_neg (by decide)] at hid
    rw [if_pos (by decide)] at hanchor
    simp only [Source.linkTarget, Target.attributes, hid, hanchor]
    rfl

theorem linkMarkup_eq (target : Option Text) (content : Text) :
    linkMarkup target content = linkHtml target content := by
  cases target with
  | none => rfl
  | some url => cases content <;> rfl

theorem map_pieceAt_zero (rs : List Run) : rs.map (Run.pieceAt 0) = rs.map Run.piece := rfl

theorem map_pieceAt_one (rs : List Run) : rs.map (Run.pieceAt 1) = rs.map Run.deletedPiece := rfl

theorem reads_inserted (hs : s.IsIdle) (hd : s.deletedDepth = 0) (rs : List Run) :
    Reads ⟨rels, numbering, .faithful⟩ s (Item.inserted rs).xml.events
      ((s.noteAll [.revision]).onInline fun i => (rs.map Run.piece).foldl Inline.push i) := by
  have hnote : (s.noteAll [.revision]).IsIdle := { hs with }
  have hruns := reads_runs (σ := ⟨rels, numbering, .faithful⟩) hnote
    (show Element.ofName textName.text = .text by decide) rs
  rw [show (s.noteAll [.revision]).deletedDepth = 0 from hd, map_pieceAt_zero] at hruns
  exact Reads.element insertedName .nil hs.skipDepth (by decide) rfl hruns
    (hnote.onInline _).skipDepth rfl

theorem reads_deleted (hs : s.IsIdle) (hd : s.deletedDepth = 0) (rs : List Run) :
    Reads ⟨rels, numbering, .faithful⟩ s (Item.deleted rs).xml.events
      ((s.noteAll [.revision]).onInline fun i =>
        (rs.map Run.deletedPiece).foldl Inline.push i) := by
  have hnote : ({ s.noteAll [.revision] with deletedDepth := 1 } : State).IsIdle := { hs with }
  have hruns := reads_runs (σ := ⟨rels, numbering, .faithful⟩) hnote
    (show Element.ofName deletedTextName.text = .text by decide) rs
  rw [map_pieceAt_one] at hruns
  have hopen : openElement ⟨rels, numbering, .faithful⟩ (Attributes.nil.tag deletedName) s =
      { s.noteAll [.revision] with deletedDepth := 1 } := by
    cases s
    cases hd
    rfl
  have hclose (change : Inline → Inline) :
      closeElement ⟨rels, numbering, .faithful⟩ deletedName.text
          (({ s.noteAll [.revision] with deletedDepth := 1 } : State).onInline change) =
        (s.noteAll [.revision]).onInline change := by
    rw [State.onInline_eq, State.onInline_eq]
    cases s
    cases hd
    rfl
  exact Reads.element deletedName .nil hs.skipDepth (by decide) hopen hruns
    (hnote.onInline _).skipDepth (hclose _)

/-- A state within a link. -/
def State.inLink (s : State) (target : Option Text) (content : Inline) : State :=
  { s.noteAll [.hyperlink] with links := ⟨target, content⟩ :: s.links }

theorem reads_link (hs : s.IsIdle) (hd : s.deletedDepth = 0) (target : Target) (rs : List Run) :
    Reads ⟨rels, numbering, .faithful⟩ s (Item.link target rs).xml.events
      ((s.noteAll [.hyperlink]).onInline fun i =>
        i.push (.markup (linkHtml (target.resolve rels) (lineHtml (rs.map Run.piece))))) := by
  have hidle (content : Inline) : (s.inLink (target.resolve rels) content).IsIdle := { hs with }
  have hruns := reads_runs (σ := ⟨rels, numbering, .faithful⟩) (hidle {})
    (show Element.ofName textName.text = .text by decide) rs
  rw [show (s.inLink (target.resolve rels) {}).deletedDepth = 0 from hd, map_pieceAt_zero] at hruns
  have hopen : openElement ⟨rels, numbering, .faithful⟩ (target.attributes.tag hyperlinkName) s =
      s.inLink (target.resolve rels) {} := by
    have htarget := linkTarget_eq rels numbering target
    change ({ s.note .hyperlink with links := ⟨Source.linkTarget _ _, {}⟩ :: s.links } : State) = _
    rw [htarget]
    rfl
  have hclose (content : Inline) :
      closeElement ⟨rels, numbering, .faithful⟩ hyperlinkName.text
          (s.inLink (target.resolve rels) content) =
        (s.noteAll [.hyperlink]).onInline
          (Inline.pushMarkup (linkMarkup (target.resolve rels) content.finish)) := rfl
  have hcontent := hclose ((rs.map Run.piece).foldl Inline.push {})
  rw [Inline.finish_foldl_push, linkMarkup_eq] at hcontent
  exact Reads.element hyperlinkName target.attributes hs.skipDepth (by decide) hopen hruns
    ((hidle {}).onInline _).skipDepth hcontent

theorem reads_item (hs : s.IsIdle) (hd : s.deletedDepth = 0) (item : Item) :
    Reads ⟨rels, numbering, .faithful⟩ s item.xml.events
      ((s.noteAll item.features).onInline fun i => (item.pieces rels).foldl Inline.push i) := by
  cases item with
  | run r =>
    have h := reads_run (σ := ⟨rels, numbering, .faithful⟩) hs
      (show Element.ofName textName.text = .text by decide) r
    rw [hd] at h
    exact h
  | inserted rs => exact reads_inserted rels numbering hs hd rs
  | deleted rs => exact reads_deleted rels numbering hs hd rs
  | link target rs => exact reads_link rels numbering hs hd target rs

theorem reads_items (hs : s.IsIdle) (hd : s.deletedDepth = 0) (items : List Item) :
    Reads ⟨rels, numbering, .faithful⟩ s (Content.eventsAll (items.map Item.xml))
      ((s.noteAll (items.flatMap Item.features)).onInline fun i =>
        (items.flatMap (Item.pieces rels)).foldl Inline.push i) := by
  induction items generalizing s with
  | nil =>
    simp only [List.flatMap_nil, List.foldl_nil, State.onInline_id]
    exact Reads.nil
  | cons item items ih =>
    have hfirst := reads_item rels numbering hs hd item
    have hnote : (s.noteAll item.features).IsIdle := { hs with }
    have hrest := ih (hnote.onInline fun i => (item.pieces rels).foldl Inline.push i)
      ((State.onInline_deletedDepth _ _).trans hd)
    rw [State.onInline_noteAll, State.onInline_onInline, State.noteAll_noteAll] at hrest
    simp only [List.flatMap_cons, List.foldl_append]
    exact hfirst.cons hrest

end Item

end MarkdownExport.Word
