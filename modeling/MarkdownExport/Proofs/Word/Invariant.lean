import MarkdownExport.Proofs.Word.Grammar
import MarkdownExport.Proofs.Word.Parts

/-! Every text that the reader holds is complete HTML, whatever is open at the moment and in
whatever order elements come. Each element keeps that, and so does a whole part. -/
namespace MarkdownExport.Word
variable {V : Vocabulary}

namespace IsInline
variable {s t : Text}

theorem nil : IsInline V [] := ⟨_, .nil⟩

theorem append : IsInline V s → IsInline V t → IsInline V (s ++ t) :=
  fun ⟨_, hs⟩ ⟨_, ht⟩ => ⟨_, .append hs ht⟩

theorem text (h : IsText t) : IsInline V t := ⟨_, .text h⟩

theorem enclose (mark : Mark) : IsInline V t → IsInline V (enclose mark.tag t) :=
  fun ⟨_, h⟩ => ⟨_, .marked mark h⟩

theorem encloseIf (wanted : Bool) (mark : Mark) (h : IsInline V t) :
    IsInline V (encloseIf wanted mark.tag t) := by
  unfold Word.encloseIf
  split
  · exact h.enclose mark
  · exact h

theorem wrap (f : RunFormat) (h : IsInline V t) : IsInline V (f.wrap t) :=
  (((h.encloseIf f.superscript .superscript).encloseIf f.strike .deleted).encloseIf
    f.italic .emphasis).encloseIf f.bold .strong

end IsInline

namespace IsFlow
variable {s t : Text}

theorem nil : IsFlow V [] := ⟨_, .nil⟩

theorem append : IsFlow V s → IsFlow V t → IsFlow V (s ++ t) :=
  fun ⟨_, hs⟩ ⟨_, ht⟩ => ⟨_, .append hs ht⟩

theorem inline : IsInline V t → IsFlow V t := fun ⟨_, h⟩ => ⟨_, .inline h⟩

theorem text (h : IsText t) : IsFlow V t := inline (.text h)

end IsFlow

variable (V) in
/-- A table whose cells hold inline HTML and tables. -/
def IsTable (t : Text) : Prop :=
  ∃ rows : List (List (Text × List Node)),
    (∀ row ∈ rows, ∀ c ∈ row, FlowHtml V c.1 c.2) ∧ t = tableTag rows

theorem IsTable.isFlow {t : Text} : IsTable V t → IsFlow V t := by
  rintro ⟨rows, h, rfl⟩
  exact ⟨_, .table h (Or.inl rfl)⟩

theorem renderTable_isTable {rows : List (List Text)}
    (h : ∀ row ∈ rows, ∀ cell ∈ row, IsFlow V cell) : IsTable V (renderTable rows) := by
  have hex : ∀ cell, ∃ ns, IsFlow V cell → FlowHtml V cell ns := by
    intro cell
    by_cases hc : IsFlow V cell
    · obtain ⟨ns, hns⟩ := hc
      exact ⟨ns, fun _ => hns⟩
    · exact ⟨[], fun h => absurd h hc⟩
  choose nodes hnodes using hex
  refine ⟨rows.map fun row => row.map fun cell => (cell, nodes cell), ?_, ?_⟩
  · intro row hrow c hc
    obtain ⟨cells, hcells, rfl⟩ := List.mem_map.1 hrow
    obtain ⟨cell, hcell, rfl⟩ := List.mem_map.1 hc
    exact hnodes cell (h cells hcells cell hcell)
  · simp [renderTable, tableTag, List.flatMap_map]

variable (V) in
/-- What is written and what is held back are both inline HTML. -/
structure Inline.IsMarkup (i : Inline) : Prop where
  done : IsInline V i.done
  pending : ∀ p ∈ i.pending, IsInline V p.2

namespace Inline.IsMarkup
variable {i : Inline}

theorem empty : Inline.IsMarkup V {} := ⟨.nil, by simp⟩

theorem finish (h : i.IsMarkup V) : IsInline V i.finish := by
  unfold Inline.finish
  split
  next f c hp => exact h.done.append (.wrap f (h.pending _ hp))
  next => exact h.done

theorem pushRun (h : i.IsMarkup V) (f : RunFormat) {t : Text} (ht : IsInline V t) :
    (i.pushRun f t).IsMarkup V := by
  unfold Inline.pushRun
  split
  · exact h
  · split
    next current before hp =>
      split
      · refine ⟨h.done, ?_⟩
        rintro _ ⟨⟩
        exact (h.pending _ hp).append ht
      · refine ⟨h.finish, ?_⟩
        rintro _ ⟨⟩
        exact ht
    next =>
      refine ⟨h.done, ?_⟩
      rintro _ ⟨⟩
      exact ht

theorem pushMarkup (h : i.IsMarkup V) {t : Text} (ht : IsInline V t) :
    (i.pushMarkup t).IsMarkup V :=
  ⟨h.finish.append ht, by simp [Inline.pushMarkup]⟩

end Inline.IsMarkup

variable (V) in
structure OpenTable.IsMarkup (t : OpenTable) : Prop where
  rows : ∀ row ∈ t.rows, ∀ cell ∈ row, IsFlow V cell
  row : ∀ cell ∈ t.row, IsFlow V cell
  cell : ∀ cell ∈ t.cell, IsFlow V cell

theorem closeCell_isMarkup {t : OpenTable} (h : t.IsMarkup V) : (closeCell t).IsMarkup V := by
  unfold closeCell
  split
  next cell hc =>
    refine ⟨h.rows, ?_, by simp⟩
    intro c hm
    rcases List.mem_append.1 hm with hm | hm
    · exact h.row c hm
    · rw [List.mem_singleton.1 hm]
      exact h.cell cell hc
  next => exact h

theorem closeRow_isMarkup {t : OpenTable} (h : t.IsMarkup V) : (closeRow t).IsMarkup V := by
  refine ⟨?_, by simp [closeRow], h.cell⟩
  intro row hm
  rcases List.mem_append.1 hm with hm | hm
  · exact h.rows row hm
  · rw [List.mem_singleton.1 hm]
    exact h.row

variable (V) in
/-- The content of a text block is inline HTML, and there are headings of three levels only. -/
def Block.IsMarkup : Block → Prop
  | text kind html => (∀ level, kind = .heading level → 1 ≤ level ∧ level ≤ 3) ∧ IsInline V html
  | table html => IsTable V html

theorem Block.IsMarkup.isFlow {b : Block} (h : b.IsMarkup V) : IsFlow V b.html := by
  cases b with
  | text kind html => exact .inline h.2
  | table html => exact IsTable.isFlow h

variable (V) in
/-- Whatever text the reader holds is complete HTML, and the open links may be written. -/
structure State.IsMarkup (s : State) : Prop where
  run : ∀ r ∈ s.run, IsInline V r.content
  paragraph : ∀ p ∈ s.paragraph, p.content.IsMarkup V
  links : ∀ l ∈ s.links, l.content.IsMarkup V ∧ ∀ t ∈ l.target, V.link (escapeValue t)
  tables : ∀ t ∈ s.tables, t.IsMarkup V
  blocks : ∀ b ∈ s.blocks, b.IsMarkup V
  footnotes : ∀ n ∈ s.footnotes, IsFlow V n.html

namespace State.IsMarkup
variable {s : State}

theorem initial : State.IsMarkup V {} := by
  constructor <;> simp

theorem note (h : s.IsMarkup V) (f : Feature) : (s.note f).IsMarkup V := { h with }

theorem onInline (h : s.IsMarkup V) {change : Inline → Inline}
    (hc : ∀ i, i.IsMarkup V → (change i).IsMarkup V) : (s.onInline change).IsMarkup V := by
  unfold State.onInline
  split
  next link links hl =>
    have hlinks := h.links
    rw [hl, List.forall_mem_cons] at hlinks
    obtain ⟨⟨hcontent, htarget⟩, hrest⟩ := hlinks
    exact { h with links := List.forall_mem_cons.2 ⟨⟨hc _ hcontent, htarget⟩, hrest⟩ }
  next =>
    split
    next p hp =>
      refine { h with paragraph := ?_ }
      rintro _ ⟨⟩
      exact hc _ (h.paragraph p hp)
    next => exact h

theorem pushText (h : s.IsMarkup V) {html : Text} (ht : IsInline V html) :
    (s.pushText html).IsMarkup V := by
  unfold State.pushText
  split
  next run hr =>
    refine { h with run := ?_ }
    rintro _ ⟨⟩
    exact (h.run run hr).append ht
  next => exact h.onInline fun i hi => hi.pushRun {} ht

theorem fieldInstruction (h : s.IsMarkup V) (instruction : Text) :
    (s.fieldInstruction instruction).IsMarkup V := by
  unfold State.fieldInstruction
  split
  · exact h.note _
  · exact h

theorem onTable (h : s.IsMarkup V) {change : OpenTable → OpenTable}
    (hc : ∀ t, t.IsMarkup V → (change t).IsMarkup V) :
    (s.onTable change).IsMarkup V := by
  unfold State.onTable
  split
  next t ts ht =>
    have htables := h.tables
    rw [ht, List.forall_mem_cons] at htables
    exact { h with tables := List.forall_mem_cons.2 ⟨hc t htables.1, htables.2⟩ }
  next => exact h

theorem onRun (h : s.IsMarkup V) {change : OpenRun → OpenRun}
    (hc : ∀ r, IsInline V r.content → IsInline V (change r).content) :
    (s.onRun change).IsMarkup V := by
  refine { h with run := ?_ }
  rintro r hr
  obtain ⟨r', hr', rfl⟩ := Option.map_eq_some_iff.1 hr
  exact hc r' (h.run r' hr')

theorem onFormat (h : s.IsMarkup V) (change : RunFormat → RunFormat) :
    (s.onFormat change).IsMarkup V := by
  unfold State.onFormat
  split
  · exact h.onRun fun r hr => hr
  · exact h

theorem addBlock (h : s.IsMarkup V) {b : Block} (hb : b.IsMarkup V) :
    (s.addBlock b).IsMarkup V := by
  refine { h with blocks := ?_ }
  intro c hm
  rcases List.mem_append.1 hm with hm | hm
  · exact h.blocks c hm
  · rw [List.mem_singleton.1 hm]
    exact hb

theorem cell (h : s.IsMarkup V) {c : Text} (hc : s.cell? = some c) : IsFlow V c := by
  unfold State.cell? at hc
  obtain ⟨t, ht, hc⟩ := Option.bind_eq_some_iff.1 hc
  exact (h.tables t (List.mem_of_mem_head? ht)).cell c hc

theorem setCell (h : s.IsMarkup V) {c : Text} (hc : IsFlow V c) : (s.setCell c).IsMarkup V := by
  refine h.onTable fun t ht => { ht with cell := ?_ }
  rintro _ ⟨⟩
  exact hc

end State.IsMarkup

variable (V) in
/-- The links and images that a source gives rise to may be written. -/
structure Vocabulary.Admits (σ : Source) : Prop where
  link : ∀ tag, ∀ t ∈ σ.linkTarget tag, V.link (escapeValue t)
  image : σ.profile = .faithful → V.image

theorem vocabulary_admits (σ : Source) : σ.profile.vocabulary.Admits σ := by
  cases hp : σ.profile with
  | faithful => exact ⟨fun _ _ _ => trivial, fun _ => trivial⟩
  | strict =>
    refine ⟨?_, by simp [hp]⟩
    intro tag t ht
    rw [Source.linkTarget, hp] at ht
    obtain ⟨given, -, hg⟩ := Option.bind_eq_some_iff.1 ht
    exact ⟨given, t, hg, rfl⟩

theorem imageMarkup_isInline (hi : V.image) (source : Text) (description : Option Text) :
    IsInline V (imageMarkup source description) := by
  have htag : imageMarkup source description =
      imageTag (escapeValue source) (description.map escapeValue) := by
    cases description <;> rfl
  have hd : ∀ d ∈ description.map escapeValue, IsValue d := by
    intro d hd
    obtain ⟨e, -, rfl⟩ := Option.map_eq_some_iff.1 hd
    exact escapeValue_isValue e
  rw [htag]
  exact ⟨_, .image hi (escapeValue_isValue source) hd⟩

theorem linkMarkup_isInline {target : Option Text} (ht : ∀ t ∈ target, V.link (escapeValue t))
    {inner : Text} (h : IsInline V inner) : IsInline V (linkMarkup target inner) := by
  unfold linkMarkup
  split
  next t =>
    split
    · exact h
    · obtain ⟨ns, hns⟩ := h
      exact ⟨_, .link (escapeValue_isValue t) (ht t rfl) hns⟩
  next => exact h

theorem headingLevel?_bounds {style : Text} {level : Nat} (h : headingLevel? style = some level) :
    1 ≤ level ∧ level ≤ 3 := by
  unfold headingLevel? at h
  dsimp only at h
  split at h
  · cases h
    exact ⟨Nat.le_refl 1, by decide⟩
  · obtain ⟨n, -, hn⟩ := Option.bind_eq_some_iff.1 h
    split at hn
    · cases hn
    next hz =>
      cases hn
      omega

theorem blockKind_level {σ : Source} {p : OpenParagraph} {level : Nat}
    (h : blockKind σ p = .heading level) : 1 ≤ level ∧ level ≤ 3 := by
  unfold blockKind at h
  split at h
  next n hn =>
    cases h
    obtain ⟨style, -, hs⟩ := Option.bind_eq_some_iff.1 hn
    exact headingLevel?_bounds hs
  next =>
    split at h
    · split at h <;> cases h
    · cases h

namespace State.IsMarkup
variable {s : State} {σ : Source}

theorem openReference (h : s.IsMarkup V) (tag : Xml.Tag) :
    (openReference tag s).IsMarkup V := by
  unfold Word.openReference
  split
  next id _ => exact h.onRun fun r hr => hr.append (.text (escapeText_isText id))
  next => exact h

theorem openBreak (h : s.IsMarkup V) (tag : Xml.Tag) : (openBreak tag s).IsMarkup V := by
  unfold Word.openBreak
  split
  · exact h
  · split
    · exact h.note _
    · exact h.pushText ⟨_, .lineBreak⟩

theorem openPicture (h : s.IsMarkup V) (tag : Xml.Tag) : (openPicture σ tag s).IsMarkup V := by
  unfold Word.openPicture
  split <;> exact { h with }

theorem openElement (hσ : V.Admits σ) (h : s.IsMarkup V) (tag : Xml.Tag) :
    (openElement σ tag s).IsMarkup V := by
  unfold Word.openElement
  cases Element.ofName tag.name with
  | footnote | runProperties | text | instruction | drawing | drawingProperties =>
    exact { h with }
  | paragraph =>
    refine { h with paragraph := ?_ }
    rintro _ ⟨⟩
    exact .empty
  | paragraphStyle | numberingId =>
    refine { h with paragraph := ?_ }
    intro p hp
    obtain ⟨q, hq, rfl⟩ := Option.map_eq_some_iff.1 hp
    exact h.paragraph q hq
  | run =>
    refine { h with run := ?_ }
    rintro _ ⟨⟩
    exact .nil
  | bold | italic | strike | verticalAlign => exact h.onFormat _
  | tab =>
    dsimp only
    split
    · exact h.pushText (.text (.of_plain (by decide)))
    · exact h
  | lineBreak => exact h.openBreak tag
  | hyperlink =>
    have hlink : ∀ t ∈ σ.linkTarget tag, V.link (escapeValue t) := hσ.link tag
    exact { h.note .hyperlink with
      links := List.forall_mem_cons.2 ⟨⟨.empty, hlink⟩, h.links⟩ }
  | inserted | commentReference | bookmark | contentControl | anchor | chart | smartArt | shape
  | object | math => exact h.note _
  | deleted => exact { h.note .revision with }
  | footnoteReference | endnoteReference => exact (h.note _).openReference tag
  | simpleField =>
    dsimp only
    split
    · exact (h.note _).fieldInstruction _
    · exact h.note _
  | fieldCharacter | vectorShape =>
    dsimp only
    split
    · exact h.note _
    · exact h
  | picture => exact h.openPicture tag
  | table =>
    have hempty : OpenTable.IsMarkup V {} := ⟨by simp, by simp, by simp⟩
    exact { h.note .table with tables := List.forall_mem_cons.2 ⟨hempty, h.tables⟩ }
  | row => exact h.onTable fun t ht => { ht with row := by simp }
  | cell =>
    refine h.onTable fun t ht => { ht with cell := ?_ }
    rintro _ ⟨⟩
    exact .nil
  | skipped | other => exact h

theorem closeRun (h : s.IsMarkup V) : (closeRun s).IsMarkup V := by
  unfold Word.closeRun
  split
  next run hr =>
    have hs : State.IsMarkup V { s with run := none } := { h with run := by simp }
    exact hs.onInline fun i hi => hi.pushRun _ (h.run run hr)
  next => exact h

theorem closeLink (h : s.IsMarkup V) : (closeLink s).IsMarkup V := by
  unfold Word.closeLink
  split
  next link links hl =>
    have hlinks := h.links
    rw [hl, List.forall_mem_cons] at hlinks
    obtain ⟨⟨hcontent, htarget⟩, hrest⟩ := hlinks
    have hs : State.IsMarkup V { s with links := links } := { h with links := hrest }
    exact hs.onInline fun i hi => hi.pushMarkup (linkMarkup_isInline htarget hcontent.finish)
  next => exact h

theorem placeImage (h : s.IsMarkup V) {html : Text} (hi : IsInline V html) :
    (placeImage html s).IsMarkup V := by
  unfold Word.placeImage
  refine State.IsMarkup.onInline ?_ fun i hi' => hi'.pushMarkup hi
  split
  next run hr =>
    have hs : State.IsMarkup V { s with run := some { run with content := [] } } := by
      refine { h with run := ?_ }
      rintro _ ⟨⟩
      exact .nil
    exact hs.onInline fun i hi' => hi'.pushRun _ (h.run run hr)
  next => exact h

theorem closeDrawing (hσ : V.Admits σ) (h : s.IsMarkup V) : (closeDrawing σ s).IsMarkup V := by
  unfold Word.closeDrawing
  split
  next drawing hd =>
    have hs : State.IsMarkup V { s with drawing := none } := { h with }
    dsimp only
    split
    next source hp _ => exact hs.placeImage (imageMarkup_isInline (hσ.image hp) _ _)
    next => exact hs
  next => exact h

theorem closeParagraph (h : s.IsMarkup V) : (closeParagraph σ s).IsMarkup V := by
  unfold Word.closeParagraph
  split
  next p hp =>
    have hs : State.IsMarkup V { s with paragraph := none } := { h with paragraph := by simp }
    have hhtml := (h.paragraph p hp).finish
    dsimp only
    split
    next cell hc =>
      have hcell := hs.cell hc
      refine hs.setCell ?_
      unfold appendToCell
      split
      · exact hcell
      · split
        · exact .inline hhtml
        · exact (hcell.append (.text (.of_plain (by decide)))).append (.inline hhtml)
    next =>
      split
      · exact hs
      · exact hs.addBlock ⟨fun _ => blockKind_level, hhtml⟩
  next => exact h

theorem closeTable (h : s.IsMarkup V) : (closeTable s).IsMarkup V := by
  unfold Word.closeTable
  split
  next t ts ht =>
    have htables := h.tables
    rw [ht, List.forall_mem_cons] at htables
    have hs : State.IsMarkup V { s with tables := ts } := { h with tables := htables.2 }
    have htable := renderTable_isTable htables.1.rows
    dsimp only
    split
    next cell hc => exact hs.setCell ((hs.cell hc).append htable.isFlow)
    next => exact hs.addBlock htable
  next => exact h

theorem intercalate_isFlow {ts : List Text} (h : ∀ t ∈ ts, IsFlow V t) :
    IsFlow V (List.intercalate [' '] ts) := by
  induction ts with
  | nil => exact .nil
  | cons t ts ih =>
    rw [List.forall_mem_cons] at h
    cases ts with
    | nil => simpa using h.1
    | cons u ts =>
      rw [List.intercalate_cons_cons]
      exact (h.1.append (.text (.of_plain (by decide)))).append (ih h.2)

theorem closeFootnote (h : s.IsMarkup V) : (closeFootnote s).IsMarkup V := by
  unfold Word.closeFootnote
  split
  next note _ =>
    have hs : State.IsMarkup V
        { s with footnote := none, blocks := s.blocks.take note.firstBlock } :=
      { h with blocks := fun b hb => h.blocks b (List.mem_of_mem_take hb) }
    dsimp only
    split
    · refine { hs with footnotes := ?_ }
      intro n hn
      rcases List.mem_append.1 hn with hn | hn
      · exact h.footnotes n hn
      · rw [List.mem_singleton.1 hn]
        apply intercalate_isFlow
        intro t ht
        obtain ⟨b, hb, rfl⟩ := List.mem_map.1 ht
        exact (h.blocks b (List.mem_of_mem_drop hb)).isFlow
    · exact hs
  next => exact h

theorem closeElement (hσ : V.Admits σ) (h : s.IsMarkup V) (name : Text) :
    (closeElement σ name s).IsMarkup V := by
  unfold Word.closeElement
  cases Element.ofName name with
  | text | instruction | runProperties | deleted => exact { h with }
  | run => exact h.closeRun
  | hyperlink => exact h.closeLink
  | drawing => exact h.closeDrawing hσ
  | paragraph => exact h.closeParagraph
  | cell => exact h.onTable fun t => closeCell_isMarkup
  | row => exact h.onTable fun t => closeRow_isMarkup
  | table => exact h.closeTable
  | footnote => exact h.closeFootnote
  | _ => exact h

theorem captureText {s' : State} {raw : Text} (h : s.IsMarkup V)
    (hr : captureText raw s = .ok s') : s'.IsMarkup V := by
  unfold Word.captureText at hr
  split at hr
  · split at hr
    next content _ =>
      cases hr
      split
      · exact h.fieldInstruction content
      · exact h.pushText (.text (escapeText_isText content))
    · cases hr
  · cases hr
    exact h

/-- One event keeps every text complete. -/
theorem step {s' : State} {event : Xml.Event} (hσ : V.Admits σ) (h : s.IsMarkup V)
    (hr : step σ s event = .ok s') : s'.IsMarkup V := by
  cases steps_of_step hr with
  | opens _ _ => exact h.openElement hσ _
  | empties _ => exact (h.openElement hσ _).closeElement hσ _
  | closes _ => exact h.closeElement hσ _
  | captures _ hread => exact h.captureText hread
  | skips _ _ | deepens _ | returns _ => exact { h with }
  | passesEmpty _ | passesText _ => exact h

theorem readEvents {s' : State} {events : List Xml.Event} (hσ : V.Admits σ) (h : s.IsMarkup V)
    (hr : readEvents σ s events = .ok s') : s'.IsMarkup V := by
  induction events generalizing s with
  | nil =>
    cases hr
    exact h
  | cons event events ih =>
    rw [readEvents_cons] at hr
    obtain ⟨t, ht, hr⟩ := exists_ok_of_bind hr
    exact ih (h.step hσ ht) hr

theorem readPart {part : Xml.Scan} {σ : Source} (hr : readPart σ part = .ok s) :
    s.IsMarkup σ.profile.vocabulary :=
  initial.readEvents (vocabulary_admits σ) (readPart_eq_ok.1 hr).1

end State.IsMarkup
end MarkdownExport.Word
