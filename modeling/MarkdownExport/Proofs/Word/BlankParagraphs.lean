import MarkdownExport.Proofs.Text.Trimming
import MarkdownExport.Proofs.Word.Immaterial
import MarkdownExport.Proofs.Word.Neighbours
import MarkdownExport.Proofs.Word.Reading.Runs
import MarkdownExport.Proofs.Word.Siblings

/-! Blank paragraphs. Whether a paragraph is blank is told from its HTML, marks included, so one of
blank texts leaves nothing exactly if no shown run of it has marks. -/
namespace MarkdownExport.Word
open Document (Piece lineHtml IsGroup)
open Xml (Balanced nest)

/-! Blank lines. -/

/-- Runs without anything visible, but for their marks. -/
def Document.Piece.isBlank : Piece → Bool
  | run _ html => html.allBlank
  | markup _ => false

theorem RunFormat.allBlank_wrap {f : RunFormat} {content : Text}
    (h : (f.wrap content).allBlank = true) : f = {} := by
  obtain ⟨bold, italic, strike, superscript⟩ := f
  cases bold with
  | true => cases h
  | false =>
    cases italic with
    | true => cases h
    | false =>
      cases strike with
      | true => cases h
      | false =>
        cases superscript with
        | true => cases h
        | false => rfl

/-- A line of blank runs is blank exactly if it has no marks. -/
theorem allBlank_lineHtml {ps : List Piece} (hps : ∀ q ∈ ps, q.isBlank = true) :
    (lineHtml ps).allBlank = true ↔ ∀ q ∈ ps, q.isShown = true → q.isRunOf {} = true := by
  constructor
  · intro hline q hq hshown
    obtain ⟨before, after, rfl⟩ := List.append_of_mem hq
    cases q with
    | markup html => cases hps _ hq
    | run f html =>
      have hne : html ≠ [] := by simpa [Piece.isShown] using hshown
      rw [lineHtml_around f hne] at hline
      have hwrap := Text.allBlank_of_infix (List.infix_append _ _ _) hline
      exact beq_iff_eq.mpr (RunFormat.allBlank_wrap hwrap)
  · intro hplain
    rw [← lineHtml_filter]
    by_cases hnone : ps.filter Piece.isShown = []
    · rw [hnone]
      rfl
    · have hgroup : IsGroup {} (ps.filter Piece.isShown) := by
        refine ⟨hnone, fun q hq => ?_⟩
        obtain ⟨hq, hshown⟩ := List.mem_filter.mp hq
        obtain ⟨html, rfl⟩ := isRunOf_iff.mp (hplain q hq hshown)
        exact ⟨html, rfl, by simpa [Piece.isShown] using hshown⟩
      rw [hgroup.lineHtml_eq]
      refine Text.allBlank_flatMap.mpr fun q hq => ?_
      have hblank := hps q (List.mem_of_mem_filter hq)
      cases q with
      | run f html => exact hblank
      | markup html => cases hblank

/-! Blank paragraphs and their lines. -/

namespace Raw

/-- Nothing that a blank part writes can be seen. -/
def Part.isBlank : Part → Bool
  | text _ pieces => pieces.all fun w => w.text.allBlank
  | properties _ _ | instruction _ _ | tab _ | noted _ => true
  | lineBreak _ | reference _ | drawing _ _ | detail _ => false

def Run.isBlank (r : Run) : Bool := r.parts.all Part.isBlank

mutual

def Item.isBlank : Item → Bool
  | run r => r.isBlank
  | properties _ _ => true
  | noted _ => true
  | group _ items => areBlank items
  | deleted _ items => areBlank items
  | text _ _ => false
  | link _ _ => false

def Item.areBlank : List Item → Bool
  | [] => true
  | item :: items => item.isBlank && areBlank items

end

/-- Whether a paragraph is of runs whose texts are blank, without links, breaks, references,
pictures and formulas. -/
def Paragraph.isBlank (p : Paragraph) : Bool := Item.areBlank p.items

theorem Part.image?_of_isBlank {part : Part} (h : part.isBlank = true) (σ : Source) :
    part.image? σ = none := by
  cases part with
  | drawing => cases h
  | _ => rfl

theorem Part.allBlank_html {part : Part} (h : part.isBlank = true) :
    part.html.allBlank = true := by
  cases part with
  | text tag pieces =>
    refine Text.allBlank_flatMap.mpr fun w hw => ?_
    rw [allBlank_escapeText]
    exact List.all_eq_true.mp h w hw
  | lineBreak | reference | drawing | detail => cases h
  | properties | instruction | tab | noted => rfl

theorem Run.isBlank_of_mem_pieces {σ : Source} {depth : Nat} {r : Run} (h : r.isBlank = true)
    {q : Piece} (hq : q ∈ r.pieces σ depth) : q.isBlank = true := by
  have hparts := List.all_eq_true.mp h
  rw [Run.pieces_of_plain fun part hpart => part.image?_of_isBlank (hparts part hpart) σ] at hq
  obtain rfl := List.mem_singleton.mp hq
  exact Text.allBlank_flatMap.mpr fun part hpart => part.allBlank_html (hparts part hpart)

mutual

theorem Item.isBlank_of_mem_pieces {σ : Source} : (item : Item) → ∀ {depth : Nat} {q : Piece},
    item.isBlank = true → q ∈ item.pieces σ depth → q.isBlank = true
  | .run r, _, _, h, hq => r.isBlank_of_mem_pieces h hq
  | .properties _ _, _, _, _, hq => nomatch hq
  | .noted _, _, _, _, hq => nomatch hq
  | .group _ items, _, _, h, hq => isBlank_of_mem_piecesAll items h hq
  | .deleted _ items, _, _, h, hq => isBlank_of_mem_piecesAll items h hq

theorem Item.isBlank_of_mem_piecesAll {σ : Source} : (items : List Item) →
    ∀ {depth : Nat} {q : Piece}, areBlank items = true → q ∈ piecesAll σ depth items →
      q.isBlank = true
  | [], _, _, _, hq => nomatch hq
  | item :: items, _, _, h, hq => by
    obtain ⟨hitem, hitems⟩ := (Bool.and_eq_true_iff ..).mp h
    rcases List.mem_append.mp hq with hq | hq
    · exact isBlank_of_mem_pieces item hitem hq
    · exact isBlank_of_mem_piecesAll items hitems hq

end

/-! Paragraphs are whole elements. -/

theorem balanced_around {e : Element} (t : Tagged e) {inside : List Xml.Event}
    (h : Balanced inside) : Balanced (t.around inside) := h.element t.tag

theorem balanced_properties (tag : Tagged .runProperties) (items : List Property) :
    Balanced (propertyEvents tag items) := by
  refine balanced_around tag ?_
  rw [← List.flatMap_singleton' (items.map _), List.flatMap_map]
  exact Balanced.flatMap fun _ _ => rfl

theorem balanced_text {e : Element} (tag : Tagged e) (pieces : List Written) :
    Balanced (textEvents tag pieces) := by
  refine balanced_around tag ?_
  rw [← List.flatMap_singleton' (pieces.map _), List.flatMap_map]
  exact Balanced.flatMap fun _ _ => rfl

theorem Run.balanced_events {r : Run} (h : r.isBlank = true) : Balanced r.events := by
  refine balanced_around r.tag (Balanced.flatMap fun part hpart => ?_)
  have hblank := List.all_eq_true.mp h part hpart
  cases part with
  | properties tag items => exact balanced_properties tag items
  | text tag pieces | instruction tag pieces => exact balanced_text tag pieces
  | tab | lineBreak | reference | noted => rfl
  | drawing | detail => cases hblank

mutual

theorem Item.balanced_events : (item : Item) → item.isBlank = true → Balanced item.events
  | .run _, h => Run.balanced_events h
  | .properties tag items, _ => balanced_properties tag items
  | .noted _, _ => rfl
  | .group g items, h => (balanced_eventsAll items h).element g.tag
  | .deleted tag items, h => balanced_around tag (balanced_eventsAll items h)

theorem Item.balanced_eventsAll : (items : List Item) → areBlank items = true →
    Balanced (eventsAll items)
  | [], _ => rfl
  | item :: items, h => by
    obtain ⟨hitem, hitems⟩ := (Bool.and_eq_true_iff ..).mp h
    exact (balanced_events item hitem).append (balanced_eventsAll items hitems)

end

theorem Paragraph.balanced_events {p : Paragraph} (h : p.isBlank = true) : Balanced p.events := by
  have hsettings : Balanced (p.settings.flatMap Setting.events) := by
    refine Balanced.flatMap fun setting _ => ?_
    cases setting with
    | mark tag items => exact balanced_properties tag items
    | style | numbering | tab => rfl
  exact balanced_around p.tag (hsettings.append (Item.balanced_eventsAll p.items h))

end Raw

/-! Where paragraphs stand. -/

/-- The elements of a line. No paragraph stands in them but in text boxes, which are skipped. -/
def Element.isOfLine : Element → Bool
  | paragraph | hyperlink | run | runProperties | text | instruction | drawing => true
  | _ => false

section Place
variable {σ : Source} {before : List Xml.Event} {stack : List Text} {s : State}

theorem skipDepth_ne_zero_of_nest (hnest : nest [] before = some stack)
    (hread : readEvents σ {} before = .ok s) (hskipped : .skipped ∈ stack.map Element.ofName) :
    s.skipDepth ≠ 0 := by
  have hfits := fits_of_nest hnest hread
  intro hzero
  have hskip : s.outline.skipDepth = 0 := hzero
  have hplain := hfits.plain
  rw [Outline.visible, hskip, List.drop_zero] at hplain
  exact hplain hskipped

theorem isOutside_of_nest (hnest : nest [] before = some stack)
    (hread : readEvents σ {} before = .ok s) (hplain : .skipped ∉ stack.map Element.ofName)
    (hline : ∀ e ∈ stack.map Element.ofName, e.isOfLine = false) :
    s.IsOutside ∧ s.deletedDepth = (stack.map Element.ofName).count .deleted := by
  have hfits := fits_of_nest hnest hread
  have hskip : s.skipDepth = 0 := hfits.skipDepth_eq_zero fun name hname hskipped =>
    hplain (hskipped ▸ List.mem_map_of_mem hname)
  have hcovers := hfits.covers
  have hzero : s.outline.skipDepth = 0 := hskip
  rw [Outline.visible, hzero, List.drop_zero] at hcovers
  have habsent (k : Element) (hk : k.isOfLine = true) : k ∉ stack.map Element.ofName :=
    fun hmem => absurd hk (by rw [hline k hmem]; decide)
  have hclosed (k : Element) (hk : k.isOfLine = true) : s.outline.holds k = false :=
    Bool.eq_false_iff.mpr fun hopen => habsent k hk (hcovers.holds k hopen)
  have hlinks : s.links.length = 0 :=
    (hcovers.depth .hyperlink).trans (List.count_eq_zero.mpr (habsent _ rfl))
  exact ⟨{
    run := Option.not_isSome_iff_eq_none.mp (Bool.eq_false_iff.mp (hclosed .run rfl))
    inRunProperties := hclosed .runProperties rfl
    capturesText := hclosed .text rfl
    capturesInstruction := hclosed .instruction rfl
    skipDepth := hskip
    drawing := Option.not_isSome_iff_eq_none.mp (Bool.eq_false_iff.mp (hclosed .drawing rfl))
    paragraph := Option.not_isSome_iff_eq_none.mp (Bool.eq_false_iff.mp (hclosed .paragraph rfl))
    links := List.length_eq_zero_iff.mp hlinks }, hcovers.depth .deleted⟩

end Place

/-! What is left of a paragraph. -/

namespace State

/-- Notes features between those that were seen, behind the first `n`. -/
def noteAfter (n : Nat) (fs : List Feature) (s : State) : State :=
  { s with seen := (s.seen.reverse.take n ++ fs ++ s.seen.reverse.drop n).reverse }

@[simp] theorem noteAfter_nil (n : Nat) (s : State) : s.noteAfter n [] = s := by
  simp [noteAfter]

theorem place_ne_self (s : State) {kind : BlockKind} {html : Text} (h : html.allBlank = false) :
    s.place (.text kind html) ≠ s := by
  intro hsame
  cases hcell : s.cell? with
  | none =>
    rw [place, hcell] at hsame
    have hblocks := congrArg (fun s : State => s.blocks.length) hsame
    simp [addBlock] at hblocks
  | some cell =>
    obtain ⟨t, ts, htables, hopen⟩ : ∃ t ts, s.tables = t :: ts ∧ t.cell = some cell := by
      obtain ⟨t, ht, hopen⟩ := Option.bind_eq_some_iff.mp hcell
      obtain ⟨ts, hts⟩ := List.head?_eq_some_iff.mp ht
      exact ⟨t, ts, hts, hopen⟩
    rw [place, hcell] at hsame
    have hcells := congrArg (fun s : State => s.cell?) hsame
    simp only [setCell, onTable, htables, cell?, List.head?_cons, Option.bind_some, hopen,
      Option.some.injEq, extendCell, appendToCell, h, Bool.false_eq_true, if_false] at hcells
    have hne : html ≠ [] := by
      rintro rfl
      cases h
    split at hcells
    · simp_all
    · simp at hcells

theorem placeText_eq_self_iff (s : State) (kind : BlockKind) (html : Text) :
    s.placeText kind html = s ↔ html.allBlank = true := by
  rw [placeText]
  cases h : html.allBlank with
  | true => simp
  | false => simpa using s.place_ne_self h

end State

section Reading
variable {σ : Source}

/-- What is noted before other events does not change how they are read. -/
theorem readEvents_noteAll (fs : List Feature) (s : State) (events : List Xml.Event) :
    readEvents σ (s.noteAll fs) events =
      (readEvents σ s events).map (State.noteAfter s.seen.length fs) := by
  have hafter (seen : List Feature) :
      { s with seen := seen } = State.after ⟨[], [], seen⟩ { s with seen := [] } := by
    simp [State.after, State.framed]
  have hnoted : s.noteAll fs = State.after ⟨[], [], fs.reverse ++ s.seen⟩ { s with seen := [] } :=
    hafter _
  have hplain : s = State.after ⟨[], [], s.seen⟩ { s with seen := [] } := hafter _
  rw [hnoted, readEvents_after]
  conv => rhs; arg 2; rw [hplain, readEvents_after]
  cases readEvents σ { s with seen := [] } events with
  | error e => rfl
  | ok t =>
    have htake : (s.seen.reverse ++ t.seen.reverse).take s.seen.length = s.seen.reverse :=
      List.take_left' List.length_reverse
    have hdrop : (s.seen.reverse ++ t.seen.reverse).drop s.seen.length = t.seen.reverse :=
      List.drop_left' List.length_reverse
    simp [Except.map, State.noteAfter, State.after, State.framed, htake, hdrop]

theorem readPart_map {es fs : List Xml.Event} {change : State → State}
    (h : readEvents σ {} es = (readEvents σ {} fs).map change) (failure : Option Xml.Error) :
    readPart σ ⟨es, failure⟩ = (readPart σ ⟨fs, failure⟩).map change := by
  simp only [readPart, h]
  cases readEvents σ {} fs with
  | error e => rfl
  | ok t => cases failure <;> rfl

end Reading

namespace Raw
open State (noteAfter noteAfter_nil placeText placeText_eq_self_iff)

section
variable {σ : Source} {before : List Xml.Event} {stack : List Text} {p : Paragraph}

theorem Paragraph.readEvents_of_skipped (hp : p.isBlank = true)
    (hnest : nest [] before = some stack)
    (hskipped : .skipped ∈ stack.map Element.ofName) (after : List Xml.Event) :
    readEvents σ {} (before ++ (p.events ++ after)) = readEvents σ {} (before ++ after) := by
  cases hread : readEvents σ {} before with
  | error e =>
    rw [readEvents_append, readEvents_append, hread]
    rfl
  | ok s =>
    have hskip := skipDepth_ne_zero_of_nest hnest hread hskipped
    have hnothing := readEvents_balanced_of_skipping (σ := σ) hskip (Paragraph.balanced_events hp)
    rw [readEvents_append_of_ok hread, readEvents_append_of_ok hread,
      readEvents_append_of_ok hnothing]

/-- Where no line is open, a paragraph is placed with what the deletions around it make of it. -/
theorem Paragraph.reads_at (hnest : nest [] before = some stack) {s : State}
    (hread : readEvents σ {} before = .ok s) (hplain : .skipped ∉ stack.map Element.ofName)
    (hline : ∀ e ∈ stack.map Element.ofName, e.isOfLine = false) :
    Reads σ s p.events ((s.noteAll p.features).placeText (p.kind σ)
      (p.html σ ((stack.map Element.ofName).count .deleted))) := by
  obtain ⟨houtside, hdepth⟩ := isOutside_of_nest hnest hread hplain hline
  rw [← hdepth]
  exact reads_paragraph houtside p

theorem Paragraph.readEvents_of_allBlank (hnest : nest [] before = some stack)
    (hplain : .skipped ∉ stack.map Element.ofName)
    (hline : ∀ e ∈ stack.map Element.ofName, e.isOfLine = false)
    (hblank : (p.html σ ((stack.map Element.ofName).count .deleted)).allBlank = true)
    (after : List Xml.Event) :
    ∃ n, readEvents σ {} (before ++ (p.events ++ after)) =
      (readEvents σ {} (before ++ after)).map (noteAfter n p.features) := by
  cases hread : readEvents σ {} before with
  | error e =>
    refine ⟨0, ?_⟩
    rw [readEvents_append, readEvents_append, hread]
    rfl
  | ok s =>
    have hparagraph := p.reads_at hnest hread hplain hline
    rw [placeText, hblank, if_pos rfl] at hparagraph
    refine ⟨s.seen.length, ?_⟩
    rw [readEvents_append_of_ok hread, readEvents_append_of_ok hread,
      readEvents_append_of_ok hparagraph, readEvents_noteAll]

/-- A paragraph of blank texts leaves nothing exactly if no shown run of it has marks. Else it is a
block or text of a cell like any other paragraph. -/
theorem readPart_blank {es after : List Xml.Event} (hp : p.isBlank = true)
    (h : Relation.EqvGen Immaterial es (before ++ (p.events ++ after)))
    (hnest : nest [] before = some stack) (failure : Option Xml.Error) :
    let around := stack.map Element.ofName
    let depth := around.count .deleted
    let without := readPart σ ⟨before ++ after, failure⟩
    (.skipped ∈ around → readPart σ ⟨es, failure⟩ = without) ∧
    (.skipped ∉ around → (∀ e ∈ around, e.isOfLine = false) →
      let plain := ∀ q ∈ p.pieces σ depth, q.isShown = true → q.isRunOf {} = true
      (plain → ∃ n, readPart σ ⟨es, failure⟩ = without.map (noteAfter n p.features)) ∧
      (plain → p.features = [] → readPart σ ⟨es, failure⟩ = without) ∧
      ∀ s, readEvents σ {} before = .ok s →
        (readEvents σ s p.events = .ok (s.noteAll p.features) ↔ plain) ∧
        (¬ plain → (p.html σ depth).allBlank = false ∧
          readEvents σ s p.events =
            .ok ((s.noteAll p.features).place (.text (p.kind σ) (p.html σ depth))))) := by
  intro around depth without
  rw [readPart_immaterial h]
  constructor
  · intro hskipped
    have hsame := Paragraph.readEvents_of_skipped (σ := σ) hp hnest hskipped after
    simp only [without, readPart, hsame]
  · intro hvisible hline plain
    have hblank : (p.html σ depth).allBlank = true ↔ plain :=
      allBlank_lineHtml fun _ hq => Item.isBlank_of_mem_piecesAll p.items hp hq
    have hnotes (hplain : plain) : ∃ n,
        readPart σ ⟨before ++ (p.events ++ after), failure⟩ =
          without.map (noteAfter n p.features) := by
      obtain ⟨n, hn⟩ := p.readEvents_of_allBlank hnest hvisible hline
        (hblank.mpr hplain) after
      exact ⟨n, readPart_map hn failure⟩
    refine ⟨hnotes, fun hplain hnone => ?_, fun s hread => ⟨?_, fun hmarks => ?_⟩⟩
    · obtain ⟨n, hn⟩ := hnotes hplain
      have hid : noteAfter n [] = id := funext (noteAfter_nil n)
      rw [hn, hnone, hid]
      cases without <;> rfl
    · have hparagraph := p.reads_at hnest hread hvisible hline
      rw [Reads] at hparagraph
      rw [hparagraph, ← hblank, Except.ok.injEq, placeText_eq_self_iff]
    · have hseen : (p.html σ depth).allBlank = false :=
        Bool.eq_false_iff.mpr fun hall => hmarks (hblank.mp hall)
      have hparagraph := p.reads_at hnest hread hvisible hline
      rw [placeText, hseen, if_neg Bool.false_ne_true] at hparagraph
      exact ⟨hseen, hparagraph⟩

end

/-- A numbered paragraph of no-break spaces in a cell, one of them inserted. -/
theorem readPart_blank_cell :
    let table : Xml.Tag := ⟨"w:tbl", []⟩
    let row : Xml.Tag := ⟨"w:tr", []⟩
    let cell : Xml.Tag := ⟨"w:tc", []⟩
    let text : Part := .text ⟨⟨"w:t", []⟩, by decide⟩ [⟨"\u00a0", "\u00a0", rfl⟩]
    let r : Run := ⟨⟨⟨"w:r", []⟩, by decide⟩, [text]⟩
    let p : Paragraph := ⟨⟨⟨"w:p", []⟩, by decide⟩, [.numbering ⟨⟨"w:numId", []⟩, by decide⟩],
      [.run r, .group ⟨⟨"w:ins", []⟩, by decide⟩ [.run r]]⟩
    let before : List Xml.Event := [.opened table, .opened row, .opened cell]
    let after : List Xml.Event := [.closed cell.name, .closed row.name, .closed table.name]
    p.isBlank = true ∧ nest [] before = some [cell.name, row.name, table.name] ∧
      ∃ n, readPart {} ⟨before ++ (p.events ++ after), none⟩ =
        (readPart {} ⟨before ++ after, none⟩).map (noteAfter n [.revision]) := by
  intro table row cell text r p before after
  have hp : p.isBlank = true := by decide
  have hnest : nest [] before = some [cell.name, row.name, table.name] := by decide
  have hsame : Relation.EqvGen Immaterial (before ++ (p.events ++ after))
      (before ++ (p.events ++ after)) := .refl _
  obtain ⟨-, houtside⟩ := readPart_blank (σ := {}) hp hsame hnest none
  obtain ⟨hplain, -⟩ := houtside (by decide) (by decide)
  exact ⟨hp, hnest, hplain (by decide)⟩

/-- A space in bold, at the top level and in a cell. -/
theorem readPart_blank_bold :
    let bold : Part := .properties ⟨⟨"w:rPr", []⟩, by decide⟩ [⟨⟨"w:b", []⟩, by decide⟩]
    let text : Part := .text ⟨⟨"w:t", []⟩, by decide⟩ [⟨" ", " ", rfl⟩]
    let p : Paragraph := ⟨⟨⟨"w:p", []⟩, by decide⟩, [],
      [.run ⟨⟨⟨"w:r", []⟩, by decide⟩, [bold, text]⟩]⟩
    let cell : Xml.Tag := ⟨"w:tc", []⟩
    let table : Xml.Tag := ⟨"w:tbl", []⟩
    p.isBlank = true ∧ p.features = [] ∧
      readPart {} ⟨p.events, none⟩ = .ok { blocks := [.text .paragraph "<strong> </strong>"] } ∧
      readEvents {} {} ([.opened table, .opened cell] ++ p.events) = .ok
        { tables := [{ cell := some "<strong> </strong>" }], seen := [.table] } :=
  ⟨by decide, by decide, eq_ok_of_toOption (by decide +kernel),
    eq_ok_of_toOption (by decide +kernel)⟩

end Raw
end MarkdownExport.Word
