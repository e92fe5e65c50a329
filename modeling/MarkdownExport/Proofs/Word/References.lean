import MarkdownExport.Proofs.Text.Trimming
import MarkdownExport.Proofs.Word.Immaterial
import MarkdownExport.Proofs.Word.Neighbours
import MarkdownExport.Proofs.Word.Reading.Runs

/-! References to notes. A reference makes its whole run a superscript, and a run shares its marks
with its neighbours of the same format, so a reference is a superscript of its own exactly if it
stands alone in its run and no shown neighbour has the format of the run. -/
namespace MarkdownExport.Word
open Document (Piece lineHtml)

/-- A format but for the superscript. -/
def RunFormat.outer (f : RunFormat) : RunFormat := { f with superscript := false }

theorem RunFormat.wrap_superscript {f : RunFormat} (h : f.superscript = true) (content : Text) :
    f.wrap content = f.outer.wrap (enclose "sup" content) := by
  rw [wrap, h]
  rfl

theorem append_eq_middle_iff {before middle after : Text} :
    before ++ middle ++ after = middle ↔ before = [] ∧ after = [] := by
  constructor
  · intro h
    have hlength := congrArg List.length h
    simp only [List.length_append] at hlength
    constructor
    · apply List.length_eq_zero_iff.mp
      omega
    · apply List.length_eq_zero_iff.mp
      omega
  · rintro ⟨rfl, rfl⟩
    exact List.append_nil middle

/-! References in runs. -/

namespace Raw

def Part.isProperties : Part → Bool
  | properties _ _ => true
  | _ => false

/-- A run within so many deletions, and what stands before it and behind it on its line. -/
structure Place where
  before : List Piece
  run : Run
  depth : Nat
  after : List Piece

namespace Place

def format (place : Place) : RunFormat := place.run.format place.depth

def line (place : Place) : List Piece :=
  place.before ++ .run place.format place.run.html :: place.after

end Place

/-- An item within so many deletions, and what stands before it and behind it on its line. -/
structure Spot where
  before : List Piece
  item : Item
  depth : Nat
  after : List Piece

def Spot.between (before after : List Piece) (spot : Spot) : Spot :=
  { spot with before := before ++ spot.before, after := spot.after ++ after }

/-- An item stands on a line, in revisions, fields and controls or not. -/
inductive OnLine (σ : Source) : Nat → List Item → Spot → Prop
  | here (depth : Nat) (as : List Item) (item : Item) (bs : List Item) :
      OnLine σ depth (as ++ item :: bs)
        ⟨Item.piecesAll σ depth as, item, depth, Item.piecesAll σ depth bs⟩
  | group {depth : Nat} {items : List Item} {spot : Spot} (as : List Item) (g : Group)
      (bs : List Item) : OnLine σ depth items spot →
      OnLine σ depth (as ++ .group g items :: bs)
        (spot.between (Item.piecesAll σ depth as) (Item.piecesAll σ depth bs))
  | deleted {depth : Nat} {items : List Item} {spot : Spot} (as : List Item)
      (tag : Tagged .deleted) (bs : List Item) : OnLine σ (depth + 1) items spot →
      OnLine σ depth (as ++ .deleted tag items :: bs)
        (spot.between (Item.piecesAll σ depth as) (Item.piecesAll σ depth bs))

/-- A run without images stands there. A link is a line of its own. -/
inductive HasRun (σ : Source) : Nat → List Item → Place → Prop
  | run {depth : Nat} {items : List Item} {place : Place} :
      OnLine σ depth items ⟨place.before, .run place.run, place.depth, place.after⟩ →
      (∀ part ∈ place.run.parts, part.image? σ = none) → HasRun σ depth items place
  | link {depth depth' : Nat} {items inner : List Item} {before after : List Piece}
      {tag : Tagged .hyperlink} {place : Place} :
      OnLine σ depth items ⟨before, .link tag inner, depth', after⟩ →
      HasRun σ depth' inner place → HasRun σ depth items place

section
variable {σ : Source} {depth : Nat} {items : List Item} {place : Place}

theorem OnLine.piecesAll_eq {spot : Spot} (h : OnLine σ depth items spot) :
    Item.piecesAll σ depth items =
      spot.before ++ (spot.item.pieces σ spot.depth ++ spot.after) := by
  induction h with
  | here depth as item bs =>
    rw [Item.piecesAll_append]
    rfl
  | group as g bs _ ih =>
    rw [Item.piecesAll_append, Item.piecesAll, Item.pieces, ih]
    simp [Spot.between]
  | deleted as tag bs _ ih =>
    rw [Item.piecesAll_append, Item.piecesAll, Item.pieces, ih]
    simp [Spot.between]

theorem infix_linkMarkup (target : Option Text) (inner : Text) :
    inner <:+: linkMarkup target inner := by
  unfold linkMarkup
  split
  · split
    · exact List.infix_rfl
    · exact ⟨_, _, rfl⟩
  · exact List.infix_rfl

/-- The line of a run is written out in the line of the whole. -/
theorem HasRun.infix_lineHtml (h : HasRun σ depth items place) :
    lineHtml place.line <:+: lineHtml (Item.piecesAll σ depth items) := by
  induction h with
  | run hline hplain =>
    rw [hline.piecesAll_eq, Item.pieces, Run.pieces_of_plain hplain]
    exact List.infix_rfl
  | link hline _ ih =>
    rw [hline.piecesAll_eq, Item.pieces, List.singleton_append, lineHtml_append_markup]
    exact (ih.trans (infix_linkMarkup _ _)).trans ⟨_, _, rfl⟩

theorem HasRun.infix_html {p : Paragraph} (h : HasRun σ 0 p.items place) :
    lineHtml place.line <:+: p.html σ 0 :=
  h.infix_lineHtml

theorem superscript_foldl {ys : List Part} (hys : ∀ part ∈ ys, part.isProperties = false)
    {f : RunFormat} (hf : f.superscript = true) :
    (ys.foldl (fun f part => part.onFormat f) f).superscript = true := by
  induction ys generalizing f with
  | nil => exact hf
  | cons part ys ih =>
    rw [List.forall_mem_cons] at hys
    refine ih hys.2 ?_
    cases part with
    | properties => cases hys.1
    | reference r =>
      change (if r.id?.isSome then { f with superscript := true } else f).superscript = true
      split
      · rfl
      · exact hf
    | text | instruction | tab | lineBreak | noted | drawing | detail => exact hf

/-- Behind a reference only properties could take the superscript back. -/
theorem Run.superscript_format {r : Run} {xs ys : List Part} {ref : Reference} {id : Text}
    (hparts : r.parts = xs ++ .reference ref :: ys) (hid : ref.id? = some id)
    (hys : ∀ part ∈ ys, part.isProperties = false) (depth : Nat) :
    (r.format depth).superscript = true := by
  rw [Run.format, hparts, List.foldl_append, List.foldl_cons]
  refine superscript_foldl hys ?_
  change (if ref.id?.isSome then _ else _ : RunFormat).superscript = true
  rw [hid]
  rfl

/-- The text of the neighbours before a run that share its marks. -/
def Place.textBefore (place : Place) : Text :=
  (joinedBefore place.format place.before).flatMap Piece.html

/-- The text of the neighbours behind a run that share its marks. -/
def Place.textAfter (place : Place) : Text :=
  (joinedAfter place.format place.after).flatMap Piece.html

/-- The superscript of a reference holds the rest of its run too, and the neighbours of the run's
format. -/
theorem HasRun.infix_reference {p : Paragraph} (h : HasRun σ 0 p.items place) {xs ys : List Part}
    {ref : Reference} {id : Text} (hparts : place.run.parts = xs ++ .reference ref :: ys)
    (hid : ref.id? = some id) (hne : id ≠ []) (hys : ∀ part ∈ ys, part.isProperties = false) :
    place.format.outer.wrap (enclose "sup"
      ((place.textBefore ++ xs.flatMap Part.html) ++ escapeText id ++
        (ys.flatMap Part.html ++ place.textAfter))) <:+: p.html σ 0 := by
  have hhtml : place.run.html = xs.flatMap Part.html ++ escapeText id ++ ys.flatMap Part.html := by
    rw [Run.html, hparts, List.flatMap_append, List.flatMap_cons, Part.html, hid,
      List.append_assoc]
    rfl
  have hshown : place.run.html ≠ [] := by
    rw [hhtml]
    simp [escapeText_ne_nil hne]
  have hsuper : place.format.superscript = true := Run.superscript_format hparts hid hys _
  have hline := lineHtml_around place.format hshown place.before place.after
  rw [RunFormat.wrap_superscript hsuper, ← Place.textBefore, ← Place.textAfter, hhtml] at hline
  have hplace : place.line = place.before ++ .run place.format
      (xs.flatMap Part.html ++ escapeText id ++ ys.flatMap Part.html) :: place.after := by
    rw [Place.line, hhtml]
  have hassoc : place.textBefore ++
        (xs.flatMap Part.html ++ escapeText id ++ ys.flatMap Part.html) ++ place.textAfter =
      (place.textBefore ++ xs.flatMap Part.html) ++ escapeText id ++
        (ys.flatMap Part.html ++ place.textAfter) := by simp
  have hinfix := h.infix_html
  rw [hplace, hline, hassoc] at hinfix
  exact (List.infix_append _ _ _).trans hinfix

/-- Neighbours that share the marks have text. -/
theorem flatMap_html_eq_nil {g : List Piece} {f : RunFormat}
    (hg : ∀ q ∈ g, q.isShown = true ∧ q.isRunOf f = true) : g.flatMap Piece.html = [] ↔ g = [] := by
  cases g with
  | nil => simp
  | cons q g =>
    obtain ⟨hshown, hrun⟩ := hg q List.mem_cons_self
    obtain ⟨html, rfl⟩ := isRunOf_iff.mp hrun
    have hne : html ≠ [] := by simpa [Piece.isShown] using hshown
    simp [Piece.html, hne]

theorem Place.textBefore_eq_nil :
    place.textBefore = [] ↔
      ∀ q ∈ (place.before.filter Piece.isShown).getLast?, q.isRunOf place.format = false := by
  rw [textBefore, flatMap_html_eq_nil fun _ => of_mem_joinedBefore, joinedBefore,
    List.rtakeWhile_eq_nil_iff]
  constructor
  · intro h q hq
    obtain ⟨hne, rfl⟩ := List.mem_getLast?_eq_getLast hq
    exact Bool.eq_false_iff.mpr (h hne)
  · intro h hne
    exact Bool.eq_false_iff.mp (h _ (List.getLast?_eq_some_getLast hne))

theorem Place.textAfter_eq_nil :
    place.textAfter = [] ↔
      ∀ q ∈ (place.after.filter Piece.isShown).head?, q.isRunOf place.format = false := by
  rw [textAfter, flatMap_html_eq_nil fun _ => of_mem_joinedAfter, joinedAfter]
  cases place.after.filter Piece.isShown with
  | nil => simp
  | cons q rest => simp [List.takeWhile_cons]

end

/-! Documents. -/

/-- A paragraph that is not blank is a block. -/
def Paragraph.blocks (σ : Source) (p : Paragraph) : List Block :=
  if (p.html σ 0).allBlank then [] else [.text (p.kind σ) (p.html σ 0)]

theorem placeText_of_no_cell {s : State} (h : s.cell? = none) (kind : BlockKind) (html : Text) :
    s.placeText kind html =
      { s with blocks := s.blocks ++ if html.allBlank then [] else [.text kind html] } := by
  unfold State.placeText State.place
  rw [h]
  split
  · rw [List.append_nil]
  · rfl

theorem reads_paragraphs {σ : Source} {s : State} (hs : s.IsOutside) (hdepth : s.deletedDepth = 0)
    (hcell : s.cell? = none) (ps : List Paragraph) :
    Reads σ s (ps.flatMap Paragraph.events)
      { s.noteAll (ps.flatMap Paragraph.features) with
        blocks := s.blocks ++ ps.flatMap (Paragraph.blocks σ) } := by
  induction ps generalizing s with
  | nil =>
    have hsame : ({ s.noteAll [] with blocks := s.blocks ++ [] } : State) = s := by simp
    exact hsame.symm ▸ Reads.nil
  | cons p ps ih =>
    have hfirst := reads_paragraph (σ := σ) hs p
    have hnote : (s.noteAll p.features).cell? = none := hcell
    rw [hdepth, placeText_of_no_cell hnote] at hfirst
    have hrest := ih (s := { s.noteAll p.features with blocks := s.blocks ++ p.blocks σ })
      { hs with } hdepth hcell
    have hboth := hfirst.append hrest
    simpa [State.noteAll] using hboth

theorem mem_blocks_of_infix {σ : Source} {p : Paragraph} {content : Text}
    (h : enclose "sup" content <:+: p.html σ 0) :
    .text (p.kind σ) (p.html σ 0) ∈ p.blocks σ := by
  have hvisible : (p.html σ 0).allBlank = false :=
    Bool.eq_false_iff.mpr fun hblank => nomatch Text.allBlank_of_infix h hblank
  rw [Paragraph.blocks, hvisible, if_neg Bool.false_ne_true]
  exact List.mem_singleton_self _

/-- Paragraphs are read to their blocks. A reference in one of them is a superscript together with
the rest of its run and with the neighbours of the run's format, so it is one of its own exactly if
nothing else in its run shows and neither neighbour has the run's format. -/
theorem readPart_references {σ : Source} {es : List Xml.Event} (ps : List Paragraph)
    (h : Relation.EqvGen Immaterial es (ps.flatMap Paragraph.events)) :
    readPart σ ⟨es, none⟩ = .ok
      { blocks := ps.flatMap (Paragraph.blocks σ)
        seen := (ps.flatMap Paragraph.features).reverse } ∧
    ∀ p ∈ ps, ∀ place, HasRun σ 0 p.items place → ∀ xs ref ys id,
      place.run.parts = xs ++ .reference ref :: ys → ref.id? = some id → id ≠ [] →
      (∀ part ∈ ys, part.isProperties = false) →
        let before := place.textBefore ++ xs.flatMap Part.html
        let after := ys.flatMap Part.html ++ place.textAfter
        place.format.superscript = true ∧
        (place.format.outer.wrap (enclose "sup" (before ++ escapeText id ++ after))) <:+:
          p.html σ 0 ∧
        .text (p.kind σ) (p.html σ 0) ∈ ps.flatMap (Paragraph.blocks σ) ∧
        (before ++ escapeText id ++ after = escapeText id ↔
          (∀ part ∈ xs ++ ys, part.html = []) ∧
          (∀ q ∈ (place.before.filter Piece.isShown).getLast?, q.isRunOf place.format = false) ∧
          ∀ q ∈ (place.after.filter Piece.isShown).head?, q.isRunOf place.format = false) := by
  constructor
  · have hstart : State.IsOutside {} := ⟨⟨⟨rfl, rfl, rfl, rfl, rfl⟩, rfl⟩, rfl, rfl⟩
    have hread := reads_paragraphs (σ := σ) hstart rfl rfl ps
    rw [readPart_immaterial h, readPart_eq_ok]
    refine ⟨?_, rfl⟩
    simpa [State.noteAll, Reads] using hread
  · intro p hp place hplace xs ref ys id hparts hid hne hys before after
    have hinfix := hplace.infix_reference hparts hid hne hys
    have hsup := ((RunFormat.infix_wrap _ _).trans hinfix)
    have hblock := List.mem_flatMap.mpr ⟨p, hp, mem_blocks_of_infix hsup⟩
    refine ⟨Run.superscript_format hparts hid hys _, hinfix, hblock, ?_⟩
    rw [append_eq_middle_iff, List.append_eq_nil_iff, List.append_eq_nil_iff,
      place.textBefore_eq_nil, place.textAfter_eq_nil, List.flatMap_eq_nil_iff,
      List.flatMap_eq_nil_iff, List.forall_mem_append]
    constructor
    · rintro ⟨⟨hbefore, hxs⟩, hys, hafter⟩
      exact ⟨⟨hxs, hys⟩, hbefore, hafter⟩
    · rintro ⟨⟨hxs, hys⟩, hbefore, hafter⟩
      exact ⟨⟨hbefore, hxs⟩, hys, hafter⟩

/-- A reference in a run of its own behind a run of another format, in an insertion in the body of
a document. -/
theorem readPart_references_alone :
    let body : Xml.Tag := ⟨"w:body", []⟩
    let text : Run := ⟨⟨⟨"w:r", []⟩, by decide⟩,
      [.text ⟨⟨"w:t", []⟩, by decide⟩ [⟨"Claim", "Claim", rfl⟩]]⟩
    let ref : Reference := ⟨⟨"w:footnoteReference", [⟨"w:id", "2"⟩]⟩, by decide⟩
    let note : Run := ⟨⟨⟨"w:r", []⟩, by decide⟩, [.reference ref]⟩
    let p : Paragraph := ⟨⟨⟨"w:p", []⟩, by decide⟩, [],
      [.run text, .group ⟨⟨"w:ins", []⟩, by decide⟩ [.run note]]⟩
    let place : Place := ⟨[.run {} "Claim"], note, 0, []⟩
    Relation.EqvGen Immaterial ([] ++ .opened body :: (p.events ++ .closed body.name :: []))
        ([p].flatMap Paragraph.events) ∧
      HasRun {} 0 p.items place ∧ ref.id? = some ['2'] ∧
      enclose "sup" "2" <:+: p.html {} 0 ∧ p.html {} 0 = "Claim<sup>2</sup>" := by
  intro body text ref note p place
  have hsame : Relation.EqvGen Immaterial
      ([] ++ .opened body :: (p.events ++ .closed body.name :: []))
      ([p].flatMap Paragraph.events) :=
    .rel _ _ (.unknown [] body p.events [] (by decide) (by decide))
  have hnote : OnLine {} 0 [.run note] ⟨[], .run note, 0, []⟩ := .here 0 [] (.run note) []
  have hline : OnLine {} 0 p.items ⟨place.before, .run note, 0, []⟩ :=
    .group [.run text] ⟨⟨"w:ins", []⟩, by decide⟩ [] hnote
  have hplain : ∀ part ∈ note.parts, part.image? {} = none := fun _ hpart => by
    obtain rfl := List.mem_singleton.mp hpart
    rfl
  have hplace : HasRun {} 0 p.items place := .run hline hplain
  have hid : ref.id? = some ['2'] := by decide
  have hnone : ∀ part ∈ ([] : List Part), part.isProperties = false := fun _ hpart => nomatch hpart
  obtain ⟨-, href⟩ := readPart_references (σ := {}) [p] hsame
  obtain ⟨-, hinfix, -, -⟩ := href p (List.mem_singleton_self p) place hplace [] ref [] ['2'] rfl
    hid (by decide) hnone
  exact ⟨hsame, hplace, hid, hinfix, by decide⟩

/-- Text and a reference in one run, and a reference in the run behind it. -/
theorem readPart_references_shared :
    readPart {} (Xml.scan ("<w:p><w:r><w:t>a</w:t><w:footnoteReference w:id='2'/></w:r>" ++
      "<w:r><w:footnoteReference w:id='3'/></w:r></w:p>")) = .ok
        { blocks := [.text .paragraph "<sup>a23</sup>"], seen := [.footnoteRef, .footnoteRef] } :=
  eq_ok_of_toOption (by decide +kernel)

end Raw
end MarkdownExport.Word
