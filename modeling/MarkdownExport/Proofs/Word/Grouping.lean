import MarkdownExport.Proofs.Word.Document
import MarkdownExport.Word.Reader

/-! What the reader writes piece by piece is what a document groups at once: the runs of a line, the
paragraphs and tables of a cell, the items of a list. -/
namespace MarkdownExport.Word
open Document

theorem RunFormat.wrap_eq_marks (f : RunFormat) (t : Text) :
    f.wrap t = (marks f).foldr enclose t := by
  obtain ⟨bold, italic, strike, superscript⟩ := f
  cases bold <;> cases italic <;> cases strike <;> cases superscript <;> rfl

/-! Lines. -/

/-- Runs that can be one group. -/
structure Document.IsGroup (f : RunFormat) (g : List Piece) : Prop where
  nonempty : g ≠ []
  run : ∀ p ∈ g, ∃ html, p = .run f html ∧ html ≠ []

namespace Document.IsGroup
variable {f : RunFormat} {g : List Piece}

theorem singleton {html : Text} (h : html ≠ []) : IsGroup f [.run f html] where
  nonempty := by simp
  run p hp := ⟨html, List.mem_singleton.mp hp, h⟩

theorem concat (hg : IsGroup f g) {html : Text} (h : html ≠ []) :
    IsGroup f (g ++ [.run f html]) where
  nonempty := by simp
  run p hp := by
    rcases List.mem_append.mp hp with hp | hp
    · exact hg.run p hp
    · exact ⟨html, List.mem_singleton.mp hp, h⟩

theorem filter_isShown (hg : IsGroup f g) : g.filter Piece.isShown = g := by
  rw [List.filter_eq_self]
  intro p hp
  obtain ⟨html, rfl, h⟩ := hg.run p hp
  simp [Piece.isShown, h]

theorem splitBy_joins (hg : IsGroup f g) : g.splitBy Piece.joins = [g] := by
  refine List.splitBy_of_isChain hg.nonempty (List.Pairwise.isChain ?_)
  apply List.pairwise_of_forall_mem_list
  intro p hp q hq
  obtain ⟨s, rfl, -⟩ := hg.run p hp
  obtain ⟨t, rfl, -⟩ := hg.run q hq
  simp [Piece.joins]

theorem groupHtml_eq (hg : IsGroup f g) : groupHtml g = f.wrap (g.flatMap Piece.html) := by
  obtain ⟨p, ps, rfl⟩ := List.exists_cons_of_ne_nil hg.nonempty
  obtain ⟨html, rfl, -⟩ := hg.run p List.mem_cons_self
  rw [groupHtml, RunFormat.wrap_eq_marks]
  rfl

theorem lineHtml_eq (hg : IsGroup f g) : lineHtml g = f.wrap (g.flatMap Piece.html) := by
  rw [lineHtml, hg.filter_isShown, hg.splitBy_joins, List.flatMap_singleton, hg.groupHtml_eq]

/-- A group ends before a piece that cannot join it. -/
theorem lineHtml_append (hg : IsGroup f g) {p : Piece} (shown : p.isShown = true)
    (apart : ∀ html, Piece.joins (.run f html) p = false) (ps : List Piece) :
    lineHtml (g ++ p :: ps) = f.wrap (g.flatMap Piece.html) ++ lineHtml (p :: ps) := by
  have hlast : ∀ q ∈ g.getLast?, Piece.joins q p = false := by
    intro q hq
    obtain ⟨html, rfl, -⟩ := hg.run q (List.mem_of_getLast? hq)
    exact apart html
  simp only [lineHtml, List.filter_append, List.filter_cons_of_pos shown, hg.filter_isShown]
  rw [List.splitBy_append_cons _ hlast, hg.splitBy_joins, List.flatMap_append,
    List.flatMap_singleton, hg.groupHtml_eq]

end Document.IsGroup

namespace Document

@[simp] theorem lineHtml_nil : lineHtml [] = [] := rfl

theorem lineHtml_markup (html : Text) (ps : List Piece) :
    lineHtml (.markup html :: ps) = html ++ lineHtml ps := by
  have hsplit : (Piece.markup html :: ps.filter Piece.isShown).splitBy Piece.joins =
      [[.markup html]] ++ (ps.filter Piece.isShown).splitBy Piece.joins := by
    rw [← List.singleton_append, List.splitBy_append (by simp [Piece.joins])]
    rfl
  rw [lineHtml, List.filter_cons_of_pos rfl, hsplit]
  simp [lineHtml, groupHtml, Piece.html]

/-- Runs without text leave no trace. -/
theorem lineHtml_hidden (g : List Piece) (f : RunFormat) (ps : List Piece) :
    lineHtml (g ++ .run f [] :: ps) = lineHtml (g ++ ps) := by
  simp [lineHtml, Piece.isShown]

end Document

/-- One piece more on a line. -/
def Inline.push (i : Inline) : Piece → Inline
  | .run f html => i.pushRun f html
  | .markup html => i.pushMarkup html

/-- The pieces that a line holds back. -/
inductive Inline.Holds : Inline → List Piece → Prop
  | nothing (done : Text) : Inline.Holds ⟨done, none⟩ []
  | group (done : Text) {f : RunFormat} {g : List Piece} (hg : IsGroup f g) :
    Inline.Holds ⟨done, some (f, g.flatMap Piece.html)⟩ g

namespace Inline
variable {i : Inline} {g : List Piece}

theorem Holds.finish_eq (h : i.Holds g) : i.finish = i.done ++ lineHtml g := by
  cases h with
  | nothing done => simp [finish]
  | group done hg => simp [finish, hg.lineHtml_eq]

/-- A piece more, and what it leads to with any pieces after it. -/
theorem Holds.push (h : i.Holds g) (p : Piece) :
    ∃ g', (i.push p).Holds g' ∧ ∀ ps,
      i.done ++ lineHtml (g ++ p :: ps) = (i.push p).done ++ lineHtml (g' ++ ps) := by
  cases p with
  | run f html =>
    by_cases hempty : html = []
    · subst hempty
      refine ⟨g, ?_, fun ps => ?_⟩
      · simpa [Inline.push, pushRun] using h
      · simp [Inline.push, pushRun, lineHtml_hidden]
    · have hempty' : html.isEmpty = false := by simpa using hempty
      have hsingle : IsGroup f [.run f html] := .singleton hempty
      cases h with
      | nothing done =>
        refine ⟨[.run f html], ?_, fun ps => ?_⟩
        · simpa [Inline.push, pushRun, hempty', Piece.html] using Holds.group done hsingle
        · simp [Inline.push, pushRun, hempty']
      | @group done f' _ hg =>
        by_cases hf : f' = f
        · subst hf
          refine ⟨g ++ [.run f' html], ?_, fun ps => ?_⟩
          · simpa [Inline.push, pushRun, hempty', Piece.html] using
              Holds.group done (hg.concat hempty)
          · simp [Inline.push, pushRun, hempty']
        · refine ⟨[.run f html], ?_, fun ps => ?_⟩
          · simpa [Inline.push, pushRun, hempty', hf, finish, Piece.html] using
              Holds.group (done ++ f'.wrap (g.flatMap Piece.html)) hsingle
          · rw [hg.lineHtml_append (by simp [Piece.isShown, hempty])
              (fun html => by simp [Piece.joins, hf])]
            simp [Inline.push, pushRun, hempty', hf, finish]
  | markup html =>
    refine ⟨[], Holds.nothing _, fun ps => ?_⟩
    have hmarkup := lineHtml_markup html ps
    cases h with
    | nothing done => simp [Inline.push, pushMarkup, finish, hmarkup]
    | group done hg =>
      rw [hg.lineHtml_append rfl (fun html => rfl), hmarkup]
      simp [Inline.push, pushMarkup, finish]

theorem Holds.finish_foldl_push (h : i.Holds g) (ps : List Piece) :
    (ps.foldl Inline.push i).finish = i.done ++ lineHtml (g ++ ps) := by
  induction ps generalizing i g with
  | nil => simpa using h.finish_eq
  | cons p ps ih =>
    obtain ⟨g', hg', hline⟩ := h.push p
    rw [List.foldl_cons, ih hg', hline ps]

/-- Pieces written one after the other make the line of all of them. -/
theorem finish_foldl_push (ps : List Piece) :
    (ps.foldl Inline.push {}).finish = lineHtml ps :=
  (Holds.nothing []).finish_foldl_push ps

end Inline

/-! Cells. -/

/-- Blocks that leave something to see. -/
def Document.IsShown : Word.Block → Prop
  | .text _ html => html.allBlank = false
  | .table html => html ≠ []

theorem Document.IsShown.html_ne_nil {b : Word.Block} (h : IsShown b) : b.html ≠ [] := by
  cases b with
  | text kind html =>
    rintro rfl
    simp [IsShown, Text.allBlank] at h
  | table html => exact h

/-- The content of a cell with one more block. -/
def extendCell (cell : Text) : Word.Block → Text
  | .text _ html => appendToCell cell html
  | .table html => cell ++ html

theorem extendCell_nil {b : Word.Block} (h : IsShown b) : extendCell [] b = b.html := by
  cases b with
  | text kind html => simp [extendCell, appendToCell, show html.allBlank = false from h, Block.html]
  | table html => rfl

theorem extendCell_of_ne_nil {cell : Text} (hc : cell ≠ []) {b : Word.Block} (h : IsShown b) :
    extendCell cell b = cell ++ spaced b := by
  cases b with
  | text kind html =>
    simp [extendCell, appendToCell, show html.allBlank = false from h, hc, spaced]
  | table html => rfl

theorem foldl_extendCell_of_ne_nil {cell : Text} (hc : cell ≠ []) {bs : List Word.Block}
    (h : ∀ b ∈ bs, IsShown b) : bs.foldl extendCell cell = cell ++ bs.flatMap spaced := by
  induction bs generalizing cell with
  | nil => simp
  | cons b bs ih =>
    have hb := extendCell_of_ne_nil hc (h b List.mem_cons_self)
    have hne : cell ++ spaced b ≠ [] := by simp [hc]
    rw [List.foldl_cons, hb, ih hne fun c hcs => h c (List.mem_cons_of_mem b hcs)]
    simp

theorem foldl_extendCell {bs : List Word.Block} (h : ∀ b ∈ bs, IsShown b) :
    bs.foldl extendCell [] = cellHtml bs := by
  cases bs with
  | nil => rfl
  | cons b bs =>
    have hb := h b List.mem_cons_self
    rw [List.foldl_cons, extendCell_nil hb, cellHtml,
      foldl_extendCell_of_ne_nil hb.html_ne_nil fun c hc => h c (List.mem_cons_of_mem b hc)]

theorem Document.Paragraph.rendition_isShown {rels : Relationships} {numbering : Numbering}
    {p : Paragraph} {b : Word.Block} (hb : b ∈ p.rendition rels numbering) : IsShown b := by
  unfold rendition at hb
  split at hb
  · cases hb
  · rename_i h
    obtain rfl := List.mem_singleton.mp hb
    simpa [IsShown] using h

theorem Document.rendition_isShown {rels : Relationships} {numbering : Numbering}
    {blocks : List Document.Block} : ∀ b ∈ rendition rels numbering blocks, IsShown b := by
  induction blocks with
  | nil => simp [rendition]
  | cons block blocks ih =>
    intro b hb
    rcases List.mem_append.mp (by simpa only [rendition] using hb) with hb | hb
    · cases block with
      | paragraph p =>
        rw [Block.rendition] at hb
        exact Paragraph.rendition_isShown hb
      | table rows =>
        rw [Block.rendition] at hb
        obtain rfl := List.mem_singleton.mp hb
        simp [IsShown, enclose, openTag]
    · exact ih b hb

/-! Lists. -/

/-- Items that can be one list. -/
structure Document.IsList (ordered : Bool) (g : List Word.Block) : Prop where
  nonempty : g ≠ []
  item : ∀ b ∈ g, b.list? = some ordered

namespace Document.IsList
variable {ordered : Bool} {g : List Word.Block}

theorem singleton {b : Word.Block} (h : b.list? = some ordered) : IsList ordered [b] where
  nonempty := by simp
  item c hc := List.mem_singleton.mp hc ▸ h

theorem concat (hg : IsList ordered g) {b : Word.Block} (h : b.list? = some ordered) :
    IsList ordered (g ++ [b]) where
  nonempty := by simp
  item c hc := by
    rcases List.mem_append.mp hc with hc | hc
    · exact hg.item c hc
    · exact List.mem_singleton.mp hc ▸ h

theorem splitBy_sameList (hg : IsList ordered g) : g.splitBy sameList = [g] := by
  refine List.splitBy_of_isChain hg.nonempty (List.Pairwise.isChain ?_)
  apply List.pairwise_of_forall_mem_list
  intro b hb c hc
  simp [sameList, hg.item b hb, hg.item c hc]

theorem listHtml_eq (hg : IsList ordered g) :
    listHtml g =
      openTag (listTag ordered) ++ g.flatMap Block.render ++ closeTag (listTag ordered) := by
  have hitems : g.flatMap Block.render = g.flatMap fun b => enclose "li" b.html := by
    apply List.flatMap_congr
    intro b hb
    have hb := hg.item b hb
    cases b with
    | text kind html =>
      cases kind with
      | listItem o => rfl
      | paragraph => cases hb
      | heading level => cases hb
    | table html => cases hb
  obtain ⟨b, bs, rfl⟩ := List.exists_cons_of_ne_nil hg.nonempty
  have hb := hg.item b List.mem_cons_self
  rw [hitems]
  cases b with
  | text kind html =>
    cases kind with
    | listItem o =>
      obtain rfl : o = ordered := Option.some.inj hb
      cases o <;> rfl
    | paragraph => cases hb
    | heading level => cases hb
  | table html => cases hb

theorem html_eq (hg : IsList ordered g) : Document.html g = listHtml g := by
  rw [Document.html, hg.splitBy_sameList, List.flatMap_singleton]

theorem html_append (hg : IsList ordered g) {b : Word.Block} (h : b.list? ≠ some ordered)
    (bs : List Word.Block) :
    Document.html (g ++ b :: bs) = listHtml g ++ Document.html (b :: bs) := by
  have hlast : ∀ c ∈ g.getLast?, sameList c b = false := by
    intro c hc
    simpa [sameList, hg.item c (List.mem_of_getLast? hc)] using Ne.symm h
  rw [Document.html, List.splitBy_append_cons _ hlast, hg.splitBy_sameList]
  simp [Document.html]

end Document.IsList

theorem Document.html_cons_of_list?_eq_none {b : Word.Block} (h : b.list? = none)
    (bs : List Word.Block) : Document.html (b :: bs) = b.render ++ Document.html bs := by
  have hsplit : (b :: bs).splitBy sameList = [[b]] ++ bs.splitBy sameList := by
    rw [← List.singleton_append, List.splitBy_append (by simp [sameList, h])]
    rfl
  have hlist : listHtml [b] = b.render := by
    cases b with
    | text kind html =>
      cases kind with
      | listItem ordered => cases h
      | paragraph => rfl
      | heading level => simp [listHtml, Block.render, enclose, openTag, closeTag]
    | table html => rfl
  rw [Document.html, hsplit, List.flatMap_append, List.flatMap_singleton, hlist, Document.html]

/-- Writing on after some blocks, outside a list or inside the list of the items `g`. -/
theorem renderBlocksFrom_eq (bs : List Word.Block) :
    renderBlocksFrom none bs = Document.html bs ∧
      ∀ ordered g, IsList ordered g →
        openTag (listTag ordered) ++ g.flatMap Block.render ++ renderBlocksFrom (some ordered) bs =
          Document.html (g ++ bs) := by
  induction bs with
  | nil =>
    refine ⟨rfl, fun ordered g hg => ?_⟩
    simp [hg.html_eq, hg.listHtml_eq, renderBlocksFrom, listChange]
  | cons b bs ih =>
    obtain ⟨ihNone, ihList⟩ := ih
    have hnone : renderBlocksFrom none (b :: bs) = Document.html (b :: bs) := by
      cases hb : b.list? with
      | none =>
        rw [html_cons_of_list?_eq_none hb, ← ihNone]
        simp [renderBlocksFrom, hb, listChange]
      | some ordered =>
        rw [← List.singleton_append, ← ihList ordered [b] (.singleton hb)]
        simp [renderBlocksFrom, hb, listChange]
    refine ⟨hnone, fun ordered g hg => ?_⟩
    by_cases hb : b.list? = some ordered
    · rw [List.append_cons, ← ihList ordered _ (hg.concat hb)]
      simp [renderBlocksFrom, hb, listChange]
    · rw [hg.html_append hb, ← hnone, hg.listHtml_eq]
      simp [renderBlocksFrom, listChange, Ne.symm hb]
      cases b.list? <;> simp

theorem renderBlocks_eq (bs : List Word.Block) : renderBlocks bs = Document.html bs :=
  (renderBlocksFrom_eq bs).1

end MarkdownExport.Word
