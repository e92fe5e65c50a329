import MarkdownExport.Proofs.Word.Grouping

/-! Neighbours that are written as one. Runs of one format share their marks and items of one kind
share a list, and a sequence falls into such stretches in one way only. -/
namespace MarkdownExport.Word

/-! Stretches of elements with a key. -/

section Division
variable {α κ : Type} {key? : α → Option κ} {r : α → α → Bool}

/-- Elements of one key, or one element without a key. -/
inductive IsStretch (key? : α → Option κ) : List α → Prop
  | keyed {g : List α} (k : κ) (nonempty : g ≠ []) (shared : ∀ x ∈ g, key? x = some k) :
    IsStretch key? g
  | single {x : α} (h : key? x = none) : IsStretch key? [x]

/-- A sequence in stretches. Two stretches of one key are never next to each other. -/
structure IsDivision (key? : α → Option κ) (xs : List α) (parts : List (List α)) : Prop where
  flatten : parts.flatten = xs
  stretch : ∀ g ∈ parts, IsStretch key? g
  apart : parts.IsChain fun g h =>
    ∀ k, (∀ x ∈ g, key? x = some k) → ¬ ∀ y ∈ h, key? y = some k

namespace IsStretch
variable {g h : List α}

theorem ne_nil (hg : IsStretch key? g) : g ≠ [] := by
  cases hg with
  | keyed k nonempty shared => exact nonempty
  | single hx => exact List.cons_ne_nil _ _

/-- The key of one element is the key of all. -/
theorem shared_of_mem (hg : IsStretch key? g) {x : α} {k : κ} (hx : x ∈ g)
    (hk : key? x = some k) : ∀ y ∈ g, key? y = some k := by
  cases hg with
  | keyed k' nonempty shared =>
    have hsame : k' = k := Option.some.inj ((shared x hx).symm.trans hk)
    exact hsame ▸ shared
  | single hnone =>
    obtain rfl := List.mem_singleton.mp hx
    rw [hnone] at hk
    cases hk

variable (joins : ∀ x y, r x y = true ↔ ∃ k, key? x = some k ∧ key? y = some k)
include joins

theorem iff_isChain : IsStretch key? g ↔ g ≠ [] ∧ g.IsChain fun x y => r x y = true := by
  constructor
  · intro hg
    refine ⟨hg.ne_nil, ?_⟩
    cases hg with
    | keyed k nonempty shared =>
      apply List.Pairwise.isChain
      apply List.pairwise_of_forall_mem_list
      intro x hx y hy
      exact (joins x y).mpr ⟨k, shared x hx, shared y hy⟩
    | single hnone => exact List.isChain_singleton _
  · rintro ⟨hne, hchain⟩
    obtain ⟨x, xs, rfl⟩ := List.exists_cons_of_ne_nil hne
    cases hx : key? x with
    | none =>
      cases xs with
      | nil => exact .single hx
      | cons y ys =>
        obtain ⟨k, hk, -⟩ := (joins x y).mp (List.isChain_cons_cons.mp hchain).1
        rw [hx] at hk
        cases hk
    | some k =>
      refine .keyed k hne ?_
      clear hne
      induction xs generalizing x with
      | nil => simpa using hx
      | cons y ys ih =>
        obtain ⟨hxy, hrest⟩ := List.isChain_cons_cons.mp hchain
        obtain ⟨k', hk', hy⟩ := (joins x y).mp hxy
        obtain rfl : k = k' := Option.some.inj (hx.symm.trans hk')
        exact List.forall_mem_cons.mpr ⟨hx, ih y hrest hy⟩

/-- The last element of one stretch and the first of another join if the two have one key. -/
theorem apart_iff (hg : IsStretch key? g) (hh : IsStretch key? h) :
    (∃ ha hb, r (g.getLast ha) (h.head hb) = false) ↔
      ∀ k, (∀ x ∈ g, key? x = some k) → ¬ ∀ y ∈ h, key? y = some k := by
  constructor
  · rintro ⟨ha, hb, hfalse⟩ k hgk hhk
    have htrue := (joins (g.getLast ha) (h.head hb)).mpr
      ⟨k, hgk _ (List.getLast_mem ha), hhk _ (List.head_mem hb)⟩
    rw [hfalse] at htrue
    cases htrue
  · intro hapart
    refine ⟨hg.ne_nil, hh.ne_nil, Bool.eq_false_iff.mpr fun htrue => ?_⟩
    obtain ⟨k, hlast, hhead⟩ := (joins _ _).mp htrue
    exact hapart k (hg.shared_of_mem (List.getLast_mem _) hlast)
      (hh.shared_of_mem (List.head_mem _) hhead)

end IsStretch

/-- There is one division, which cuts wherever two neighbours do not join. -/
theorem isDivision_iff (joins : ∀ x y, r x y = true ↔ ∃ k, key? x = some k ∧ key? y = some k)
    {xs : List α} {parts : List (List α)} :
    IsDivision key? xs parts ↔ parts = xs.splitBy r := by
  rw [eq_comm, List.splitBy_eq_iff]
  have hstretch : (∀ g ∈ parts, IsStretch key? g) ↔
      [] ∉ parts ∧ ∀ g ∈ parts, g.IsChain fun x y => r x y = true := by
    simp only [IsStretch.iff_isChain joins]
    constructor
    · intro h
      exact ⟨fun hnil => (h [] hnil).1 rfl, fun g hg => (h g hg).2⟩
    · rintro ⟨hnil, h⟩ g hg
      exact ⟨fun hempty => hnil (hempty ▸ hg), h g hg⟩
  have hapart (h : ∀ g ∈ parts, IsStretch key? g) :
      (parts.IsChain fun g h => ∃ ha hb, r (g.getLast ha) (h.head hb) = false) ↔
        parts.IsChain fun g h =>
          ∀ k, (∀ x ∈ g, key? x = some k) → ¬ ∀ y ∈ h, key? y = some k :=
    List.IsChain.iff_of_mem_imp fun g h' hg hh => IsStretch.apart_iff joins (h g hg) (h h' hh)
  constructor
  · rintro ⟨hflatten, hs, ha⟩
    obtain ⟨hnil, hchain⟩ := hstretch.mp hs
    exact ⟨hflatten.symm, hnil, hchain, (hapart hs).mpr ha⟩
  · rintro ⟨hflatten, hnil, hchain, ha⟩
    have hs := hstretch.mpr ⟨hnil, hchain⟩
    exact ⟨hflatten.symm, hs, (hapart hs).mp ha⟩

/-- Every element is in a part, at its place. -/
theorem IsDivision.exists_part {xs : List α} {parts : List (List α)}
    (h : IsDivision key? xs parts) {before after : List α} {x : α}
    (hx : xs = before ++ x :: after) :
    ∃ left inner outer right, parts = left ++ (inner ++ x :: outer) :: right ∧
      before = left.flatten ++ inner ∧ after = outer ++ right.flatten := by
  have hflatten := h.flatten.trans hx
  rcases List.flatten_eq_append_iff.mp hflatten with
    ⟨left, rest, rfl, rfl, hrest⟩ | ⟨left, inner, y, outer, right, rfl, rfl, hrest⟩
  · obtain ⟨empties, outer, right, rfl, hempties, rfl⟩ := List.flatten_eq_cons_iff.mp hrest.symm
    have hnil : empties.flatten = [] := List.flatten_eq_nil_iff.mpr hempties
    refine ⟨left ++ empties, [], outer, right, by simp, ?_, rfl⟩
    rw [List.flatten_append, hnil, List.append_nil, List.append_nil]
  · obtain ⟨rfl, rfl⟩ := List.cons.inj hrest
    exact ⟨left, inner, outer, right, rfl, rfl, rfl⟩

end Division

/-! Lists of items. -/

theorem Document.sameList_iff (b c : Word.Block) :
    Document.sameList b c = true ↔ ∃ ordered, b.list? = some ordered ∧ c.list? = some ordered := by
  rw [Document.sameList, Bool.and_eq_true, Option.isSome_iff_exists, beq_iff_eq]
  constructor
  · rintro ⟨⟨ordered, hb⟩, hc⟩
    exact ⟨ordered, hb, hc ▸ hb⟩
  · rintro ⟨ordered, hb, hc⟩
    exact ⟨⟨ordered, hb⟩, hb.trans hc.symm⟩

/-- Blocks fall into stretches in one way: items of one kind next to each other, and other blocks
one by one. What is written for them is one list around each stretch of items, with its items in it,
and the other blocks between. Each item is in a stretch of its kind, at its place. -/
theorem renderBlocks_division (blocks : List Block) :
    ∃ parts : List (List Block),
      (∀ division, IsDivision Block.list? blocks division ↔ division = parts) ∧
      renderBlocks blocks = parts.flatMap Document.listHtml ∧
      ∀ before ordered html after, blocks = before ++ .text (.listItem ordered) html :: after →
        ∃ left inner outer right,
          parts = left ++ (inner ++ .text (.listItem ordered) html :: outer) :: right ∧
          before = left.flatten ++ inner ∧ after = outer ++ right.flatten ∧
          ∀ b ∈ inner ++ outer, b.list? = some ordered := by
  have hunique (division : List (List Block)) :
      IsDivision Block.list? blocks division ↔ division = blocks.splitBy Document.sameList :=
    isDivision_iff Document.sameList_iff
  refine ⟨blocks.splitBy Document.sameList, hunique, renderBlocks_eq blocks, ?_⟩
  intro before ordered html after hitem
  have hdivision := (hunique _).mpr rfl
  obtain ⟨left, inner, outer, right, hparts, hbefore, hafter⟩ := hdivision.exists_part hitem
  refine ⟨left, inner, outer, right, hparts, hbefore, hafter, ?_⟩
  have hstretch := hdivision.stretch (inner ++ .text (.listItem ordered) html :: outer)
    (by rw [hparts]; simp)
  intro b hb
  refine hstretch.shared_of_mem (x := .text (.listItem ordered) html) (by simp) rfl b ?_
  rcases List.mem_append.mp hb with hb | hb
  · exact List.mem_append_left _ hb
  · exact List.mem_append_right _ (List.mem_cons_of_mem _ hb)

/-- Items of both kinds among other blocks. The last item is of the kind of the one before the
table. -/
def mixedBlocks : List Block :=
  [.text .paragraph "a", .text (.heading 2) "b", .text (.listItem true) "c",
   .text (.listItem true) "d", .text (.listItem false) "e", .table "<table></table>",
   .text (.listItem false) "f", .text .paragraph "g"]

theorem renderBlocks_division_mixed :
    IsDivision Block.list? mixedBlocks
      [[.text .paragraph "a"], [.text (.heading 2) "b"],
       [.text (.listItem true) "c", .text (.listItem true) "d"], [.text (.listItem false) "e"],
       [.table "<table></table>"], [.text (.listItem false) "f"], [.text .paragraph "g"]] ∧
    renderBlocks mixedBlocks =
      "<p>a</p><h2>b</h2><ol><li>c</li><li>d</li></ol><ul><li>e</li></ul>" ++
        "<table></table><ul><li>f</li></ul><p>g</p>" := by
  obtain ⟨parts, hunique, hwritten, -⟩ := renderBlocks_division mixedBlocks
  have hdivision := (isDivision_iff Document.sameList_iff).mpr
    (show _ = mixedBlocks.splitBy Document.sameList from rfl)
  refine ⟨hdivision, ?_⟩
  rw [hwritten, ← (hunique _).mp hdivision]
  decide

/-! Runs of a line. -/

/-- The format of a run. Markup has none. -/
def Document.Piece.format? : Document.Piece → Option RunFormat
  | .run f _ => some f
  | .markup _ => none

theorem Document.joins_iff (p q : Document.Piece) :
    Document.Piece.joins p q = true ↔ ∃ f, p.format? = some f ∧ q.format? = some f := by
  cases p with
  | markup html => simp [Document.Piece.joins, Document.Piece.format?]
  | run f html =>
    cases q with
    | markup html' => simp [Document.Piece.joins, Document.Piece.format?]
    | run g html' =>
      simp only [Document.Piece.joins, Document.Piece.format?, beq_iff_eq, Option.some.injEq]
      constructor
      · intro hfg
        exact ⟨g, hfg, rfl⟩
      · rintro ⟨k, hf, hg⟩
        exact hf.trans hg.symm

namespace Inline
open Document (Piece)

/-- What is written for pieces that come one after the other. -/
def written (pieces : List Piece) : Text := (pieces.foldl Inline.push {}).finish

/-- A run in two is the run. -/
theorem pushRun_pushRun (i : Inline) (f : RunFormat) (s t : Text) :
    (i.pushRun f s).pushRun f t = i.pushRun f (s ++ t) := by
  by_cases hs : s = []
  · subst hs
    rfl
  · have hfull : (s ++ t).isEmpty = false := by simp [hs]
    have hs' : s.isEmpty = false := by simpa using hs
    by_cases ht : t = []
    · subst ht
      rw [List.append_nil]
      rfl
    · have ht' : t.isEmpty = false := by simpa using ht
      obtain ⟨done, pending⟩ := i
      cases pending with
      | none => simp [pushRun, hs', ht', hfull]
      | some held =>
        by_cases hf : held.1 = f
        · simp [pushRun, hs', ht', hfull, hf]
        · simp [pushRun, hs', ht', hfull, hf]

theorem foldl_push_runs (i : Inline) (f : RunFormat) (texts : List Text) :
    (texts.map (Piece.run f)).foldl Inline.push i = i.pushRun f texts.flatten := by
  induction texts generalizing i with
  | nil => rfl
  | cons t texts ih =>
    rw [List.map_cons, List.foldl_cons, ih]
    exact pushRun_pushRun i f t texts.flatten

/-- Runs of one format that come one after the other, and runs without text, make no difference. -/
theorem written_runs (before : List Piece) (f : RunFormat) (texts : List Text)
    (after : List Piece) :
    written (before ++ texts.map (Piece.run f) ++ after) =
      written (before ++ .run f texts.flatten :: after) := by
  simp only [written, List.foldl_append, foldl_push_runs, List.foldl_cons]
  rfl

end Inline

/-- A text made of other texts in their order, with the tags of formats before, between and behind
them. -/
inductive Interleaves : List Text → Text → Prop
  | nil : Interleaves [] []
  | text (t : Text) {ts : List Text} {rest : Text} :
    Interleaves ts rest → Interleaves (t :: ts) (t ++ rest)
  | opened {name : Text} {ts : List Text} {rest : Text} :
    name ∈ Document.marks ⟨true, true, true, true⟩ → Interleaves ts rest →
      Interleaves ts (openTag name ++ rest)
  | closed {name : Text} {ts : List Text} {rest : Text} :
    name ∈ Document.marks ⟨true, true, true, true⟩ → Interleaves ts rest →
      Interleaves ts (closeTag name ++ rest)

namespace Interleaves
variable {ss ts : List Text} {s t : Text}

theorem append (hs : Interleaves ss s) (ht : Interleaves ts t) :
    Interleaves (ss ++ ts) (s ++ t) := by
  induction hs with
  | nil => exact ht
  | text u _ ih =>
    rw [List.append_assoc]
    exact .text u ih
  | opened hname _ ih =>
    rw [List.append_assoc]
    exact .opened hname ih
  | closed hname _ ih =>
    rw [List.append_assoc]
    exact .closed hname ih

theorem single (t : Text) : Interleaves [t] t := by
  have h := Interleaves.text t .nil
  rwa [List.append_nil] at h

theorem enclose {name : Text} (hname : name ∈ Document.marks ⟨true, true, true, true⟩)
    (h : Interleaves ts t) : Interleaves ts (enclose name t) := by
  have hclosed := (Interleaves.opened hname h).append (.closed hname .nil)
  rwa [List.append_nil, List.append_nil] at hclosed

theorem wrap (f : RunFormat) (h : Interleaves ts t) : Interleaves ts (f.wrap t) := by
  have hmarks : Document.marks f ⊆ Document.marks ⟨true, true, true, true⟩ := by
    obtain ⟨bold, italic, strike, superscript⟩ := f
    revert bold italic strike superscript
    decide
  rw [RunFormat.wrap_eq_marks]
  revert hmarks
  induction Document.marks f with
  | nil => exact fun _ => h
  | cons name names ih =>
    intro hmarks
    obtain ⟨hname, hnames⟩ := List.cons_subset.mp hmarks
    exact (ih hnames).enclose hname

end Interleaves

/-- The texts of the pieces that came, in what is written and what is held back. -/
inductive Inline.Carries : List Text → Inline → Prop
  | done {ts : List Text} {done : Text} :
    Interleaves ts done → Inline.Carries ts ⟨done, none⟩
  | pending {ts us : List Text} {done content : Text} (f : RunFormat) :
    Interleaves ts done → Interleaves us content →
      Inline.Carries (ts ++ us) ⟨done, some (f, content)⟩

namespace Inline.Carries
open Document (Piece)
variable {ts : List Text} {i : Inline}

theorem finish (h : Inline.Carries ts i) : Interleaves ts i.finish := by
  cases h with
  | done hdone => exact hdone
  | pending f hdone hcontent => exact hdone.append (hcontent.wrap f)

theorem push (h : Inline.Carries ts i) (p : Piece) :
    Inline.Carries (ts ++ [p.html]) (i.push p) := by
  cases p with
  | markup html => exact .done (h.finish.append (.single html))
  | run f html =>
    by_cases hempty : html = []
    · subst hempty
      cases h with
      | done hdone =>
        have hsame := hdone.append (Interleaves.single [])
        rw [List.append_nil] at hsame
        exact .done hsame
      | pending g hdone hcontent =>
        have hsame := hcontent.append (Interleaves.single [])
        rw [List.append_nil] at hsame
        rw [List.append_assoc]
        exact .pending g hdone hsame
    · have hempty' : html.isEmpty = false := by simpa using hempty
      have hfinish := h.finish
      simp only [Inline.push, pushRun, hempty']
      cases h with
      | done hdone => exact .pending f hdone (.single html)
      | pending g hdone hcontent =>
        by_cases hg : g = f
        · simp only [hg, if_true, List.append_assoc]
          exact .pending f hdone (hcontent.append (.single html))
        · simp only [hg, if_false]
          exact .pending f hfinish (.single html)

theorem foldl_push (h : Inline.Carries ts i) (pieces : List Piece) :
    Inline.Carries (ts ++ pieces.map Piece.html) (pieces.foldl Inline.push i) := by
  induction pieces generalizing ts i with
  | nil => simpa using h
  | cons p pieces ih =>
    have hrest := ih (h.push p)
    rwa [List.append_assoc] at hrest

end Inline.Carries

open Document (Piece) in
/-- Runs without text do not count. The other pieces fall into stretches in one way: runs of one
format next to each other, and markup piece by piece. What is written is the marks of its format
around the texts of each stretch of runs, and the markup between. So it does not matter how a text
is cut into runs, and what came is there once and in its order. -/
theorem Inline.written_division (pieces : List Piece) :
    (∃ parts : List (List Piece),
      (∀ division,
        IsDivision Piece.format? (pieces.filter Piece.isShown) division ↔ division = parts) ∧
      Inline.written pieces = parts.flatMap Document.groupHtml) ∧
    (∀ (before : List Piece) (f : RunFormat) (texts : List Text) (after : List Piece),
      Inline.written (before ++ texts.map (Piece.run f) ++ after) =
        Inline.written (before ++ .run f texts.flatten :: after)) ∧
    Interleaves (pieces.map Piece.html) (Inline.written pieces) := by
  refine ⟨⟨(pieces.filter Piece.isShown).splitBy Piece.joins, ?_, ?_⟩, ?_, ?_⟩
  · intro division
    exact isDivision_iff Document.joins_iff
  · exact finish_foldl_push pieces
  · exact Inline.written_runs
  · exact ((Inline.Carries.done Interleaves.nil).foldl_push pieces).finish

/-- Bold text with an empty run in it, a line break, and a format that empty markup interrupts. -/
def mixedPieces : List Document.Piece :=
  [.run { bold := true } "a &lt; ", .run { italic := true } [], .run { bold := true } "b",
   .markup "<br>", .run { italic := true, strike := true } "c", .markup [],
   .run { italic := true, strike := true } "d"]

theorem Inline.written_division_mixed :
    IsDivision Document.Piece.format? (mixedPieces.filter Document.Piece.isShown)
      [[.run { bold := true } "a &lt; ", .run { bold := true } "b"], [.markup "<br>"],
       [.run { italic := true, strike := true } "c"], [.markup []],
       [.run { italic := true, strike := true } "d"]] ∧
    Inline.written mixedPieces =
      "<strong>a &lt; b</strong><br><em><del>c</del></em><em><del>d</del></em>" ∧
    Interleaves ["a &lt; ", [], "b", "<br>", "c", [], "d"] (Inline.written mixedPieces) := by
  obtain ⟨⟨parts, hunique, hwritten⟩, -, hinterleaves⟩ := Inline.written_division mixedPieces
  have hdivision := (isDivision_iff Document.joins_iff).mpr
    (show _ = (mixedPieces.filter Document.Piece.isShown).splitBy Document.Piece.joins from rfl)
  refine ⟨hdivision, ?_, hinterleaves⟩
  rw [hwritten, ← (hunique _).mp hdivision]
  decide

end MarkdownExport.Word
