import MarkdownExport.Proofs.Text.Trimming
import MarkdownExport.Proofs.Word.Ancestry
import MarkdownExport.Proofs.Word.FeatureCounts

/-! A field is a cross-reference by its whole instruction. The reader looks at each text of an
instruction by itself: what it counts besides, and what it misses, is told by where the instructions
are cut. -/
namespace MarkdownExport

namespace Word.State
variable {s t : Text}

theorem isReference_iff :
    isReference t = true ↔ ∃ field ∈ referenceFields, field <+: t.trimStart := by
  simp only [isReference, List.any_eq_true, startsWith_iff]

theorem isReference_of_allBlank (h : t.allBlank = true) : isReference t = false := by
  have hnone : t.trimStart = [] := List.dropWhile_eq_nil_iff.mpr (List.all_eq_true.mp h)
  rw [isReference, hnone]
  decide

theorem isReference_append_of_allBlank (h : s.allBlank = true) (t : Text) :
    isReference (s ++ t) = isReference t := by
  have hstart : (s ++ t).trimStart = t.trimStart :=
    List.dropWhile_append_of_pos (List.all_eq_true.mp h)
  rw [isReference, isReference, hstart]

/-- What follows a reference does not matter. -/
theorem isReference_append (h : isReference s = true) (t : Text) : isReference (s ++ t) = true := by
  have hvisible : ∃ c ∈ s, isBlank c = false := by
    by_contra hnone
    have hblank : s.allBlank = true := by simpa [Text.allBlank] using hnone
    rw [isReference_of_allBlank hblank] at h
    cases h
  obtain ⟨field, hfield, hhead⟩ := isReference_iff.mp h
  refine isReference_iff.mpr ⟨field, hfield, ?_⟩
  rw [Text.trimStart_append_of_visible hvisible]
  exact hhead.trans (List.prefix_append _ t)

end Word.State

namespace Word
open Xml (Event Tag enter nest)

namespace Field

/-- A text inside an instruction element. Behind the end of another instruction element within the
first one, the reader does not look at it. -/
structure Piece where
  text : Text
  captured : Bool
  deriving DecidableEq

/-- What tells of instructions: a simple field, which has a whole one, or a piece. -/
inductive Sign where
  | simple (instruction : Text)
  | piece (p : Piece)
  deriving DecidableEq

/-- Between the signs stand the field characters. -/
inductive Mark where
  | sign (x : Sign)
  | begins | separates | ends
  deriving DecidableEq

/-- The signs with those between the characters of one field taken together. -/
inductive Item where
  | loose (x : Sign)
  | complex (instruction : List Sign) (result : Option (List Sign))

namespace Piece

def isBlank (p : Piece) : Bool := p.text.allBlank

/-- The reader takes the piece for a cross-reference. -/
def counts (p : Piece) : Bool := p.captured && State.isReference p.text

/-- The instruction that the pieces make up. -/
def whole (ps : List Piece) : Text := (ps.map text).flatten

/-- The piece that the instruction starts in. -/
def leading? (ps : List Piece) : Option Piece := (ps.dropWhile isBlank).head?

def behind (ps : List Piece) : List Piece := (ps.dropWhile isBlank).tail

end Piece

namespace Sign

def piece? : Sign → Option Piece
  | simple _ => none
  | piece p => some p

def isSimpleReference : Sign → Bool
  | simple instruction => State.isReference instruction
  | piece _ => false

def counts : Sign → Bool
  | simple instruction => State.isReference instruction
  | piece p => p.counts

def pieces (signs : List Sign) : List Piece := signs.filterMap piece?

end Sign

def Mark.counts : Mark → Bool
  | sign x => x.counts
  | _ => false

namespace Item

/-- Every field begins and ends, with at most one separator between. -/
def marks : Item → List Mark
  | loose x => [.sign x]
  | complex instruction none => .begins :: (instruction.map .sign ++ [.ends])
  | complex instruction (some result) =>
    .begins :: (instruction.map .sign ++ .separates :: (result.map .sign ++ [.ends]))

/-- How many of the fields are cross-references. -/
def references : Item → Nat
  | loose x => [x].countP Sign.isSimpleReference
  | complex instruction result =>
    (instruction ++ result.getD []).countP Sign.isSimpleReference +
      if State.isReference (Piece.whole (Sign.pieces instruction)) then 1 else 0

/-- A complex field is missed if the piece that its instruction starts in is no cross-reference by
itself. -/
def missed : Item → Nat
  | loose _ => 0
  | complex instruction _ =>
    let ps := Sign.pieces instruction
    if State.isReference (Piece.whole ps) ∧ (Piece.leading? ps).any Piece.counts = false then 1
    else 0

/-- Cross-references are made up by pieces behind the start of an instruction or outside of all. -/
def invented : Item → Nat
  | loose x => (Sign.pieces [x]).countP Piece.counts
  | complex instruction result =>
    (Piece.behind (Sign.pieces instruction)).countP Piece.counts +
      (Sign.pieces (result.getD [])).countP Piece.counts

/-- The instruction is one piece but for blank ones before it, and no other piece counts. -/
def IsWhole : Item → Prop
  | loose x => ∀ p ∈ Sign.pieces [x], p.counts = false
  | complex instruction result =>
    Piece.behind (Sign.pieces instruction) = [] ∧
      (∀ p ∈ Sign.pieces instruction, p.captured = true) ∧
      ∀ p ∈ Sign.pieces (result.getD []), p.counts = false

end Item

/-! Where instructions are cut. -/

namespace Piece
variable {p : Piece} {ps : List Piece}

theorem counts_of_isBlank (h : p.isBlank = true) : p.counts = false := by
  rw [counts, State.isReference_of_allBlank h, Bool.and_false]

theorem whole_cons (p : Piece) (ps : List Piece) : whole (p :: ps) = p.text ++ whole ps := rfl

theorem isReference_whole_dropWhile (ps : List Piece) :
    State.isReference (whole (ps.dropWhile isBlank)) = State.isReference (whole ps) := by
  induction ps with
  | nil => rfl
  | cons p ps ih =>
    by_cases hblank : p.isBlank = true
    · rw [List.dropWhile_cons_of_pos hblank, ih, whole_cons,
        State.isReference_append_of_allBlank hblank]
    · rw [List.dropWhile_cons_of_neg hblank]

theorem countP_dropWhile (ps : List Piece) :
    (ps.dropWhile isBlank).countP counts = ps.countP counts := by
  induction ps with
  | nil => rfl
  | cons p ps ih =>
    by_cases hblank : p.isBlank = true
    · rw [List.dropWhile_cons_of_pos hblank, ih, List.countP_cons_of_neg]
      simp [counts_of_isBlank hblank]
    · rw [List.dropWhile_cons_of_neg hblank]

/-- Of one instruction the reader counts the whole or misses it, and counts what is behind. -/
theorem countP_counts (ps : List Piece) :
    ps.countP counts +
        (if State.isReference (whole ps) ∧ (leading? ps).any counts = false then 1 else 0) =
      (if State.isReference (whole ps) then 1 else 0) + (behind ps).countP counts := by
  rw [← isReference_whole_dropWhile, ← countP_dropWhile, leading?, behind]
  cases ps.dropWhile isBlank with
  | nil => decide
  | cons p rest =>
    rw [List.head?_cons, List.tail_cons, Option.any_some, List.countP_cons]
    cases hcounts : p.counts with
    | true =>
      have hreference : State.isReference p.text = true := (Bool.and_eq_true_iff.mp hcounts).2
      have hwhole : State.isReference (whole (p :: rest)) = true :=
        State.isReference_append hreference (whole rest)
      simp only [hwhole, Bool.true_eq_false, and_false, if_true, if_false]
      omega
    | false =>
      simp only [Bool.false_eq_true, and_true, if_false]
      omega

/-- An instruction in one piece is read as it is. -/
theorem any_leading? {ps : List Piece} (hbehind : behind ps = [])
    (hcaptured : ∀ p ∈ ps, p.captured = true) (h : State.isReference (whole ps) = true) :
    (leading? ps).any counts = true := by
  have hsub : ∀ p ∈ ps.dropWhile isBlank, p.captured = true :=
    fun p hp => hcaptured p ((List.dropWhile_sublist isBlank).subset hp)
  rw [← isReference_whole_dropWhile] at h
  rw [behind] at hbehind
  rw [leading?]
  cases hps : ps.dropWhile isBlank with
  | nil =>
    rw [hps] at h
    cases h
  | cons p rest =>
    rw [hps] at h hbehind hsub
    obtain rfl : rest = [] := hbehind
    rw [whole_cons, whole, List.map_nil, List.flatten_nil, List.append_nil] at h
    simp [counts, h, hsub p List.mem_cons_self]

end Piece

theorem Sign.countP_counts (signs : List Sign) :
    signs.countP counts = signs.countP isSimpleReference + (pieces signs).countP Piece.counts := by
  induction signs with
  | nil => rfl
  | cons x signs ih =>
    have hcons (q : Sign → Bool) : (x :: signs).countP q = [x].countP q + signs.countP q := by
      rw [← List.countP_append, List.singleton_append]
    have hpieces : pieces (x :: signs) = pieces [x] ++ pieces signs := by
      rw [pieces, pieces, pieces, ← List.filterMap_append, List.singleton_append]
    have hsingle : [x].countP counts =
        [x].countP isSimpleReference + (pieces [x]).countP Piece.counts := by
      cases x with
      | simple instruction => rfl
      | piece p => exact (Nat.zero_add _).symm
    rw [hcons, hcons, hpieces, List.countP_append, hsingle, ih]
    omega

namespace Item

theorem countP_sign (signs : List Sign) :
    (signs.map Mark.sign).countP Mark.counts = signs.countP Sign.counts :=
  List.countP_map

/-- What the reader counts in an item and what it misses there. -/
theorem countP_marks (item : Item) :
    item.marks.countP Mark.counts + item.missed = item.references + item.invented := by
  cases item with
  | loose x =>
    have hsign := countP_sign [x]
    rw [Sign.countP_counts] at hsign
    simpa [marks, missed, references, invented] using hsign
  | complex instruction result =>
    have hmarks : (marks (.complex instruction result)).countP Mark.counts =
        instruction.countP Sign.counts + (result.getD []).countP Sign.counts := by
      cases result with
      | none =>
        simp only [marks, List.countP_cons, List.countP_append, countP_sign]
        simp [Mark.counts]
      | some result =>
        simp only [marks, List.countP_cons, List.countP_append, countP_sign]
        simp [Mark.counts]
    have hpieces := Piece.countP_counts (Sign.pieces instruction)
    rw [hmarks, Sign.countP_counts, Sign.countP_counts, references, missed, invented,
      List.countP_append]
    omega

theorem missed_of_isWhole {item : Item} (h : item.IsWhole) : item.missed = 0 := by
  cases item with
  | loose x => rfl
  | complex instruction result =>
    obtain ⟨hbehind, hcaptured, -⟩ := h
    refine if_neg ?_
    rintro ⟨hwhole, hnone⟩
    rw [Piece.any_leading? hbehind hcaptured hwhole] at hnone
    cases hnone

theorem invented_of_isWhole {item : Item} (h : item.IsWhole) : item.invented = 0 := by
  have hzero {ps : List Piece} (hps : ∀ p ∈ ps, p.counts = false) : ps.countP Piece.counts = 0 :=
    List.countP_eq_zero.mpr fun p hp => Bool.eq_false_iff.mp (hps p hp)
  cases item with
  | loose x => exact hzero h
  | complex instruction result =>
    obtain ⟨hbehind, -, hresult⟩ := h
    rw [invented, hbehind, hzero hresult]
    rfl

theorem countP_flatMap_marks (items : List Item) :
    (items.flatMap marks).countP Mark.counts + (items.map missed).sum =
      (items.map references).sum + (items.map invented).sum := by
  induction items with
  | nil => rfl
  | cons item items ih =>
    have hitem := countP_marks item
    simp only [List.flatMap_cons, List.countP_append, List.map_cons, List.sum_cons]
    omega

theorem countP_flatMap_of_isWhole {items : List Item} (h : ∀ item ∈ items, item.IsWhole) :
    (items.flatMap marks).countP Mark.counts = (items.map references).sum := by
  rw [List.countP_flatMap]
  congr 1
  apply List.map_congr_left
  intro item hitem
  have hcount := countP_marks item
  rw [missed_of_isWhole (h item hitem), invented_of_isWhole (h item hitem)] at hcount
  exact hcount

end Item

/-! The marks of a part. -/

/-- Field characters are told by their type. -/
def tagMark? (tag : Tag) : Option Mark :=
  match Element.ofName tag.name with
  | .simpleField => (tag.value? "w:instr").map fun instruction => .sign (.simple instruction)
  | .fieldCharacter =>
    if tag.value? "w:fldCharType" = some "begin".toList then some .begins
    else if tag.value? "w:fldCharType" = some "separate".toList then some .separates
    else if tag.value? "w:fldCharType" = some "end".toList then some .ends
    else none
  | _ => none

/-- The mark that an event stands for, if no skipped element is around. -/
def mark? (o : Outline) (around : List Tag) : Event → Option Mark
  | .opened tag | .empty tag => if hidden around = [] then tagMark? tag else none
  | .closed _ => none
  | .text raw =>
    if hidden around = [] ∧ ofKind .instruction around ≠ [] then
      some (.sign (.piece ⟨(Xml.unescape raw).toOption.getD [], o.holds .instruction⟩))
    else none

def marks (o : Outline) (around : List Tag) : List Event → List Mark
  | [] => []
  | event :: events =>
    (mark? o around event).toList ++ marks (o.step event) (enter around event) events

/-- The marks of a part that is given as text. -/
def marksIn (xml : Text) : List Mark := marks (State.outline {}) [] (Xml.scan xml).events

section Count
variable {o : Outline} {around : List Tag}

/-- A captured piece counts as a simple field with its text does. -/
theorem count_instructionFeatures_crossRef (instruction : Text) :
    (instructionFeatures instruction).count .crossRef =
      [Mark.sign (.piece ⟨instruction, true⟩)].countP Mark.counts := by
  have hmark : [Mark.sign (.piece ⟨instruction, true⟩)].countP Mark.counts =
      if State.isReference instruction then 1 else 0 := List.countP_singleton
  rw [hmark, instructionFeatures]
  split <;> rfl

theorem count_tagFeatures_crossRef (o : Outline) (tag : Tag) :
    (o.tagFeatures tag).count .crossRef = (tagMark? tag).toList.countP Mark.counts := by
  unfold Outline.tagFeatures tagMark?
  cases Element.ofName tag.name with
  | simpleField =>
    cases tag.value? "w:instr" with
    | none => rfl
    | some instruction =>
      dsimp only [Option.map_some, Option.elim_some]
      rw [List.count_append, count_instructionFeatures_crossRef]
      rfl
  | fieldCharacter =>
    dsimp only
    split_ifs <;> rfl
  | lineBreak | vectorShape =>
    dsimp only
    split <;> rfl
  | _ => rfl

theorem count_features_crossRef (h : o.Fits (around.map Tag.name)) (event : Event) :
    (o.features event).count .crossRef = (mark? o around event).toList.countP Mark.counts := by
  have hdepth : o.skipDepth = 0 ↔ hidden around = [] :=
    h.skipDepth_eq_zero_iff.trans hidden_eq_nil_iff.symm
  cases event with
  | opened tag | empty tag =>
    rw [Outline.features, mark?, if_congr hdepth rfl rfl]
    split
    · exact count_tagFeatures_crossRef o tag
    · rfl
  | closed name => rfl
  | text raw =>
    rw [Outline.features, mark?]
    by_cases hopen : o.skipDepth = 0 ∧ o.holds .instruction = true
    · obtain ⟨hskip, hholds⟩ := hopen
      have hinside : ofKind .instruction around ≠ [] := by
        have hmem := h.covers.holds .instruction hholds
        rw [Outline.visible, hskip, List.drop_zero, List.map_map, List.mem_map] at hmem
        obtain ⟨tag, htag, hkind⟩ := hmem
        exact List.ne_nil_of_mem (List.mem_filter.mpr ⟨htag, decide_eq_true hkind⟩)
      rw [if_pos ⟨hskip, hholds⟩, if_pos ⟨hdepth.mp hskip, hinside⟩, Option.toList_some,
        hholds]
      cases (Xml.unescape raw).toOption with
      | none => decide
      | some content => exact count_instructionFeatures_crossRef content
    · rw [if_neg hopen, List.count_nil]
      split
      next hmark =>
        have hholds : o.holds .instruction = false :=
          Bool.eq_false_iff.mpr fun hholds => hopen ⟨hdepth.mpr hmark.1, hholds⟩
        rw [hholds]
        rfl
      next => rfl

theorem count_featuresOf_crossRef {events : List Event} {stack : List Text}
    (h : o.Fits (around.map Tag.name)) (hnest : nest (around.map Tag.name) events = some stack) :
    (featuresOf o events).count .crossRef = (marks o around events).countP Mark.counts := by
  induction events generalizing o around with
  | nil => rfl
  | cons event events ih =>
    obtain ⟨hstep, hrest⟩ := Xml.nest_enter hnest
    rw [featuresOf, List.count_append, ih (h.step hstep) hrest, count_features_crossRef h, marks,
      List.countP_append, Nat.add_comm]

end Count

end Field

/-- Where every complex field begins and ends and none stands in another one, the report counts the
fields that are cross-references, less those that it misses and with what it invents. It counts
them exactly where each instruction is one piece. -/
theorem report_crossReferences {package : Package} {profile : Profile} {s : Snapshot}
    (h : snapshot package profile = .ok s) :
    ∃ xml r, package.text? documentPart = .ok (some xml) ∧ s.report = some r ∧
      ∀ items : List Field.Item, Field.marksIn xml = items.flatMap Field.Item.marks →
        r.count .crossRef + (items.map Field.Item.missed).sum =
          (items.map Field.Item.references).sum + (items.map Field.Item.invented).sum ∧
        ((∀ item ∈ items, item.IsWhole) →
          r.count .crossRef = (items.map Field.Item.references).sum) := by
  obtain ⟨c, hc, hs⟩ := exists_ok_of_bind h
  obtain rfl := Except.ok.inj hs
  obtain ⟨xml, htext, hseen⟩ := readContents_seen hc
  obtain ⟨stack, hnest⟩ := Xml.exists_nest_scan xml
  have hfits : (State.outline {}).Fits (([] : List Tag).map Tag.name) := .initial
  have hcount : c.seen.count .crossRef = (Field.marksIn xml).countP Field.Mark.counts := by
    rw [hseen, List.count_append, List.count_append, List.count_replicate, List.count_replicate,
      Field.count_featuresOf_crossRef hfits hnest]
    exact Nat.zero_add _
  refine ⟨xml, _, htext, rfl, fun items hitems => ?_⟩
  rw [hitems] at hcount
  constructor
  · have hall := Field.Item.countP_flatMap_marks items
    rwa [← hcount] at hall
  · intro hwhole
    exact hcount.trans (Field.Item.countP_flatMap_of_isWhole hwhole)

/-- A simple field, an instruction that is cut in its keyword, and one of which each piece looks
like a reference. -/
def cutPackage : Package := .ofTexts
  [(documentPart, List.flatten
    ["<w:p>", "<w:fldSimple w:instr=\" REF a\"/>",
     "<w:fldChar w:fldCharType=\"begin\"/>", "<w:instrText>RE<!---->F b</w:instrText>",
     "<w:fldChar w:fldCharType=\"separate\"/>", "<w:fldChar w:fldCharType=\"end\"/>",
     "<w:fldChar w:fldCharType=\"begin\"/>",
     "<w:instrText>REF c<!---->REF d<!---->REF e</w:instrText>",
     "<w:fldChar w:fldCharType=\"end\"/>", "</w:p>"])]

theorem report_crossReferences_cutPackage :
    ∃ s r, snapshot cutPackage .faithful = .ok s ∧ s.report = some r ∧
      r.count .crossRef + 1 = 3 + 2 := by
  have hhtml : (snapshot cutPackage .faithful).toOption.map Snapshot.html = some [] := by
    simp only [snapshot, readContents, readNotes, readOptional, cutPackage, Package.text?_ofTexts]
    decide +kernel
  obtain ⟨s, hs, -⟩ := exists_snapshot hhtml
  obtain ⟨xml, r, htext, hr, hfields⟩ := report_crossReferences hs
  rw [cutPackage, Package.text?_ofTexts, Dictionary.find?, if_pos rfl] at htext
  obtain rfl := Option.some.inj (Except.ok.inj htext)
  have hcount := (hfields
    [.loose (.simple " REF a"),
     .complex [.piece ⟨"RE", true⟩, .piece ⟨"F b", true⟩] (some []),
     .complex [.piece ⟨"REF c", true⟩, .piece ⟨"REF d", true⟩, .piece ⟨"REF e", true⟩] none]
    (by decide +kernel)).1
  exact ⟨s, r, hs, hr, hcount⟩

/-- A reference whose instruction is cut in its keyword. -/
def missedField : Text := List.flatten
  ["<w:p>", "<w:fldChar w:fldCharType=\"begin\"/>", "<w:instrText>RE</w:instrText>",
   "<w:instrText>F a</w:instrText>", "<w:fldChar w:fldCharType=\"end\"/>", "</w:p>"]

/-- Not every report counts the fields that are cross-references. -/
theorem report_crossReferences_missed :
    ¬ ∀ (package : Package) (profile : Profile) (s : Snapshot) (xml : Text) (r : Report)
      (items : List Field.Item), snapshot package profile = .ok s →
      package.text? documentPart = .ok (some xml) → s.report = some r →
      Field.marksIn xml = items.flatMap Field.Item.marks →
      r.count .crossRef = (items.map Field.Item.references).sum := by
  intro hall
  let package : Package := .ofTexts [(documentPart, missedField)]
  have hcount : ((snapshot package .faithful).toOption.bind Snapshot.report).map
      (Report.count · .crossRef) = some 0 := by
    simp only [snapshot, readContents, readNotes, readOptional, package, Package.text?_ofTexts]
    decide +kernel
  obtain ⟨r, hr, hzero⟩ := Option.map_eq_some_iff.mp hcount
  obtain ⟨s, hs, hreport⟩ := Option.bind_eq_some_iff.mp hr
  have htext : package.text? documentPart = .ok (some missedField) := by
    rw [Package.text?_ofTexts, Dictionary.find?, if_pos rfl]
    rfl
  have hmarks : Field.marksIn missedField = [Field.Item.complex
      [.piece ⟨"RE", true⟩, .piece ⟨"F a", true⟩] none].flatMap Field.Item.marks := by
    decide +kernel
  have hone := hall package .faithful s missedField r _ (eq_ok_of_toOption hs) htext hreport hmarks
  rw [hzero] at hone
  revert hone
  decide

end Word
end MarkdownExport
