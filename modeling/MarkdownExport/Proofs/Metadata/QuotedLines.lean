import Mathlib.Data.List.Basic
import MarkdownExport.Proofs.Conversion.FrontmatterBlock

/-! Lines that hold one text in quotes at most, read by a machine for which a backslash inside the
quotes makes the next scalar literal and newlines inside them are content. Lines are read from no
text that is shorter than the one with their quotes and backslashes escaped. -/
namespace MarkdownExport.Frontmatter
open Text

/-- What stands on a line in front of quotes, and what the quotes hold. -/
structure Line where
  head : Text
  content : Option Text
  deriving DecidableEq, Repr

/-- Where on its line a reader is. -/
inductive Place where
  | head (read : Text)
  | inside (head read : Text)
  | escaped (head read : Text)
  | behind (head content : Text)
  deriving DecidableEq, Repr

structure Reader where
  lines : List Line := []
  place : Place := .head []
  deriving DecidableEq, Repr

namespace Reader

/-- Behind its quotes a line has to end. -/
def step (r : Reader) (c : Char) : Option Reader :=
  match r.place with
  | .head read =>
    if c = '\n' then some ⟨r.lines ++ [⟨read, none⟩], .head []⟩
    else if c = '"' then some { r with place := .inside read [] }
    else some { r with place := .head (read ++ [c]) }
  | .inside head read =>
    if c = '"' then some { r with place := .behind head read }
    else if c = '\\' then some { r with place := .escaped head read }
    else some { r with place := .inside head (read ++ [c]) }
  | .escaped head read => some { r with place := .inside head (read ++ [c]) }
  | .behind head content =>
    if c = '\n' then some ⟨r.lines ++ [⟨head, some content⟩], .head []⟩ else none

def run (r : Reader) (t : Text) : Option Reader := t.foldlM step r

end Reader

/-- The lines of a text, each of which ends in a newline. -/
def readLines? (t : Text) : Option (List Line) :=
  match Reader.run {} t with
  | some ⟨ls, .head []⟩ => some ls
  | _ => none

/-! Writing and reading lines. -/

/-- The escapes that a reader needs. -/
def literalEscape (c : Char) : Text := if c = '"' ∨ c = '\\' then ['\\', c] else [c]

/-- A line whose quotes hold what is put between them. -/
def Line.written (escape : Char → Text) (l : Line) : Text :=
  l.head ++ (match l.content with
    | some t => quoteWith escape t
    | none => []) ++ ['\n']

namespace Reader
variable {r s : Reader} {t : Text}

theorem run_nil (r : Reader) : r.run [] = some r := rfl

theorem run_cons (r : Reader) (c : Char) (t : Text) :
    r.run (c :: t) = (r.step c).bind fun s => s.run t := rfl

theorem run_append (r : Reader) (s t : Text) : r.run (s ++ t) = (r.run s).bind fun r => r.run t :=
  List.foldlM_append

theorem run_head {head : Text} (plain : ∀ c ∈ head, c ≠ '\n' ∧ c ≠ '"') (ls : List Line)
    (read : Text) : run ⟨ls, .head read⟩ head = some ⟨ls, .head (read ++ head)⟩ := by
  induction head generalizing read with
  | nil => rw [run_nil, List.append_nil]
  | cons c head ih =>
    rw [List.forall_mem_cons] at plain
    simp only [run_cons, step, if_neg plain.1.1, if_neg plain.1.2, Option.bind_some, ih plain.2,
      List.append_assoc, List.singleton_append]

theorem run_literalEscape (ls : List Line) (head read : Text) (c : Char) :
    run ⟨ls, .inside head read⟩ (literalEscape c) = some ⟨ls, .inside head (read ++ [c])⟩ := by
  unfold literalEscape
  split
  · rfl
  · rename_i hc
    rw [not_or] at hc
    simp only [run_cons, step, if_neg hc.1, if_neg hc.2, Option.bind_some, run_nil]

theorem run_literal (ls : List Line) (head read content : Text) :
    run ⟨ls, .inside head read⟩ (content.flatMap literalEscape) =
      some ⟨ls, .inside head (read ++ content)⟩ := by
  induction content generalizing read with
  | nil => rw [List.flatMap_nil, run_nil, List.append_nil]
  | cons c content ih =>
    rw [List.flatMap_cons, run_append, run_literalEscape, Option.bind_some, ih, List.append_assoc,
      List.singleton_append]

theorem run_line {l : Line} (plain : ∀ c ∈ l.head, c ≠ '\n' ∧ c ≠ '"') (ls : List Line) :
    run ⟨ls, .head []⟩ (l.written literalEscape) = some ⟨ls ++ [l], .head []⟩ := by
  obtain ⟨head, content⟩ := l
  have hhead := run_head plain ls []
  rw [List.nil_append] at hhead
  cases content with
  | none =>
    rw [Line.written, List.append_nil, run_append, hhead]
    rfl
  | some t =>
    have hquotes : Line.written literalEscape ⟨head, some t⟩ =
        head ++ '"' :: (t.flatMap literalEscape ++ ['"', '\n']) := by
      simp [Line.written, quoteWith]
    have hopen : step ⟨ls, .head head⟩ '"' = some ⟨ls, .inside head []⟩ := rfl
    rw [hquotes, run_append, hhead, Option.bind_some, run_cons, hopen, Option.bind_some, run_append,
      run_literal]
    rfl

theorem run_lines {ls : List Line} (plain : ∀ l ∈ ls, ∀ c ∈ l.head, c ≠ '\n' ∧ c ≠ '"')
    (before : List Line) :
    run ⟨before, .head []⟩ (ls.flatMap (Line.written literalEscape)) =
      some ⟨before ++ ls, .head []⟩ := by
  induction ls generalizing before with
  | nil => rw [List.flatMap_nil, run_nil, List.append_nil]
  | cons l ls ih =>
    rw [List.forall_mem_cons] at plain
    rw [List.flatMap_cons, run_append, run_line plain.1, Option.bind_some, ih plain.2,
      List.append_assoc, List.singleton_append]

/-- What a reader has read, with the escapes that it needs. -/
def consumed (r : Reader) : Text :=
  r.lines.flatMap (Line.written literalEscape) ++
    match r.place with
    | .head read => read
    | .inside head read => head ++ ['"'] ++ read.flatMap literalEscape
    | .escaped head read => head ++ ['"'] ++ read.flatMap literalEscape ++ ['\\']
    | .behind head content => head ++ quoteWith literalEscape content

/-- No scalar counts for more than one. -/
theorem length_consumed_step {c : Char} (h : r.step c = some s) :
    s.consumed.length ≤ r.consumed.length + 1 := by
  obtain ⟨ls, place⟩ := r
  have hescape : (literalEscape c).length ≤ 2 := by
    unfold literalEscape
    split <;> simp
  cases place with
  | head read =>
    simp only [step] at h
    split_ifs at h
    all_goals
      cases h
      simp [consumed, Line.written]
      omega
  | inside head read =>
    simp only [step] at h
    split_ifs at h with hquote hslash
    · cases h
      simp [consumed, quoteWith]
      omega
    · cases h
      simp [consumed]
      omega
    · cases h
      have hplain : literalEscape c = [c] := if_neg (not_or.mpr ⟨hquote, hslash⟩)
      simp [consumed, hplain]
      omega
  | escaped head read =>
    cases h
    simp [consumed]
    omega
  | behind head content =>
    simp only [step] at h
    split_ifs at h
    cases h
    simp [consumed, Line.written]
    omega

theorem length_consumed_run (h : r.run t = some s) :
    s.consumed.length ≤ r.consumed.length + t.length := by
  induction t generalizing r with
  | nil =>
    cases h
    exact Nat.le_refl _
  | cons c t ih =>
    obtain ⟨q, hq, h⟩ := Option.bind_eq_some_iff.mp h
    have hstep := length_consumed_step hq
    have hrest := ih h
    rw [List.length_cons]
    omega

end Reader

theorem readLines?_written {ls : List Line} (plain : ∀ l ∈ ls, ∀ c ∈ l.head, c ≠ '\n' ∧ c ≠ '"') :
    readLines? (ls.flatMap (Line.written literalEscape)) = some ls := by
  rw [readLines?, Reader.run_lines plain, List.nil_append]

/-- Lines are read from no shorter text. -/
theorem length_written_le {t : Text} {ls : List Line} (h : readLines? t = some ls) :
    (ls.flatMap (Line.written literalEscape)).length ≤ t.length := by
  unfold readLines? at h
  split at h
  · rename_i ls' hrun
    cases h
    simpa [Reader.consumed] using Reader.length_consumed_run hrun
  · cases h

theorem length_literalEscape (t : Text) :
    (t.flatMap literalEscape).length = (t.flatMap quoteEscape).length + t.count '\\' := by
  induction t with
  | nil => rfl
  | cons c t ih =>
    have hc : (literalEscape c).length = (quoteEscape c).length + if c = '\\' then 1 else 0 := by
      unfold literalEscape quoteEscape
      by_cases hquote : c = '"'
      · rw [hquote]
        rfl
      · by_cases hslash : c = '\\' <;> simp [hquote, hslash]
    simp only [List.flatMap_cons, List.length_append, List.count_cons, ih, hc, beq_iff_eq]
    omega

/-- The block saves a scalar at each backslash. -/
theorem length_written (ls : List Line) :
    (ls.flatMap (Line.written literalEscape)).length =
      (ls.flatMap (Line.written quoteEscape)).length +
        (ls.filterMap Line.content).flatten.count '\\' := by
  induction ls with
  | nil => rfl
  | cons l ls ih =>
    obtain ⟨head, content⟩ := l
    cases content with
    | none =>
      simp only [List.flatMap_cons, List.length_append, List.filterMap_cons, ih, Line.written]
      omega
    | some t =>
      simp only [List.flatMap_cons, List.length_append, List.filterMap_cons, List.flatten_cons,
        List.count_append, ih, Line.written, quoteWith, length_literalEscape]
      omega

theorem written_congr {l : Line} (h : ∀ t ∈ l.content, '\\' ∉ t) :
    l.written quoteEscape = l.written literalEscape := by
  obtain ⟨head, content⟩ := l
  cases content with
  | none => rfl
  | some t =>
    have ht : t.flatMap quoteEscape = t.flatMap literalEscape := by
      refine List.flatMap_congr fun c hc => ?_
      have hslash : c ≠ '\\' := fun heq => h t rfl (heq ▸ hc)
      by_cases hquote : c = '"' <;> simp [quoteEscape, literalEscape, hslash, hquote]
    simp only [Line.written, quoteWith, ht]

end MarkdownExport.Frontmatter
