import MarkdownExport.Conversion
import MarkdownExport.Proofs.Metadata.OneLine
import MarkdownExport.Proofs.Text.Lines
import MarkdownExport.Proofs.Text.Visible

/-! Taking a finished document apart again. The frontmatter block ends at the first line of three
dashes after its own first line, and the quotes of the block keep newlines as they are. So the
Markdown is found exactly if no key and no quoted text brings such a line. -/
namespace MarkdownExport.Frontmatter
open Text

/-- The text behind the first line of three dashes. -/
def afterDelimiter? : List Text → Option Text
  | [] => none
  | l :: ls => if l = delimiter then some (unlines ls) else afterDelimiter? ls

/-- The text behind the block that a document starts with. -/
def body? (document : Text) : Option Text :=
  match document.lines with
  | [] => none
  | l :: ls => if l = delimiter then afterDelimiter? ls else none

/-- The delimiter is a line of a text, neither its first nor its last. -/
def HoldsDelimiter (t : Text) : Prop := delimiter ∈ t.lines.tail.dropLast

/-- The delimiter is a line of a text, and not its last. -/
def LeadsWithDelimiter (t : Text) : Prop := delimiter ∈ t.lines.dropLast

instance : DecidablePred HoldsDelimiter := fun t =>
  inferInstanceAs (Decidable (delimiter ∈ t.lines.tail.dropLast))

instance : DecidablePred LeadsWithDelimiter := fun t =>
  inferInstanceAs (Decidable (delimiter ∈ t.lines.dropLast))

def LiteralBreaks : Value → Prop
  | .text t => HoldsDelimiter t
  | _ => False

/-- An entry brings a line of three dashes into the block. Keys of entries stand at the start of a
line, while two spaces stand in front of the keys of fields. -/
def Breaks (entry : Text × Value) : Prop :=
  match entry.2 with
  | .null => False
  | .list items => LeadsWithDelimiter entry.1 ∨ ∃ v ∈ items, LiteralBreaks v
  | .object fields =>
    LeadsWithDelimiter entry.1 ∨ ∃ field ∈ fields, HoldsDelimiter field.1 ∨ LiteralBreaks field.2
  | v => LeadsWithDelimiter entry.1 ∨ LiteralBreaks v

instance : DecidablePred LiteralBreaks := fun v =>
  match v with
  | .text t => inferInstanceAs (Decidable (HoldsDelimiter t))
  | .null | .bool _ | .integer _ | .float _ | .list _ | .object _ => inferInstanceAs (Decidable False)

instance : DecidablePred Breaks := fun entry =>
  match entry with
  | (_, .null) => inferInstanceAs (Decidable False)
  | (key, .list items) =>
    inferInstanceAs (Decidable (LeadsWithDelimiter key ∨ ∃ v ∈ items, LiteralBreaks v))
  | (key, .object fields) =>
    inferInstanceAs (Decidable (LeadsWithDelimiter key ∨
      ∃ field ∈ fields, HoldsDelimiter field.1 ∨ LiteralBreaks field.2))
  | (key, .bool b) => inferInstanceAs (Decidable (LeadsWithDelimiter key ∨ LiteralBreaks (.bool b)))
  | (key, .integer z) =>
    inferInstanceAs (Decidable (LeadsWithDelimiter key ∨ LiteralBreaks (.integer z)))
  | (key, .float x) => inferInstanceAs (Decidable (LeadsWithDelimiter key ∨ LiteralBreaks (.float x)))
  | (key, .text t) => inferInstanceAs (Decidable (LeadsWithDelimiter key ∨ LiteralBreaks (.text t)))

/-! The lines of an entry. -/

theorem notMem_delimiter {c : Char} (hc : c ≠ '-') : c ∉ delimiter := by
  have hdashes : delimiter = List.replicate 3 '-' := by decide
  rw [hdashes]
  exact fun h => hc (List.eq_of_mem_replicate h)

def quoteEscape (c : Char) : Text := if c = '"' then ['\\', '"'] else [c]

theorem quoteEscape_of_notMem {t : Text} (h : '"' ∉ t) : t.flatMap quoteEscape = t := by
  induction t with
  | nil => rfl
  | cons c t ih =>
    rw [List.mem_cons, not_or] at h
    rw [List.flatMap_cons, ih h.2, quoteEscape, if_neg (Ne.symm h.1), List.singleton_append]

theorem quoteEscape_eq_delimiter_iff {t : Text} :
    t.flatMap quoteEscape = delimiter ↔ t = delimiter := by
  constructor
  · intro h
    have hquote : '"' ∉ t := by
      intro hmem
      have hescaped : '"' ∈ t.flatMap quoteEscape := List.mem_flatMap.mpr ⟨'"', hmem, by decide⟩
      rw [h] at hescaped
      exact notMem_delimiter (by decide) hescaped
    rwa [quoteEscape_of_notMem hquote] at h
  · rintro rfl
    exact quoteEscape_of_notMem (notMem_delimiter (by decide))

theorem newline_notMem_quoteEscape {t : Text} (h : '\n' ∉ t) : '\n' ∉ t.flatMap quoteEscape := by
  intro hmem
  obtain ⟨c, hc, hnewline⟩ := List.mem_flatMap.mp hmem
  unfold quoteEscape at hnewline
  split at hnewline
  · simp at hnewline
  · rw [List.mem_singleton] at hnewline
    exact h (hnewline ▸ hc)

theorem lines_quoteEscape (t : Text) :
    lines (t.flatMap quoteEscape) = t.lines.map (List.flatMap quoteEscape) := by
  induction t using lines_induction with
  | last l hl =>
    rw [lines_of_notMem hl, lines_of_notMem (newline_notMem_quoteEscape hl), List.map_singleton]
  | line l t hl ih =>
    have hnewline : quoteEscape '\n' = ['\n'] := by decide
    rw [List.flatMap_append, List.flatMap_cons, hnewline, List.singleton_append,
      lines_line (newline_notMem_quoteEscape hl), lines_line hl, ih, List.map_cons]

theorem delimiter_mem_tail_lines_quoted_iff (t : Text) :
    delimiter ∈ t.quoted.lines.tail ↔ HoldsDelimiter t := by
  have hquote : '"' ∉ delimiter := notMem_delimiter (by decide)
  have hquoted : t.quoted = [] ++ '"' :: (t.flatMap quoteEscape ++ '"' :: []) := rfl
  rw [hquoted, mem_tail_lines_append_cons_iff (by decide) hquote,
    mem_tail_lines_append_cons_iff (by decide) hquote, lines_quoteEscape, ← List.map_tail,
    ← List.map_dropLast, List.mem_map]
  simp [lines_of_notMem, quoteEscape_eq_delimiter_iff, HoldsDelimiter]

theorem delimiter_mem_tail_lines_literal_iff (v : Value) :
    delimiter ∈ (literal v).lines.tail ↔ LiteralBreaks v := by
  cases v with
  | text t => exact delimiter_mem_tail_lines_quoted_iff t
  | _ => simp [literal, LiteralBreaks, lines_of_notMem, Value.newline_notMem_toJson]

/-- A key at the start of a line, in front of a literal. -/
theorem delimiter_mem_lines_scalar_iff (key : Text) (v : Value) :
    delimiter ∈ (key ++ ": " ++ literal v).lines ↔ LeadsWithDelimiter key ∨ LiteralBreaks v := by
  have hsplit : key ++ ": " ++ literal v = key ++ ':' :: ([] ++ ' ' :: literal v) := by simp
  rw [hsplit, mem_lines_append_cons_iff (by decide) (notMem_delimiter (by decide)),
    mem_tail_lines_append_cons_iff (by decide) (notMem_delimiter (by decide)),
    delimiter_mem_tail_lines_literal_iff]
  simp [lines_of_notMem, LeadsWithDelimiter]

theorem delimiter_mem_lines_key_iff (key : Text) :
    delimiter ∈ (key ++ ":").lines ↔ LeadsWithDelimiter key := by
  have hsplit : key ++ ":" = key ++ ':' :: [] := rfl
  rw [hsplit, mem_lines_append_cons_iff (by decide) (notMem_delimiter (by decide))]
  simp [lines_of_notMem, LeadsWithDelimiter]

theorem delimiter_mem_lines_item_iff (v : Value) :
    delimiter ∈ (itemLine v).lines ↔ LiteralBreaks v := by
  have hsplit : itemLine v = " " ++ ' ' :: ("-" ++ ' ' :: literal v) := rfl
  rw [hsplit, mem_lines_append_cons_iff (by decide) (notMem_delimiter (by decide)),
    mem_tail_lines_append_cons_iff (by decide) (notMem_delimiter (by decide)),
    delimiter_mem_tail_lines_literal_iff]
  simp [lines_of_notMem]

theorem delimiter_mem_lines_field_iff (field : Text × Value) :
    delimiter ∈ (fieldLine field).lines ↔ HoldsDelimiter field.1 ∨ LiteralBreaks field.2 := by
  have hsplit : fieldLine field =
      [] ++ ' ' :: ([] ++ ' ' :: (field.1 ++ ':' :: ([] ++ ' ' :: literal field.2))) := by
    simp [fieldLine]
  have hspace : ' ' ∉ delimiter := notMem_delimiter (by decide)
  rw [hsplit, mem_lines_append_cons_iff (by decide) hspace,
    mem_tail_lines_append_cons_iff (by decide) hspace,
    mem_tail_lines_append_cons_iff (by decide) (notMem_delimiter (by decide)),
    mem_tail_lines_append_cons_iff (by decide) hspace, delimiter_mem_tail_lines_literal_iff]
  simp [lines_of_notMem, HoldsDelimiter]

theorem delimiter_mem_lines_entry_iff (entry : Text × Value) :
    delimiter ∈ (entryLines entry).flatMap lines ↔ Breaks entry := by
  obtain ⟨key, v⟩ := entry
  cases v with
  | null => simp [entryLines, Breaks]
  | list items =>
    simp only [entryLines, Breaks, List.flatMap_cons, List.mem_append,
      delimiter_mem_lines_key_iff, List.flatMap_map, List.mem_flatMap,
      delimiter_mem_lines_item_iff]
  | object fields =>
    simp only [entryLines, Breaks, List.flatMap_cons, List.mem_append,
      delimiter_mem_lines_key_iff, List.flatMap_map, List.mem_flatMap,
      delimiter_mem_lines_field_iff]
  | _ =>
    simp only [entryLines, Breaks, List.flatMap_cons, List.flatMap_nil, List.append_nil,
      delimiter_mem_lines_scalar_iff]

/-! The first line of three dashes. -/

theorem afterDelimiter?_append {ls : List Text} (h : delimiter ∉ ls) (rest : List Text) :
    afterDelimiter? (ls ++ delimiter :: rest) = some (unlines rest) := by
  induction ls with
  | nil => simp [afterDelimiter?]
  | cons l ls ih =>
    rw [List.mem_cons, not_or] at h
    rw [List.cons_append, afterDelimiter?, if_neg (Ne.symm h.1), ih h.2]

/-- More lines make a longer text. -/
theorem length_unlines_lt (ls : List Text) (l : Text) {rest : List Text} (h : rest ≠ []) :
    (unlines rest).length < (unlines (ls ++ l :: rest)).length := by
  induction ls with
  | nil =>
    rw [List.nil_append, unlines_cons h, List.length_append, List.length_cons]
    omega
  | cons l' ls ih =>
    rw [List.cons_append, unlines_cons (by simp), List.length_append, List.length_cons]
    omega

theorem afterDelimiter?_eq_iff {ls rest : List Text} (h : rest ≠ []) :
    afterDelimiter? (ls ++ delimiter :: rest) = some (unlines rest) ↔ delimiter ∉ ls := by
  constructor
  · intro hafter hmem
    obtain ⟨before, behind, rfl, hbefore⟩ := List.eq_append_cons_of_mem hmem
    rw [List.append_assoc, List.cons_append, afterDelimiter?_append hbefore,
      Option.some.injEq] at hafter
    have hlength := length_unlines_lt behind delimiter h
    rw [hafter] at hlength
    exact Nat.lt_irrefl _ hlength
  · exact fun h => afterDelimiter?_append h rest

/-- The lines of a document: the block's, those of its entries between two delimiters, and the
Markdown's. -/
theorem lines_render_append {record : Record} (h : render record ≠ []) (t : Text) :
    (render record ++ t).lines =
      delimiter :: ((record.flatMap entryLines).flatMap lines ++ delimiter :: t.lines) := by
  have hdelimiter : delimiter.lines = [delimiter] := by decide
  unfold render at h ⊢
  split at h
  · exact absurd rfl h
  · rename_i hall
    rw [if_neg hall, lines_flatten_append, List.flatMap_append, List.flatMap_append,
      List.flatMap_singleton, hdelimiter]
    simp

theorem body?_render_append_iff {record : Record} (h : render record ≠ []) (t : Text) :
    body? (render record ++ t) = some t ↔ ∀ entry ∈ record, ¬ Breaks entry := by
  have hbody : body? (render record ++ t) =
      afterDelimiter? ((record.flatMap entryLines).flatMap lines ++ delimiter :: t.lines) := by
    rw [body?, lines_render_append h]
    rfl
  have hwhole :
      afterDelimiter? ((record.flatMap entryLines).flatMap lines ++ delimiter :: t.lines) = some t ↔
        delimiter ∉ (record.flatMap entryLines).flatMap lines := by
    rw [← afterDelimiter?_eq_iff (lines_ne_nil t), unlines_lines]
  rw [hbody, hwhole, List.flatMap_assoc, List.mem_flatMap]
  simp only [delimiter_mem_lines_entry_iff, not_exists, not_and]

end Frontmatter

/-- The record that a document starts with: the report is its last entry. -/
def printed (record : Record) : Option Word.Report → Record
  | some report => record.insert "parseReport" report.toValue
  | none => record

theorem ConvertedWord.document_eq {c : ConvertedWord} {record : Record}
    (h : c.frontmatter = some record) :
    c.document = Frontmatter.render (printed record c.report) ++ c.markdown := by
  unfold document
  rw [h]
  cases c.report <;> rfl

/-- A document that starts with a block: its first line is the delimiter, and the text behind the
next line that is one is the Markdown exactly if no printed entry brings such a line. -/
theorem body?_document_iff {c : ConvertedWord} {record : Record}
    (hrecord : c.frontmatter = some record)
    (hshown : Frontmatter.render (printed record c.report) ≠ []) :
    c.document.lines.head? = some Frontmatter.delimiter ∧
      (Frontmatter.body? c.document = some c.markdown ↔
        ∀ entry ∈ printed record c.report, ¬ Frontmatter.Breaks entry) := by
  rw [ConvertedWord.document_eq hrecord]
  constructor
  · rw [Frontmatter.lines_render_append hshown, List.head?_cons]
  · exact Frontmatter.body?_render_append_iff hshown c.markdown

/-- Dashes and newlines in every kind of entry, but no line of three dashes. -/
def dashedEntries : ConvertedWord :=
  convertSnapshot
    ⟨⟨.gfm, true, some [("tags", .list [.text "---\nx", .integer (-1)]),
      ("more", .object [("---", .text "x\n --- \ny")])], none⟩, true, .faithful⟩
    ⟨"<h1>a\n----\nb</h1>", some (Word.Report.ofSeen [.table] 0)⟩

theorem body?_document_dashedEntries :
    ∃ record, dashedEntries.frontmatter = some record ∧
      Frontmatter.render (printed record dashedEntries.report) ≠ [] ∧
      Frontmatter.body? dashedEntries.document = some dashedEntries.markdown := by
  obtain ⟨record, hrecord, hshown, hbreaks⟩ : ∃ record, dashedEntries.frontmatter = some record ∧
      Frontmatter.render (printed record dashedEntries.report) ≠ [] ∧
      ∀ entry ∈ printed record dashedEntries.report, ¬ Frontmatter.Breaks entry :=
    ⟨_, rfl, by decide +kernel, by decide +kernel⟩
  exact ⟨record, hrecord, hshown, (body?_document_iff hrecord hshown).2.mpr hbreaks⟩

def dashedTitle : ConvertedWord :=
  convertSnapshot ⟨⟨.gfm, true, none, none⟩, false, .faithful⟩ ⟨"<h1>a\n---\nb</h1>", none⟩

/-- A title with a line of three dashes closes the block, and the rest of it spills. -/
theorem body?_document_dashedTitle :
    dashedTitle.document.lines.head? = some Frontmatter.delimiter ∧
      Frontmatter.body? dashedTitle.document =
        some ("b\"\nwordCount: 3\nparagraphCount: 0\n---\n" ++ dashedTitle.markdown) ∧
      Frontmatter.body? dashedTitle.document ≠ some dashedTitle.markdown := by
  decide +kernel

end MarkdownExport
