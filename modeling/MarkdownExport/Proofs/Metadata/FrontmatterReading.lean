import MarkdownExport.Proofs.Metadata.QuotedLines
import MarkdownExport.Proofs.Text.Basic

/-! Reading a frontmatter block back, line by line: texts behind their keys, items and fields below
theirs. The block escapes quotes and no backslashes, and a record is read from nothing shorter than
its own lines with both escaped, so it is read back exactly if no text of it has a backslash. -/
namespace MarkdownExport.Frontmatter
open Text

/-! What lines mean. -/

inductive Row where
  | text (key content : Text)
  | key (key : Text)
  | item (content : Text)
  | field (key content : Text)
  deriving DecidableEq, Repr

def IsWord (t : Text) : Prop := t ≠ [] ∧ ∀ c ∈ t, c.isAlpha = true

/-- The word in front of `tail`. -/
def wordBefore? (tail t : Text) : Option Text :=
  let (word, rest) := t.span Char.isAlpha
  if word ≠ [] ∧ rest = tail then some word else none

namespace Row

def line : Row → Line
  | text k t => ⟨k ++ ": ", some t⟩
  | key k => ⟨k ++ ":", none⟩
  | item t => ⟨"  - ", some t⟩
  | field k t => ⟨"  " ++ (k ++ ": "), some t⟩

def ofLine? (l : Line) : Option Row :=
  match l.content with
  | none => (wordBefore? ":" l.head).map key
  | some t =>
    if l.head = "  - ".toList then some (item t)
    else match dropStart? "  " l.head with
      | some head => (wordBefore? ": " head).map (field · t)
      | none => (wordBefore? ": " l.head).map (text · t)

/-- A row in front of others: the list or object that still needs its key, and the entries behind
it. -/
def before? (row : Row) (below : Option Value) (record : Record) :
    Option (Option Value × Record) :=
  match row, below with
  | text k t, none => some (none, (k, .text t) :: record)
  | key k, some (.list items) => some (none, (k, .list items) :: record)
  | key k, some (.object fields) => some (none, (k, .object fields) :: record)
  | item t, none => some (some (.list [.text t]), record)
  | item t, some (.list items) => some (some (.list (.text t :: items)), record)
  | field k t, none => some (some (.object [(k, .text t)]), record)
  | field k t, some (.object fields) => some (some (.object ((k, .text t) :: fields)), record)
  | _, _ => none

def group? : List Row → Option (Option Value × Record)
  | [] => some (none, [])
  | row :: rows =>
    match group? rows with
    | some (below, record) => row.before? below record
    | none => none

end Row

def fence : Line := ⟨delimiter, none⟩

/-- What stands between the first line and the last one. -/
def inner? (ls : List Line) : Option (List Line) :=
  match ls with
  | first :: rest => if first = fence ∧ rest.getLast? = some fence then some rest.dropLast else none
  | [] => none

/-- The record that a block is read as. -/
def read? (block : Text) : Option Record := do
  let ls ← readLines? block
  let inner ← inner? ls
  let rows ← inner.mapM Row.ofLine?
  match Row.group? rows with
  | some (none, record) => some record
  | _ => none

/-! Records of texts, and of lists and objects of texts. -/

def contentOf : Value → Text
  | .text t => t
  | _ => []

/-- The texts of a value that stand in quotes. -/
def contents : Value → List Text
  | .text t => [t]
  | .list items => items.map contentOf
  | .object fields => fields.map fun field => contentOf field.2
  | _ => []

def IsText : Value → Prop
  | .text _ => True
  | _ => False

/-- A text, or a list or an object of texts that is not empty. -/
def IsFlat : Value → Prop
  | .text _ => True
  | .list items => items ≠ [] ∧ ∀ v ∈ items, IsText v
  | .object fields => fields ≠ [] ∧ ∀ field ∈ fields, IsWord field.1 ∧ IsText field.2
  | _ => False

instance : DecidablePred IsWord := fun t =>
  inferInstanceAs (Decidable (t ≠ [] ∧ ∀ c ∈ t, c.isAlpha = true))

instance : DecidablePred IsText := fun v =>
  match v with
  | .text _ => inferInstanceAs (Decidable True)
  | .null | .bool _ | .integer _ | .float _ | .list _ | .object _ =>
    inferInstanceAs (Decidable False)

instance : DecidablePred IsFlat := fun v =>
  match v with
  | .text _ => inferInstanceAs (Decidable True)
  | .list items => inferInstanceAs (Decidable (items ≠ [] ∧ ∀ v ∈ items, IsText v))
  | .object fields => inferInstanceAs (Decidable
      (fields ≠ [] ∧ ∀ field ∈ fields, IsWord field.1 ∧ IsText field.2))
  | .null | .bool _ | .integer _ | .float _ => inferInstanceAs (Decidable False)

theorem eq_text_of_isText {v : Value} (h : IsText v) : v = .text (contentOf v) := by
  cases v with
  | text t => rfl
  | _ => exact h.elim

def rowsBelow : Value → List Row
  | .list items => items.map fun v => .item (contentOf v)
  | .object fields => fields.map fun field => .field field.1 (contentOf field.2)
  | _ => []

def entryRows (entry : Text × Value) : List Row :=
  match entry.2 with
  | .text t => [.text entry.1 t]
  | v => .key entry.1 :: rowsBelow v

def blockLines (record : Record) : List Line :=
  fence :: ((record.flatMap entryRows).map Row.line ++ [fence])

/-! Lines and rows. -/

theorem wordBefore?_append {word : Text} (h : IsWord word) (tail : Text)
    (htail : ∀ c ∈ tail.head?, c.isAlpha = false) :
    wordBefore? tail (word ++ tail) = some word := by
  unfold wordBefore?
  rw [List.span_eq_takeWhile_dropWhile, takeWhile_run h.2 htail, dropWhile_run h.2 htail]
  exact if_pos ⟨h.1, rfl⟩

theorem eq_of_wordBefore? {word tail t : Text} (h : wordBefore? tail t = some word) :
    t = word ++ tail := by
  unfold wordBefore? at h
  rw [List.span_eq_takeWhile_dropWhile] at h
  obtain ⟨⟨-, rfl⟩, hword⟩ := Option.ite_none_right_eq_some.mp h
  cases hword
  exact List.takeWhile_append_dropWhile.symm

namespace Row

/-- Keys are words. -/
def IsSpelled : Row → Prop
  | text k _ | key k | field k _ => IsWord k
  | item _ => True

theorem ofLine?_line {row : Row} (h : row.IsSpelled) : ofLine? row.line = some row := by
  cases row with
  | text k t =>
    obtain ⟨c, k, rfl⟩ := List.exists_cons_of_ne_nil h.1
    have hc : ' ' ≠ c := by
      rintro rfl
      exact absurd (h.2 ' ' List.mem_cons_self) (by decide)
    have hitem : (c :: k) ++ ": ".toList ≠ "  - ".toList := fun h => hc (List.cons.inj h).1.symm
    have hfield : dropStart? "  " ((c :: k) ++ ": ".toList) = none := if_neg hc
    have hword := wordBefore?_append h ": " (by rintro _ ⟨⟩; rfl)
    simp only [line, ofLine?, if_neg hitem, hfield, hword, Option.map_some]
  | key k =>
    have hword := wordBefore?_append h ":" (by rintro _ ⟨⟩; rfl)
    simp only [line, ofLine?, hword, Option.map_some]
  | item t => rfl
  | field k t =>
    obtain ⟨c, k, rfl⟩ := List.exists_cons_of_ne_nil h.1
    have hc : c ≠ '-' := by
      rintro rfl
      exact absurd (h.2 '-' List.mem_cons_self) (by decide)
    have hitem : "  ".toList ++ ((c :: k) ++ ": ".toList) ≠ "  - ".toList := fun h =>
      hc (List.cons.inj (List.cons.inj (List.cons.inj h).2).2).1
    have hfield : dropStart? "  " ("  ".toList ++ ((c :: k) ++ ": ".toList)) =
        some ((c :: k) ++ ": ".toList) := dropStart?_append _ _
    have hword := wordBefore?_append h ": " (by rintro _ ⟨⟩; rfl)
    simp only [line, ofLine?, if_neg hitem, hfield, hword, Option.map_some]

theorem line_of_ofLine? {l : Line} {row : Row} (h : ofLine? l = some row) : row.line = l := by
  obtain ⟨head, content⟩ := l
  cases content with
  | none =>
    obtain ⟨k, hk, rfl⟩ := Option.map_eq_some_iff.mp h
    have hhead := eq_of_wordBefore? hk
    dsimp only at hhead
    rw [hhead]
    rfl
  | some t =>
    simp only [ofLine?] at h
    split at h
    next hitem =>
      cases h
      rw [hitem]
      rfl
    next =>
      split at h
      next rest hrest =>
        obtain ⟨k, hk, rfl⟩ := Option.map_eq_some_iff.mp h
        rw [dropStart?_eq_some hrest, eq_of_wordBefore? hk]
        rfl
      next =>
        obtain ⟨k, hk, rfl⟩ := Option.map_eq_some_iff.mp h
        rw [eq_of_wordBefore? hk]
        rfl

theorem map_line_of_mapM {ls : List Line} {rows : List Row} (h : ls.mapM ofLine? = some rows) :
    rows.map line = ls := by
  induction ls generalizing rows with
  | nil =>
    cases h
    rfl
  | cons l ls ih =>
    rw [List.mapM_cons] at h
    obtain ⟨row, hrow, h⟩ := Option.bind_eq_some_iff.mp h
    obtain ⟨rest, hrest, h⟩ := Option.bind_eq_some_iff.mp h
    cases h
    rw [List.map_cons, line_of_ofLine? hrow, ih hrest]

/-! Rows and records. -/

/-- Rows are grouped to what they were made of, and to nothing else. -/
theorem eq_of_group? {rows : List Row} {below : Option Value} {record : Record}
    (h : group? rows = some (below, record)) :
    rows = below.elim [] rowsBelow ++ record.flatMap entryRows := by
  induction rows generalizing below record with
  | nil =>
    cases h
    rfl
  | cons row rows ih =>
    rw [group?] at h
    split at h
    next below' record' hrows =>
      have hrest := ih hrows
      unfold before? at h
      split at h
      all_goals
        cases h
        try rw [hrest]
        try rfl
    next => cases h

theorem group?_items {items : List Value} (hne : items ≠ []) (h : ∀ v ∈ items, IsText v)
    {rows : List Row} {record : Record} (hrows : group? rows = some (none, record)) :
    group? (items.map (fun v => .item (contentOf v)) ++ rows) =
      some (some (.list items), record) := by
  induction items with
  | nil => contradiction
  | cons v items ih =>
    rw [List.forall_mem_cons] at h
    have hv := eq_text_of_isText h.1
    rw [List.map_cons, List.cons_append, group?]
    cases items with
    | nil =>
      rw [List.map_nil, List.nil_append, hrows]
      simp only [before?, ← hv]
    | cons w items =>
      rw [ih (List.cons_ne_nil w items) h.2]
      simp only [before?, ← hv]

theorem group?_fields {fields : List (Text × Value)} (hne : fields ≠ [])
    (h : ∀ field ∈ fields, IsText field.2) {rows : List Row} {record : Record}
    (hrows : group? rows = some (none, record)) :
    group? (fields.map (fun field => .field field.1 (contentOf field.2)) ++ rows) =
      some (some (.object fields), record) := by
  induction fields with
  | nil => contradiction
  | cons field fields ih =>
    rw [List.forall_mem_cons] at h
    have hv := eq_text_of_isText h.1
    rw [List.map_cons, List.cons_append, group?]
    cases fields with
    | nil =>
      rw [List.map_nil, List.nil_append, hrows]
      simp only [before?, ← hv]
    | cons field' fields =>
      rw [ih (List.cons_ne_nil field' fields) h.2]
      simp only [before?, ← hv]

theorem group?_entry {entry : Text × Value} (h : IsFlat entry.2) {rows : List Row}
    {record : Record} (hrows : group? rows = some (none, record)) :
    group? (entryRows entry ++ rows) = some (none, entry :: record) := by
  obtain ⟨k, v⟩ := entry
  cases v with
  | text t =>
    rw [entryRows, List.singleton_append, group?, hrows]
    rfl
  | list items =>
    have hitems := group?_items h.1 h.2 hrows
    change group? (.key k :: (rowsBelow (.list items) ++ rows)) = _
    rw [group?, rowsBelow, hitems]
    rfl
  | object fields =>
    have hfields := group?_fields h.1 (fun field hfield => (h.2 field hfield).2) hrows
    change group? (.key k :: (rowsBelow (.object fields) ++ rows)) = _
    rw [group?, rowsBelow, hfields]
    rfl
  | null | bool b | integer z | float x => exact h.elim

theorem group?_record {record : Record} (h : ∀ entry ∈ record, IsFlat entry.2) :
    group? (record.flatMap entryRows) = some (none, record) := by
  induction record with
  | nil => rfl
  | cons entry record ih =>
    rw [List.forall_mem_cons] at h
    rw [List.flatMap_cons]
    exact group?_entry h.1 (ih h.2)

theorem isSpelled_of_mem {entry : Text × Value} (hkey : IsWord entry.1) (h : IsFlat entry.2)
    {row : Row} (hrow : row ∈ entryRows entry) : row.IsSpelled := by
  obtain ⟨k, v⟩ := entry
  cases v with
  | text t =>
    cases List.mem_singleton.mp hrow
    exact hkey
  | list items =>
    rcases List.mem_cons.mp hrow with rfl | hrow
    · exact hkey
    · obtain ⟨v, -, rfl⟩ := List.mem_map.mp hrow
      exact trivial
  | object fields =>
    rcases List.mem_cons.mp hrow with rfl | hrow
    · exact hkey
    · obtain ⟨field, hfield, rfl⟩ := List.mem_map.mp hrow
      exact (h.2 field hfield).1
  | null | bool b | integer z | float x => exact h.elim

end Row

theorem inner?_fence (ls : List Line) : inner? (fence :: (ls ++ [fence])) = some ls := by
  simp [inner?]

theorem eq_of_inner? {ls inner : List Line} (h : inner? ls = some inner) :
    ls = fence :: (inner ++ [fence]) := by
  unfold inner? at h
  split at h
  · obtain ⟨⟨rfl, hlast⟩, hinner⟩ := Option.ite_none_right_eq_some.mp h
    cases hinner
    rw [List.dropLast_append_getLast? _ hlast]
  · cases h

/-- Flat records are read from their own lines only. -/
theorem read?_eq_some_iff {record : Record} (h : ∀ entry ∈ record, IsWord entry.1 ∧ IsFlat entry.2)
    (t : Text) : read? t = some record ↔ readLines? t = some (blockLines record) := by
  constructor
  · intro hread
    obtain ⟨ls, hls, hread⟩ := Option.bind_eq_some_iff.mp hread
    obtain ⟨inner, hinner, hread⟩ := Option.bind_eq_some_iff.mp hread
    obtain ⟨rows, hrows, hread⟩ := Option.bind_eq_some_iff.mp hread
    split at hread
    next record' hgroup =>
      cases hread
      have hrecord := Row.eq_of_group? hgroup
      rw [Option.elim_none, List.nil_append] at hrecord
      rw [hls, eq_of_inner? hinner, ← Row.map_line_of_mapM hrows, hrecord]
      rfl
    next => cases hread
  · intro hls
    have hspelled : ∀ row ∈ record.flatMap entryRows, Row.ofLine? row.line = some row := by
      intro row hrow
      obtain ⟨entry, hentry, hrow⟩ := List.mem_flatMap.mp hrow
      exact Row.ofLine?_line (Row.isSpelled_of_mem (h entry hentry).1 (h entry hentry).2 hrow)
    have hrows := mapM_map_eq_some (h := id) hspelled
    rw [List.map_id] at hrows
    have hgroup := Row.group?_record fun entry hentry => (h entry hentry).2
    simp only [read?, hls, blockLines, Option.bind_eq_bind, Option.bind_some, inner?_fence, hrows,
      hgroup]

/-! The block as it is written. -/

theorem entryLines_eq {entry : Text × Value} (h : IsFlat entry.2) :
    (entryLines entry).map (· ++ ['\n']) =
      (entryRows entry).map fun row => row.line.written quoteEscape := by
  have hliteral {v : Value} (hv : IsText v) : literal v = quoteWith quoteEscape (contentOf v) := by
    rw [eq_text_of_isText hv]
    rfl
  obtain ⟨k, v⟩ := entry
  cases v with
  | text t =>
    have ht : literal (.text t) = quoteWith quoteEscape t := rfl
    simp [entryLines, entryRows, Row.line, Line.written, ht]
  | list items =>
    have hitems : items.map (fun v => itemLine v ++ ['\n']) =
        items.map fun v => (Row.item (contentOf v)).line.written quoteEscape :=
      List.map_congr_left fun v hv => by
        rw [itemLine, hliteral (h.2 v hv)]
        rfl
    simp only [entryLines, entryRows, rowsBelow, List.map_cons, List.map_map, Function.comp_def,
      hitems]
    simp [Row.line, Line.written]
  | object fields =>
    have hfields : fields.map (fun field => fieldLine field ++ ['\n']) =
        fields.map fun field =>
          (Row.field field.1 (contentOf field.2)).line.written quoteEscape :=
      List.map_congr_left fun field hfield => by
        rw [fieldLine, hliteral (h.2 field hfield).2]
        simp [Row.line, Line.written]
    simp only [entryLines, entryRows, rowsBelow, List.map_cons, List.map_map, Function.comp_def,
      hfields]
    simp [Row.line, Line.written]
  | null | bool b | integer z | float x => exact h.elim

theorem isNull_of_isFlat {v : Value} (h : IsFlat v) : v.isNull = false := by
  cases v with
  | null => exact h.elim
  | _ => rfl

theorem render_eq {record : Record} (hne : record ≠ []) (h : ∀ entry ∈ record, IsFlat entry.2) :
    render record = (blockLines record).flatMap (Line.written quoteEscape) := by
  obtain ⟨shown, hmem⟩ := List.exists_mem_of_ne_nil record hne
  have hshown : (record.all fun entry => entry.2.isNull) ≠ true := by
    intro hall
    have hnull := List.all_eq_true.mp hall shown hmem
    rw [isNull_of_isFlat (h shown hmem)] at hnull
    cases hnull
  have hentries : (record.flatMap entryLines).map (· ++ ['\n']) =
      ((record.flatMap entryRows).map Row.line).map (Line.written quoteEscape) := by
    rw [List.map_flatMap, List.map_map, List.map_flatMap]
    exact List.flatMap_congr fun entry hentry => entryLines_eq (h entry hentry)
  have hfence : fence.written quoteEscape = delimiter ++ ['\n'] := rfl
  rw [render, if_neg hshown, List.map_append, List.map_append, hentries, List.map_singleton,
    List.flatten_append, List.flatten_append, List.flatten_singleton, ← List.flatMap_def,
    blockLines, List.flatMap_cons, List.flatMap_append, List.flatMap_singleton, hfence]
  exact List.append_assoc _ _ _

theorem blockLines_contents (record : Record) :
    (blockLines record).filterMap Line.content = record.flatMap fun entry => contents entry.2 := by
  have hentry (entry : Text × Value) :
      (entryRows entry).filterMap (fun row => row.line.content) = contents entry.2 := by
    obtain ⟨k, v⟩ := entry
    cases v with
    | list items | object fields =>
      simp [entryRows, rowsBelow, contents, Row.line, List.filterMap_map]
    | _ => rfl
  rw [blockLines, List.filterMap_cons_none rfl, List.filterMap_append, List.filterMap_map,
    List.filterMap_flatMap]
  simp only [Function.comp_def, hentry]
  exact List.append_nil _

/-- Neither a newline nor a quote stands in front of quotes. -/
theorem Row.plain_line {row : Row} (h : row.IsSpelled) :
    ∀ c ∈ row.line.head, c ≠ '\n' ∧ c ≠ '"' := by
  have hword {k : Text} (hk : IsWord k) : ∀ c ∈ k, c ≠ '\n' ∧ c ≠ '"' := by
    intro c hc
    have hletter := hk.2 c hc
    constructor
    · rintro rfl
      exact absurd hletter (by decide)
    · rintro rfl
      exact absurd hletter (by decide)
  cases row with
  | item t => exact (by decide : ∀ c ∈ "  - ".toList, c ≠ '\n' ∧ c ≠ '"')
  | text k t | key k => exact List.forall_mem_append.mpr ⟨hword h, by decide⟩
  | field k t =>
    exact List.forall_mem_append.mpr ⟨by decide, List.forall_mem_append.mpr ⟨hword h, by decide⟩⟩

theorem readLines?_blockLines {record : Record}
    (h : ∀ entry ∈ record, IsWord entry.1 ∧ IsFlat entry.2) :
    readLines? ((blockLines record).flatMap (Line.written literalEscape)) =
      some (blockLines record) := by
  refine readLines?_written fun l hl => ?_
  have hfence : ∀ c ∈ fence.head, c ≠ '\n' ∧ c ≠ '"' := by decide
  rcases List.mem_cons.mp hl with rfl | hl
  · exact hfence
  · rcases List.mem_append.mp hl with hl | hl
    · obtain ⟨row, hrow, rfl⟩ := List.mem_map.mp hl
      obtain ⟨entry, hentry, hrow⟩ := List.mem_flatMap.mp hrow
      exact Row.plain_line (Row.isSpelled_of_mem (h entry hentry).1 (h entry hentry).2 hrow)
    · obtain rfl := List.mem_singleton.mp hl
      exact hfence

/-- A record of texts, and of lists and objects of texts that are not empty, under keys that are
words is read back from its block exactly if none of its texts has a backslash. -/
theorem read?_render {record : Record} (hne : record ≠ [])
    (h : ∀ entry ∈ record, IsWord entry.1 ∧ IsFlat entry.2) :
    read? (render record) = some record ↔
      ∀ entry ∈ record, ∀ t ∈ contents entry.2, '\\' ∉ t := by
  have hrender := render_eq hne fun entry hentry => (h entry hentry).2
  have hcontents := blockLines_contents record
  rw [read?_eq_some_iff h, hrender]
  constructor
  · intro hread
    have hlength := length_written_le hread
    rw [length_written] at hlength
    have hcount : ((blockLines record).filterMap Line.content).flatten.count '\\' = 0 := by omega
    intro entry hentry t ht hslash
    refine List.count_eq_zero.mp hcount (List.mem_flatten.mpr ⟨t, ?_, hslash⟩)
    rw [hcontents]
    exact List.mem_flatMap.mpr ⟨entry, hentry, ht⟩
  · intro hplain
    have hlines : (blockLines record).flatMap (Line.written quoteEscape) =
        (blockLines record).flatMap (Line.written literalEscape) := by
      refine List.flatMap_congr fun l hl => written_congr fun t ht => ?_
      have hmem : t ∈ (blockLines record).filterMap Line.content :=
        List.mem_filterMap.mpr ⟨l, hl, ht⟩
      rw [hcontents] at hmem
      obtain ⟨entry, hentry, ht⟩ := List.mem_flatMap.mp hmem
      exact hplain entry hentry t ht
    rw [hlines, readLines?_blockLines h]

/-- Quotes in a row, line breaks, a line of three dashes and text that looks like a field. -/
def quotedTexts : Record :=
  [("title", .text "a \"\"b\"\n---\n\""), ("tags", .list [.text "", .text "\"\n  - \"x"]),
    ("more", .object [("key", .text "x: \"y\""), ("other", .text "\n")])]

theorem read?_render_quotedTexts :
    quotedTexts ≠ [] ∧ (∀ entry ∈ quotedTexts, IsWord entry.1 ∧ IsFlat entry.2) ∧
      read? (render quotedTexts) = some quotedTexts := by
  have hne : quotedTexts ≠ [] := List.cons_ne_nil _ _
  have hflat : ∀ entry ∈ quotedTexts, IsWord entry.1 ∧ IsFlat entry.2 := by decide
  have hslash : ∀ entry ∈ quotedTexts, ∀ t ∈ contents entry.2, '\\' ∉ t := by decide
  exact ⟨hne, hflat, (read?_render hne hflat).mpr hslash⟩

/-- What a backslash stands in front of stays and the backslash goes, and a quote behind it does not
end its text. -/
theorem read?_render_backslash :
    let inside : Record := [("path", .text "a\\b")]
    let lost : Record := [("path", .text "ab")]
    let last : Record := [("path", .text "a\\")]
    read? (render inside) = some lost ∧ read? (render inside) ≠ some inside ∧
      read? (render last) = none := by
  intro inside lost last
  have hlost : read? (render inside) = some lost := rfl
  refine ⟨hlost, ?_, rfl⟩
  rw [hlost]
  simp [lost, inside]

end MarkdownExport.Frontmatter
