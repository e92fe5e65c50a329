import MarkdownExport.Proofs.Markdown.NormalForm
import MarkdownExport.Proofs.Markdown.Rules
import MarkdownExport.Proofs.Text.Lines

/-! Quotes in quotes. Each quote trims what is written inside it and puts a mark in front of every
line, also of the empty ones. So the lines behind the marks of all quotes are those of the innermost
text, and no line is empty that the spacing of the document could take away. -/
namespace MarkdownExport.Markdown

/-- Quotes around a forest, the outermost first, each by its tag and its attributes. -/
def quotesAround : List (Text × List Attribute) → List Node → List Node
  | [], ns => ns
  | (tag, attributes) :: quotes, ns => [.element tag attributes (quotesAround quotes ns)]

/-- The marks of `k` quotes. -/
def quoteMarks (k : Nat) : Text := (List.replicate k ("> " : Text)).flatten

/-- A text with each line behind the marks of `k` quotes. -/
def quoted (k : Nat) (t : Text) : Text := Text.unlines (t.lines.map (quoteMarks k ++ ·))

/-- What `k` quotes around it were put on: the lines between the first and the last one, without
their marks. -/
def readQuote? (k : Nat) (document : Text) : Option Text :=
  (document.lines.tail.dropLast.mapM (Text.dropStart? (quoteMarks k))).map Text.unlines

/-! Lines and their marks. -/

theorem newline_notMem_marked (k : Nat) {line t : Text} (h : line ∈ t.lines) :
    '\n' ∉ quoteMarks k ++ line := by
  intro hmem
  rcases List.mem_append.mp hmem with hmem | hmem
  · obtain ⟨mark, hmark, hmem⟩ := List.mem_flatten.mp hmem
    rw [List.eq_of_mem_replicate hmark] at hmem
    exact absurd hmem (by decide)
  · exact Text.newline_notMem_of_mem_lines h hmem

theorem lines_quoted (k : Nat) (t : Text) :
    (quoted k t).lines = t.lines.map (quoteMarks k ++ ·) := by
  apply Text.lines_unlines
  · simp [Text.lines_ne_nil]
  · intro marked hmarked
    obtain ⟨line, hline, rfl⟩ := List.mem_map.mp hmarked
    exact newline_notMem_marked k hline

theorem quoted_zero (t : Text) : quoted 0 t = t := by
  have hlines : t.lines.map (quoteMarks 0 ++ ·) = t.lines := List.map_id _
  rw [quoted, hlines, Text.unlines_lines]

/-- One more quote. -/
theorem quoteLines_quoted (k : Nat) (t : Text) : quoteLines (quoted k t) = quoted (k + 1) t := by
  have hmarks : quoteMarks (k + 1) = "> " ++ quoteMarks k := by
    rw [quoteMarks, List.replicate_succ, List.flatten_cons, quoteMarks]
  rw [quoteLines, lines_quoted, List.map_map, quoted, hmarks]
  simp [Function.comp_def]

theorem quoted_append_singleton (k : Nat) (t : Text) {c : Char} (hc : c ≠ '\n') :
    quoted k (t ++ [c]) = quoted k t ++ [c] := by
  unfold quoted
  induction t using Text.lines_induction with
  | last l hl =>
    have hlc : '\n' ∉ l ++ [c] := by simp [hl, Ne.symm hc]
    rw [Text.lines_of_notMem hl, Text.lines_of_notMem hlc]
    simp [Text.unlines]
  | line l t hl ih =>
    have hne (s : Text) : s.lines.map (quoteMarks k ++ ·) ≠ [] := by simp [Text.lines_ne_nil]
    rw [List.append_assoc, List.cons_append, Text.lines_line hl, Text.lines_line hl, List.map_cons,
      List.map_cons, Text.unlines_cons (hne _), Text.unlines_cons (hne _), ih]
    simp

theorem exists_quoted_succ (k : Nat) (t : Text) : ∃ r, quoted (k + 1) t = '>' :: r := by
  obtain ⟨l, ls, hlines⟩ := List.exists_cons_of_ne_nil (Text.lines_ne_nil (quoted k t))
  rw [← quoteLines_quoted, quoteLines, hlines]
  by_cases hls : ls = []
  · exact ⟨' ' :: l, by rw [hls]; simp [Text.unlines]⟩
  · rw [List.map_cons, Text.unlines_cons (by simp [hls])]
    exact ⟨_, rfl⟩

theorem quoted_ne_nil {t : Text} (hne : t ≠ []) (k : Nat) : quoted k t ≠ [] := by
  cases k with
  | zero => rwa [quoted_zero]
  | succ k =>
    obtain ⟨r, hr⟩ := exists_quoted_succ k t
    rw [hr]
    exact List.cons_ne_nil _ _

/-- Marks leave nothing to trim where there was nothing to trim. -/
theorem isTrimmed_quoted {t : Text} (h : t.IsTrimmed) (hne : t ≠ []) (k : Nat) :
    (quoted k t).IsTrimmed := by
  constructor
  · intro c hc
    cases k with
    | zero =>
      rw [quoted_zero] at hc
      exact h.start c hc
    | succ k =>
      obtain ⟨r, hr⟩ := exists_quoted_succ k t
      rw [hr] at hc
      cases hc
      decide
  · intro c hc
    obtain ⟨s, d, rfl⟩ := t.eq_nil_or_concat.resolve_left hne
    have hd : isBlank d = false := h.ending d (by simp)
    rw [List.concat_eq_append, quoted_append_singleton k s (Text.ne_newline_of_not_isBlank hd),
      List.getLast?_concat] at hc
    cases hc
    exact hd

/-! Spacing. -/

theorem limitNewlines_line {l : Text} (hne : l ≠ []) (hl : '\n' ∉ l) (n : Nat) (t : Text) :
    limitNewlines n (l ++ t) = l ++ limitNewlines 0 t := by
  obtain ⟨c, r, rfl⟩ := List.exists_cons_of_ne_nil hne
  rw [List.mem_cons, not_or] at hl
  rw [List.cons_append, limitNewlines, if_neg (Ne.symm hl.1),
    limitNewlines_append_of_notMem hl.2, List.cons_append]

/-- Nothing is cut between lines of which none is empty. -/
theorem limitNewlines_unlines {ls : List Text} (h : ∀ l ∈ ls, l ≠ [] ∧ '\n' ∉ l) (n : Nat) :
    limitNewlines n (Text.unlines ls) = Text.unlines ls := by
  induction ls generalizing n with
  | nil => rfl
  | cons l ls ih =>
    rw [List.forall_mem_cons] at h
    obtain ⟨⟨hne, hl⟩, hls⟩ := h
    by_cases hnil : ls = []
    · have hlast := limitNewlines_line hne hl n []
      rw [limitNewlines, List.append_nil] at hlast
      rw [hnil]
      simpa [Text.unlines] using hlast
    · rw [Text.unlines_cons hnil, limitNewlines_line hne hl, limitNewlines, if_pos rfl,
        if_pos Nat.zero_lt_two, ih hls]

theorem limitNewlines_quoted_succ (k n : Nat) (t : Text) :
    limitNewlines n (quoted (k + 1) t) = quoted (k + 1) t := by
  apply limitNewlines_unlines
  intro marked hmarked
  obtain ⟨line, hline, rfl⟩ := List.mem_map.mp hmarked
  constructor
  · simp [quoteMarks, List.replicate_succ]
  · exact newline_notMem_marked _ hline

/-! Quotes. -/

/-- What a quote writes around a text. -/
def quoteBlock (t : Text) : Text :=
  if t.trim = [] then [] else "\n" ++ quoteLines t.trim ++ "\n\n"

theorem blockquote_eq (s : Subject) : blockquote s = quoteBlock s.block := by
  unfold blockquote quoteBlock
  split
  · next hnil => rw [if_pos hnil]
  · next hne => rw [if_neg hne]

theorem blockNode_blockquote (dialect : Dialect) {tag : Text} (htag : tag.lower = "blockquote")
    (attributes : List Attribute) (children : List Node) :
    blockNode dialect defaultRules (.element tag attributes children) =
      quoteBlock (blockAll dialect defaultRules children) := by
  rw [blockNode, htag]
  exact blockquote_eq (subject dialect tag attributes children)

/-- A quote around a text whose lines have marks already. -/
theorem quoteBlock_of_trim {s t : Text} {k : Nat} (hs : s.trim = quoted k t) (hne : t ≠ []) :
    quoteBlock s = '\n' :: quoted (k + 1) t ++ ['\n', '\n'] := by
  rw [quoteBlock, hs, if_neg (quoted_ne_nil hne k), quoteLines_quoted]
  rfl

theorem trim_between_newlines {t : Text} (h : t.IsTrimmed) :
    Text.trim ('\n' :: t ++ ['\n', '\n']) = t := by
  have hend : '\n' :: t ++ ['\n', '\n'] = '\n' :: ((t ++ ['\n']) ++ ['\n']) := by simp
  rw [hend, Text.trim_cons_blank isBlank_newline, Text.trim_append_blank _ isBlank_newline,
    Text.trim_append_blank _ isBlank_newline, h.trim_eq]

/-- The text that the innermost of some quotes is put on. -/
def quotedText (dialect : Dialect) (ns : List Node) : Text := (rawMarkdown dialect [] ns).trim

section Quotes
variable {dialect : Dialect} {quotes : List (Text × List Attribute)} {ns : List Node}

theorem blockAll_quotesAround_cons {quote : Text × List Attribute}
    (h : quote.1.lower = "blockquote") (ns : List Node) :
    blockAll dialect defaultRules (quotesAround (quote :: quotes) ns) =
      quoteBlock (blockAll dialect defaultRules (quotesAround quotes ns)) := by
  rw [quotesAround, blockAll_cons, blockNode_blockquote dialect h, blockAll_nil, List.append_nil]

/-- Quotes around a blank text are left out. -/
theorem trim_quotesAround_of_blank (h : ∀ quote ∈ quotes, quote.1.lower = "blockquote")
    (hblank : quotedText dialect ns = []) :
    (blockAll dialect defaultRules (quotesAround quotes ns)).trim = [] := by
  induction quotes with
  | nil => exact hblank
  | cons quote quotes ih =>
    rw [List.forall_mem_cons] at h
    rw [blockAll_quotesAround_cons h.1, quoteBlock, if_pos (ih h.2)]
    rfl

/-- Every quote adds its mark, and the newlines around it, which the next one trims. -/
theorem trim_quotesAround (h : ∀ quote ∈ quotes, quote.1.lower = "blockquote")
    (hne : quotedText dialect ns ≠ []) :
    (blockAll dialect defaultRules (quotesAround quotes ns)).trim =
      quoted quotes.length (quotedText dialect ns) := by
  induction quotes with
  | nil => exact (quoted_zero _).symm
  | cons quote quotes ih =>
    rw [List.forall_mem_cons] at h
    have htrimmed : (quoted (quotes.length + 1) (quotedText dialect ns)).IsTrimmed :=
      isTrimmed_quoted (Text.isTrimmed_trim _) hne _
    rw [blockAll_quotesAround_cons h.1, quoteBlock_of_trim (ih h.2) hne,
      trim_between_newlines htrimmed]
    rfl

/-- The spacing of a document touches nothing but the newline that is one too many at its end. -/
theorem normalize_quoted (k : Nat) {t : Text} (h : t.IsTrimmed) (hne : t ≠ []) :
    normalize ('\n' :: quoted (k + 1) t ++ ['\n', '\n']) =
      '\n' :: quoted (k + 1) t ++ ['\n'] := by
  obtain ⟨s, d, hs⟩ := (quoted (k + 1) t).eq_nil_or_concat.resolve_left (quoted_ne_nil hne _)
  have hd : isBlank d = false := by
    apply (isTrimmed_quoted h hne (k + 1)).ending
    rw [hs]
    simp
  have htrim : Text.trimEnd ('\n' :: quoted (k + 1) t ++ ['\n', '\n']) =
      '\n' :: quoted (k + 1) t := by
    have hnewlines : ∀ c ∈ ['\n', '\n'], isBlank c = true := by decide
    have hend := Text.trimEnd_append_cons hd ('\n' :: s) hnewlines
    rw [hs]
    simpa using hend
  rw [normalize_eq_limitNewlines_trimEnd, htrim, limitNewlines, if_pos rfl, if_pos Nat.zero_lt_two,
    limitNewlines_quoted_succ]

theorem readQuote?_quoted (k : Nat) (t : Text) :
    readQuote? k ('\n' :: quoted k t ++ ['\n']) = some t := by
  have hlines : Text.lines ('\n' :: quoted k t ++ ['\n']) =
      [] :: (t.lines.map (quoteMarks k ++ ·) ++ [[]]) := by
    have hstart := Text.lines_append_newline [] (quoted k t ++ ['\n'])
    have hend := Text.lines_append_newline (quoted k t) []
    rw [hend, lines_quoted] at hstart
    exact hstart
  have hmarks : (t.lines.map (quoteMarks k ++ ·)).mapM (Text.dropStart? (quoteMarks k)) =
      some (t.lines.map id) :=
    Text.mapM_map_eq_some fun line _ => Text.dropStart?_append (quoteMarks k) line
  rw [readQuote?, hlines, List.tail_cons, List.dropLast_concat, hmarks, List.map_id,
    Option.map_some, Text.unlines_lines]

/-- Quotes in quotes are written in the lines of the innermost text, each behind the marks of all
quotes, and nothing is written where there is no text. So the text is read back as it is, its empty
lines included. -/
theorem markdown_quotesAround (hquotes : quotes ≠ [])
    (h : ∀ quote ∈ quotes, quote.1.lower = "blockquote") :
    markdown dialect [] (quotesAround quotes ns) =
        (if quotedText dialect ns = [] then ['\n']
          else '\n' :: quoted quotes.length (quotedText dialect ns) ++ ['\n']) ∧
      readQuote? quotes.length (markdown dialect [] (quotesAround quotes ns)) =
        some (quotedText dialect ns) := by
  obtain ⟨quote, inner, rfl⟩ := List.exists_cons_of_ne_nil hquotes
  rw [List.forall_mem_cons] at h
  have hmarkdown : markdown dialect [] (quotesAround (quote :: inner) ns) =
      normalize (quoteBlock (blockAll dialect defaultRules (quotesAround inner ns))) :=
    congrArg normalize (blockAll_quotesAround_cons h.1 ns)
  by_cases hblank : quotedText dialect ns = []
  · rw [hmarkdown, quoteBlock, if_pos (trim_quotesAround_of_blank h.2 hblank), if_pos hblank,
      hblank]
    exact ⟨rfl, rfl⟩
  · have htrimmed : (quotedText dialect ns).IsTrimmed := Text.isTrimmed_trim _
    rw [hmarkdown, quoteBlock_of_trim (trim_quotesAround h.2 hblank) hblank,
      normalize_quoted _ htrimmed hblank, if_neg hblank]
    exact ⟨rfl, readQuote?_quoted _ _⟩

end Quotes

/-- Empty lines in the text, and one at either end. -/
theorem markdown_quotesAround_emptyLines :
    let quotes : List (Text × List Attribute) := [("blockquote", []), ("BlockQuote", [⟨"id", "q"⟩])]
    let ns : List Node := [.text " \n", .element "p" [] [.text "a"],
      .element "pre" [] [.text "b\n\n\nc"], .comment "d", .element "p" [] []]
    quotes ≠ [] ∧ (∀ quote ∈ quotes, quote.1.lower = "blockquote") ∧
      markdown .standard [] (quotesAround quotes ns) =
        "\n> > a\n> > \n> > \n> > \x60\x60\x60\n> > b\n> > \n> > \n> > c\n> > \x60\x60\x60\n" ∧
      readQuote? 2 (markdown .standard [] (quotesAround quotes ns)) =
        some "a\n\n\n\x60\x60\x60\nb\n\n\nc\n\x60\x60\x60" := by
  intro quotes ns
  have hquotes : quotes ≠ [] := List.cons_ne_nil _ _
  have htags : ∀ quote ∈ quotes, quote.1.lower = "blockquote" := by decide
  have hmarkdown (dialect : Dialect) := @markdown_quotesAround dialect quotes ns hquotes htags
  obtain ⟨htext, hread⟩ := hmarkdown .standard
  refine ⟨hquotes, htags, htext.trans ?_, hread.trans ?_⟩
  · decide +kernel
  · decide +kernel

end MarkdownExport.Markdown
