import MarkdownExport.Proofs.Markdown.NormalForm
import MarkdownExport.Proofs.Markdown.Rules
import MarkdownExport.Proofs.Text.Lines

/-! Reading a block of code back from a finished document. The rules write its text between fences
as it is, and the spacing of the whole document is normalized behind them. So runs of newlines come
back as two, and a line of backticks in the text ends the block. -/
namespace MarkdownExport.Markdown

def fence : Text := "\x60\x60\x60"

def opensFence (line : Text) : Bool := line.startsWith fence

/-- A closing line is made of three or more backticks. -/
def closesFence (line : Text) : Bool := 3 ≤ line.length && line.all (· = '\x60')

/-- The text of the first block of code: the lines between the first line that opens a block and the
first line behind it that closes one. -/
def readFence? (t : Text) : Option Text :=
  match t.lines.dropWhile fun line => !opensFence line with
  | [] => none
  | _ :: ls =>
    if ls.any closesFence then some (Text.unlines (ls.takeWhile fun line => !closesFence line))
    else none

/-- Elements that are written between fences: preformatted text, in a language of one line, and
tables where the dialect has none. -/
def IsFenced (dialect : Dialect) (tag : Text) (attributes : List Attribute) : Prop :=
  (tag.lower = "pre" ∧ ∀ language ∈ Attribute.find? "data-lang" attributes, '\n' ∉ language) ∨
    (dialect = .standard ∧ tag.lower = "table")

/-- The text with the newlines that stand at the fences. -/
def betweenFences (t : Text) : Text := '\n' :: t ++ ['\n']

def fencedBlock (before language shown after : Text) : Text :=
  before ++ fence ++ (language ++ (shown ++ fence ++ after))

/-! Spacing. -/

theorem limitNewlines_sublist (n : Nat) (t : Text) : (limitNewlines n t).Sublist t := by
  induction t generalizing n with
  | nil => exact List.Sublist.refl _
  | cons c t ih =>
    unfold limitNewlines
    split_ifs
    · exact (ih (n + 1)).cons_cons c
    · exact (ih n).cons c
    · exact (ih 0).cons_cons c

/-- A newline at the end is kept, if the run before the text leaves room for one. -/
theorem exists_limitNewlines_append_newline {n : Nat} (hn : n < 2) (t : Text) :
    ∃ s, limitNewlines n (t ++ ['\n']) = s ++ ['\n'] := by
  induction t using newlines_induction generalizing n with
  | newlines k =>
    rw [← List.replicate_succ', ← List.append_nil (List.replicate _ _),
      limitNewlines_newlines_append (Nat.le_of_lt hn)]
    obtain ⟨m, hm⟩ : ∃ m, min (k + 1) (2 - n) = m + 1 := ⟨min k (1 - n), by omega⟩
    rw [hm, List.replicate_succ', limitNewlines, List.append_nil]
    exact ⟨_, rfl⟩
  | other s c u hc hs hu =>
    obtain ⟨v, hv⟩ := hu (Nat.zero_lt_two)
    rw [List.append_assoc, List.cons_append, limitNewlines_append_cons hc, hv]
    exact ⟨limitNewlines n s ++ c :: v, by simp⟩

theorem exists_shortenRuns_betweenFences (t : Text) :
    ∃ shown, shortenRuns (betweenFences t) = betweenFences shown := by
  obtain ⟨shown, hshown⟩ := exists_limitNewlines_append_newline Nat.one_lt_two t
  refine ⟨shown, ?_⟩
  rw [← limitNewlines_eq_shortenRuns, betweenFences, List.cons_append, limitNewlines, if_pos rfl,
    if_pos Nat.zero_lt_two, hshown]
  rfl

/-- A fence parts the newlines before it from those behind it. -/
theorem limitNewlines_fence (s t : Text) :
    limitNewlines 0 (s ++ fence ++ t) = limitNewlines 0 s ++ fence ++ limitNewlines 0 t := by
  have hfence (u v : Text) : u ++ fence ++ v = u ++ '\x60' :: (['\x60', '\x60'] ++ v) := by
    rw [List.append_assoc]
    rfl
  rw [hfence, hfence, limitNewlines_append_cons (by decide),
    limitNewlines_append_of_notMem (by decide)]

/-- What the rules write, with `before` in front of it. -/
theorem exists_rawMarkdown_fenced {dialect : Dialect} {tag : Text} {attributes : List Attribute}
    (h : IsFenced dialect tag attributes) (children : List Node) :
    ∃ before language : Text, (before = [] ∨ before = ['\n']) ∧ '\n' ∉ language ∧
      rawMarkdown dialect [] [.element tag attributes children] =
        fencedBlock before language (betweenFences (Node.textOf children)) ['\n', '\n'] := by
  have hblock : rawMarkdown dialect [] [.element tag attributes children] =
      blockNode dialect defaultRules (.element tag attributes children) :=
    (blockAll_cons dialect defaultRules _ []).trans (List.append_nil _)
  rw [hblock, blockNode]
  rcases h with ⟨htag, hlanguage⟩ | ⟨rfl, htag⟩
  · refine ⟨['\n'], (Attribute.find? "data-lang" attributes).getD [], Or.inr rfl, ?_, ?_⟩
    · cases hfound : Attribute.find? "data-lang" attributes with
      | none => exact List.not_mem_nil
      | some language => exact hlanguage language hfound
    · rw [htag]
      show "\n\x60\x60\x60" ++ (Attribute.find? "data-lang" attributes).getD [] ++ "\n" ++
        Node.textOf children ++ "\n\x60\x60\x60\n\n" = _
      simp [fencedBlock, fence, betweenFences]
  · refine ⟨[], [], Or.inl rfl, List.not_mem_nil, ?_⟩
    rw [htag]
    show "\x60\x60\x60\n" ++ Node.textOf children ++ "\n\x60\x60\x60\n\n" = _
    simp [fencedBlock, fence, betweenFences]

theorem trimEnd_fencedBlock (before language shown : Text) :
    Text.trimEnd (fencedBlock before language shown ['\n', '\n']) =
      fencedBlock before language shown [] := by
  have hblock (after : Text) : fencedBlock before language shown after =
      (before ++ fence ++ language ++ shown ++ ['\x60', '\x60']) ++ '\x60' :: after := by
    simp [fencedBlock, fence]
  rw [hblock, hblock, Text.trimEnd_append_cons (by decide) _ (by decide)]

theorem normalize_fencedBlock {before language : Text} (hbefore : before = [] ∨ before = ['\n'])
    (hlanguage : '\n' ∉ language) (t : Text) :
    normalize (fencedBlock before language (betweenFences t) ['\n', '\n']) =
      fencedBlock before language (shortenRuns (betweenFences t)) ['\n'] := by
  have hstart : limitNewlines 0 before = before := by
    rcases hbefore with rfl | rfl <;> rfl
  have hend : limitNewlines 0 ['\n', '\n'] = ['\n', '\n'] := rfl
  have hlimit : limitNewlines 0 (fencedBlock before language (betweenFences t) ['\n', '\n']) =
      fencedBlock before language (shortenRuns (betweenFences t)) ['\n', '\n'] := by
    rw [fencedBlock, limitNewlines_fence, hstart, limitNewlines_append_of_notMem hlanguage,
      limitNewlines_fence, limitNewlines_eq_shortenRuns, hend]
    rfl
  rw [normalize, hlimit, trimEnd_fencedBlock]
  simp [fencedBlock]

/-! Reading. -/

theorem closesFence_fence : closesFence fence = true := by decide

theorem opensFence_fence_append (language : Text) : opensFence (fence ++ language) = true := by
  rw [opensFence, Text.startsWith, Text.dropStart?_append]
  rfl

theorem takeWhile_append_cons {α : Type} {p : α → Bool} {x : α} (hx : ¬ p x = true)
    (xs ys : List α) : (xs ++ x :: ys).takeWhile p = xs.takeWhile p := by
  induction xs with
  | nil => exact List.takeWhile_cons_of_neg hx
  | cons y xs ih => rw [List.cons_append, List.takeWhile_cons, List.takeWhile_cons, ih]

theorem lines_fencedBlock {language : Text} (hlanguage : '\n' ∉ language) (shown : Text) :
    (fencedBlock [] language (betweenFences shown) ['\n']).lines =
      (fence ++ language) :: (shown.lines ++ [fence, []]) := by
  have hopening : '\n' ∉ fence ++ language := by
    rw [List.mem_append, not_or]
    exact ⟨by decide, hlanguage⟩
  have hblock : fencedBlock [] language (betweenFences shown) ['\n'] =
      (fence ++ language) ++ '\n' :: (shown ++ '\n' :: (fence ++ '\n' :: [])) := by
    simp [fencedBlock, betweenFences]
  rw [hblock, Text.lines_line hopening, Text.lines_append_newline,
    Text.lines_line (by decide : '\n' ∉ fence)]
  rfl

theorem readFence?_fencedBlock {before language : Text}
    (hbefore : before = [] ∨ before = ['\n']) (hlanguage : '\n' ∉ language) (shown : Text) :
    readFence? (fencedBlock before language (betweenFences shown) ['\n']) =
      some (Text.unlines (shown.lines.takeWhile fun line => !closesFence line)) := by
  have hlines := lines_fencedBlock hlanguage shown
  have hopens : (!opensFence (fence ++ language)) = false := by rw [opensFence_fence_append]; rfl
  have hopening : (fencedBlock before language (betweenFences shown) ['\n']).lines.dropWhile
      (fun line => !opensFence line) = (fence ++ language) :: (shown.lines ++ [fence, []]) := by
    rcases hbefore with rfl | rfl
    · rw [hlines, List.dropWhile_cons_of_neg (by simp [hopens])]
    · have hblock : fencedBlock ['\n'] language (betweenFences shown) ['\n'] =
          [] ++ '\n' :: fencedBlock [] language (betweenFences shown) ['\n'] := rfl
      rw [hblock, Text.lines_line List.not_mem_nil, hlines,
        List.dropWhile_cons_of_pos (by decide), List.dropWhile_cons_of_neg (by simp [hopens])]
  have hcloses : (shown.lines ++ [fence, []]).any closesFence = true := by
    simp [closesFence_fence]
  rw [readFence?, hopening]
  show (if (shown.lines ++ [fence, []]).any closesFence then _ else _) = _
  rw [if_pos hcloses, takeWhile_append_cons (by simp [closesFence_fence])]

/-- Whatever is read is no longer than what was written, and as long only if it is the same. -/
theorem unlines_takeWhile_eq_iff {t shown : Text}
    (hshown : shortenRuns (betweenFences t) = betweenFences shown) :
    Text.unlines (shown.lines.takeWhile fun line => !closesFence line) = t ↔
      ¬ tripleNewline <:+: betweenFences t ∧ ∀ line ∈ t.lines, closesFence line = false := by
  rw [← limitNewlines_eq_shortenRuns] at hshown
  constructor
  · intro hread
    have hsub : (betweenFences shown).Sublist (betweenFences t) := by
      rw [← hshown]
      exact limitNewlines_sublist 0 _
    have hlength : t.length ≤ shown.length := by
      have hprefix := Text.unlines_isPrefix (List.takeWhile_prefix (fun line => !closesFence line)
        (l := shown.lines))
      rw [hread, Text.unlines_lines] at hprefix
      exact hprefix.length_le
    have heq : betweenFences shown = betweenFences t := by
      refine hsub.eq_of_length_le ?_
      simpa [betweenFences] using hlength
    constructor
    · rw [← heq, ← hshown]
      exact not_tripleNewline_isInfix_limitNewlines _
    · intro line hline
      by_cases hnone : shown.lines.takeWhile (fun line => !closesFence line) = []
      · rw [← hread, hnone] at hline
        rw [List.mem_singleton.mp hline]
        rfl
      · have htaken := Text.lines_unlines hnone fun l hl =>
          Text.newline_notMem_of_mem_lines ((List.takeWhile_sublist _).subset hl)
        rw [← hread, htaken] at hline
        simpa using List.mem_takeWhile_imp hline
  · rintro ⟨hruns, hlines⟩
    have heq : shown = t := by
      rw [limitNewlines_eq_self hruns] at hshown
      simpa [betweenFences] using hshown.symm
    have hall : t.lines.takeWhile (fun line => !closesFence line) = t.lines := by
      rw [List.takeWhile_eq_self_iff]
      intro line hline
      rw [hlines line hline]
      rfl
    rw [heq, hall, Text.unlines_lines]

/-- Reading a block of code gives the text of its element with its runs of newlines cut to two,
those at the fences counted in, up to its first line of backticks. So it gives that text itself
exactly if it has neither a longer run nor such a line. -/
theorem readFence?_markdown {dialect : Dialect} {tag : Text} {attributes : List Attribute}
    (h : IsFenced dialect tag attributes) (children : List Node) :
    (∃ shown, shortenRuns (betweenFences (Node.textOf children)) = betweenFences shown ∧
      readFence? (markdown dialect [] [.element tag attributes children]) =
        some (Text.unlines (shown.lines.takeWhile fun line => !closesFence line))) ∧
    (readFence? (markdown dialect [] [.element tag attributes children]) =
        some (Node.textOf children) ↔
      ¬ tripleNewline <:+: betweenFences (Node.textOf children) ∧
        ∀ line ∈ (Node.textOf children).lines, closesFence line = false) := by
  obtain ⟨before, language, hbefore, hlanguage, hraw⟩ := exists_rawMarkdown_fenced h children
  obtain ⟨shown, hshown⟩ := exists_shortenRuns_betweenFences (Node.textOf children)
  have hread : readFence? (markdown dialect [] [.element tag attributes children]) =
      some (Text.unlines (shown.lines.takeWhile fun line => !closesFence line)) := by
    rw [markdown, hraw, normalize_fencedBlock hbefore hlanguage, hshown,
      readFence?_fencedBlock hbefore hlanguage]
  refine ⟨⟨shown, hshown, hread⟩, ?_⟩
  rw [hread, Option.some.injEq]
  exact unlines_takeWhile_eq_iff hshown

/-- Blanks at the ends of lines, an empty line, backticks within a line and only two on one. -/
theorem readFence?_markdown_backticks :
    IsFenced .gfm "PRE" [⟨"Data-Lang", "c++"⟩] ∧
      readFence? (markdown .gfm [] [.element "PRE" [⟨"Data-Lang", "c++"⟩]
        [.text "\na  \n\n", .element "b" [] [.text "\x60\x60\n \x60\x60\x60_\t"]]]) =
        some "\na  \n\n\x60\x60\n \x60\x60\x60_\t" := by
  have hfenced : IsFenced .gfm "PRE" [⟨"Data-Lang", "c++"⟩] := by
    refine Or.inl ⟨by decide, fun language hlanguage => ?_⟩
    cases hlanguage
    decide
  exact ⟨hfenced, (readFence?_markdown hfenced _).2.mpr ⟨by decide, by decide⟩⟩

/-- A run of three newlines is cut, also if a fence has a part in it, and a line of backticks ends
the block. -/
theorem readFence?_markdown_cut :
    readFence? (markdown .gfm [] [.element "pre" [] [.text "a\n\n\nb"]]) = some "a\n\nb" ∧
      readFence? (markdown .standard [] [.element "table" [] [.text "a\n\n"]]) = some "a\n" ∧
      readFence? (markdown .gfm [] [.element "pre" [] [.text "a\n\x60\x60\x60\nb"]]) =
        some "a" := by
  decide +kernel

end MarkdownExport.Markdown
