import MarkdownExport.Proofs.Markdown.Copied
import MarkdownExport.Proofs.Markdown.ListItems
import MarkdownExport.Proofs.Metadata.OneLine
import MarkdownExport.Proofs.Text.Lines

/-! Headings, list items and footnotes are each meant to be one line. They are exactly if the text
put behind their marks is, and the newlines of that text are those of the texts it is made of. -/
namespace MarkdownExport.Markdown

/-- A single line that starts with `mark`, and its newline. -/
def IsLine (mark t : Text) : Prop := ∃ l, t = l ++ ['\n'] ∧ '\n' ∉ l ∧ mark <+: l

def shownLines (lines : List Text) : List Text := lines.filter fun l => !l.allBlank

theorem isLine_iff {mark : Text} (hmark : '\n' ∉ mark) (text : Text) :
    IsLine mark (mark ++ text ++ ['\n']) ↔ '\n' ∉ text := by
  constructor
  · rintro ⟨l, hl, hnewline, -⟩ htext
    rw [← List.append_cancel_right hl] at hnewline
    exact hnewline (List.mem_append_right _ htext)
  · intro htext
    exact ⟨mark ++ text, rfl, by simp [hmark, htext], List.prefix_append _ _⟩

/-! Where the newlines of a line come from. -/

theorem newline_mem_escape {t : Text} : '\n' ∈ escape t ↔ '\n' ∈ t := by
  induction t with
  | nil => rfl
  | cons c t ih =>
    rw [escape_cons, List.mem_append, ih, List.mem_cons]
    refine or_congr_left ?_
    split
    · rename_i hc
      have hne : c ≠ '\n' := by
        rintro rfl
        exact absurd hc (by decide)
      simp [hne.symm]
    · exact List.mem_singleton

/-- What an element puts into its line, where `inner` is what its children put there. -/
def Phrase.texts (attributes : List Attribute) (children : List Node) (inner : List Text) :
    Phrase → List Text
  | code => [Node.textOf children]
  | link => (Attribute.find? "href" attributes).getD [] :: inner
  | image =>
    [(Attribute.find? "alt" attributes).getD "image", (Attribute.find? "src" attributes).getD []]
  | _ => inner

mutual

def lineTextsOf : Node → List Text
  | .text content => [content]
  | .element tag attributes children =>
    (Phrase.ofTag tag.lower).texts attributes children (lineTexts children)
  | _ => []

/-- The texts, code spans, targets and descriptions that a line is made of. -/
def lineTexts : List Node → List Text
  | [] => []
  | n :: ns => lineTextsOf n ++ lineTexts ns

end

def HasNewline (texts : List Text) : Prop := ∃ t ∈ texts, '\n' ∈ t

theorem hasNewline_append {s t : List Text} :
    HasNewline (s ++ t) ↔ HasNewline s ∨ HasNewline t := by
  simp only [HasNewline, List.mem_append, or_and_right, exists_or]

theorem lineTextsOf_of_isSilent {n : Node} (h : n.isSilent = true) : lineTextsOf n = [] := by
  cases n with
  | text | element => cases h
  | comment | doctype | instruction => rfl

section Render
variable {dialect : Dialect} {attributes : List Attribute} {children : List Node} {inner : Text}
  {texts : List Text}

/-- An element's marks hold no newline. -/
theorem newline_mem_render (hinner : '\n' ∈ inner ↔ HasNewline texts)
    (hempty : inner = [] → Node.textOf children = []) (phrase : Phrase) :
    '\n' ∈ phrase.render dialect attributes children inner ↔
      HasNewline (phrase.texts attributes children texts) := by
  have hlabel : (if inner.isEmpty then Node.textOf children else inner) = inner := by
    cases inner with
    | nil => exact hempty rfl
    | cons => rfl
  cases phrase with
  | code => simp [Phrase.render, Phrase.texts, HasNewline]
  | image => simp [Phrase.render, Phrase.texts, image, HasNewline]
  | link =>
    rw [Phrase.render, hlabel, Phrase.texts, ← List.singleton_append, hasNewline_append, ← hinner]
    simp [link, HasNewline, or_comm]
  | strikethrough => cases dialect <;> simp [Phrase.render, Phrase.texts, hinner]
  | strong | emphasis | superscript | plain => simp [Phrase.render, Phrase.texts, hinner]

/-- With a node left out the label of a link may be the whole text in it. -/
theorem newline_of_mem_render {phrase : Phrase}
    (h : '\n' ∈ phrase.render dialect attributes children inner)
    (hinner : '\n' ∈ inner → '\n' ∈ Node.textOf children ∨ HasNewline texts) :
    '\n' ∈ Node.textOf children ∨ HasNewline (phrase.texts attributes children texts) := by
  cases phrase with
  | code => exact Or.inl (by simpa [Phrase.render] using h)
  | image => exact Or.inr (by simpa [Phrase.render, Phrase.texts, image, HasNewline] using h)
  | link =>
    rw [Phrase.texts, ← List.singleton_append, hasNewline_append]
    have hparts : '\n' ∈ (if inner.isEmpty then Node.textOf children else inner) ∨
        '\n' ∈ (Attribute.find? "href" attributes).getD [] := by
      simpa [Phrase.render, link] using h
    rcases hparts with hlabel | hhref
    · split at hlabel
      · exact Or.inl hlabel
      · exact (hinner hlabel).imp_right Or.inr
    · exact Or.inr (Or.inl ⟨_, List.mem_singleton_self _, hhref⟩)
  | strikethrough => cases dialect <;> exact hinner (by simpa [Phrase.render] using h)
  | strong | emphasis | superscript | plain => exact hinner (by simpa [Phrase.render] using h)

end Render

theorem newline_mem_inlineAll {dialect : Dialect} {ns : List Node} :
    '\n' ∈ inlineAll dialect ns ↔ HasNewline (lineTexts ns) := by
  induction ns using Node.forest_induction with
  | nil => simp [lineTexts, HasNewline]
  | text content ns ih =>
    rw [inlineAll_cons, List.mem_append, ih, lineTexts, hasNewline_append]
    refine or_congr_left ?_
    simp [inlineNode, lineTextsOf, HasNewline, newline_mem_escape]
  | element tag attributes children ns ihc ih =>
    rw [inlineAll_cons, List.mem_append, ih, lineTexts, hasNewline_append, inlineNode_element]
    exact or_congr_left (newline_mem_render ihc (textOf_eq_nil children) _)
  | silent n ns hn ih =>
    rw [inlineAll_cons, inlineNode_of_isSilent hn, List.nil_append, ih, lineTexts,
      lineTextsOf_of_isSilent hn, List.nil_append]

/-- What is left of a forest without a node comes from its first node and from the others. -/
theorem mem_inlineWithout_cons {dialect : Dialect} {skip : Node.Path} {c : Char} {n : Node}
    {ns : List Node} (h : c ∈ inlineWithout dialect skip (n :: ns)) :
    (∃ skip', c ∈ inlineNode dialect skip' n) ∨ ∃ skip', c ∈ inlineWithout dialect skip' ns := by
  rcases skip with _ | ⟨_ | i, path⟩
  · exact (List.mem_append.mp h).imp (⟨_, ·⟩) (⟨_, ·⟩)
  · cases path with
    | nil => exact Or.inr ⟨_, h⟩
    | cons j path => exact (List.mem_append.mp h).imp (⟨_, ·⟩) (⟨_, ·⟩)
  · exact (List.mem_append.mp h).imp (⟨_, ·⟩) (⟨_, ·⟩)

theorem newline_of_mem_inlineWithout {dialect : Dialect} {skip : Node.Path} {ns : List Node}
    (h : '\n' ∈ inlineWithout dialect skip ns) :
    '\n' ∈ Node.textOf ns ∨ HasNewline (lineTexts ns) := by
  induction ns using Node.forest_induction generalizing skip with
  | nil => simp [inlineWithout] at h
  | text content ns ih =>
    rw [lineTexts, hasNewline_append, Node.textOf_cons, List.mem_append]
    rcases mem_inlineWithout_cons h with ⟨skip', hn⟩ | ⟨skip', hns⟩
    · exact Or.inl (Or.inl (newline_mem_escape.mp hn))
    · exact (ih hns).imp Or.inr Or.inr
  | element tag attributes children ns ihc ih =>
    rw [lineTexts, hasNewline_append, Node.textOf_cons, List.mem_append]
    rcases mem_inlineWithout_cons h with ⟨skip', hn⟩ | ⟨skip', hns⟩
    · rw [inlineNode_element] at hn
      exact (newline_of_mem_render hn ihc).imp Or.inl Or.inl
    · exact (ih hns).imp Or.inr Or.inr
  | silent n ns hn ih =>
    rw [lineTexts, hasNewline_append, Node.textOf_cons, List.mem_append]
    rcases mem_inlineWithout_cons h with ⟨skip', hskip⟩ | ⟨skip', hns⟩
    · rw [inlineNode_of_isSilent hn] at hskip
      cases hskip
    · exact (ih hns).imp Or.inr Or.inr

/-! Headings. -/

section Element
variable {dialect : Dialect} {tag : Text} {attributes : List Attribute} {children : List Node}

theorem blockNode_heading {level : Nat} (hfirst : 1 ≤ level) (hlast : level ≤ 3)
    (htag : tag.lower = 'h' :: decimal level) :
    blockNode dialect defaultRules (.element tag attributes children) =
      "\n" ++ List.replicate level '#' ++ " " ++ inlineAll dialect children ++ "\n\n" := by
  have hlevel : level = 1 ∨ level = 2 ∨ level = 3 := by omega
  rcases hlevel with rfl | rfl | rfl
  all_goals
    rw [blockNode, htag]
    rfl

/-- The first line of the text stands behind the marks, and the others follow as they are. -/
theorem visible_heading {level : Nat} (hfirst : 1 ≤ level) (hlast : level ≤ 3)
    (htag : tag.lower = 'h' :: decimal level) :
    ∃ first, shownLines (blockNode dialect defaultRules (.element tag attributes children)).lines =
      (List.replicate level '#' ++ ' ' :: first) ::
        shownLines (inlineAll dialect children).lines.tail := by
  have hmarks : '\n' ∉ List.replicate level '#' := fun h =>
    absurd (List.eq_of_mem_replicate h) (by decide)
  obtain ⟨first, hlines⟩ := Text.exists_lines_append_cons (c := ' ') (by decide)
    (inlineAll dialect children) hmarks
  refine ⟨first, ?_⟩
  have hblock : blockNode dialect defaultRules (.element tag attributes children) =
      [] ++ '\n' :: ((List.replicate level '#' ++ ' ' :: inlineAll dialect children) ++
        '\n' :: ([] ++ '\n' :: [])) := by
    rw [blockNode_heading hfirst hlast htag]
    simp
  have hvisible : Text.allBlank (List.replicate level '#' ++ ' ' :: first) = false := by
    obtain ⟨k, rfl⟩ := Nat.exists_eq_add_of_le' hfirst
    rfl
  have hempty : Text.lines [] = [[]] := rfl
  have hblank : shownLines [[], []] = [] := rfl
  rw [hblock, Text.lines_append_newline, Text.lines_append_newline, hlines,
    Text.lines_append_newline, hempty]
  rw [shownLines, shownLines, List.singleton_append, List.filter_cons_of_neg (by decide),
    List.cons_append, List.filter_cons_of_pos (by rw [hvisible]; rfl), List.filter_append]
  exact congrArg _ (List.append_nil _)

theorem length_visible_heading {level : Nat} (hfirst : 1 ≤ level) (hlast : level ≤ 3)
    (htag : tag.lower = 'h' :: decimal level) :
    (shownLines
        (blockNode dialect defaultRules (.element tag attributes children)).lines).length = 1 ↔
      ∀ l ∈ (inlineAll dialect children).lines.tail, l.allBlank = true := by
  obtain ⟨first, h⟩ : ∃ first,
      shownLines (blockNode dialect defaultRules (.element tag attributes children)).lines =
        (List.replicate level '#' ++ ' ' :: first) ::
          shownLines (inlineAll dialect children).lines.tail := visible_heading hfirst hlast htag
  rw [h, List.length_cons, Nat.add_eq_right, List.length_eq_zero_iff, shownLines,
    List.filter_eq_nil_iff]
  simp

end Element

/-! Items of lists. -/

/-- The marker of the item with index `i`. -/
def itemMarker (dialect : Dialect) (first? : Option Int) (i : Nat) (item : Node) : Text :=
  ((taskBox? dialect item).map fun box =>
    if box.node.hasAttribute "checked" then "- [x] " else "- [ ] ").getD (itemMark first? i)

/-- An item's text, without the first checkbox of a task. -/
def itemText (dialect : Dialect) (item : Node) : Text :=
  (inlineWithout dialect (((taskBox? dialect item).map Node.Located.path).getD [])
    item.children).trim

theorem itemLine_eq (dialect : Dialect) (first? : Option Int) (i : Nat) (item : Node) :
    itemLine dialect (.ofFirst first?) i item =
      itemMarker dialect first? i item ++ itemText dialect item ++ ['\n'] := by
  unfold itemLine itemMarker itemText
  cases taskBox? dialect item with
  | some box =>
    change "- [" ++ (if box.node.hasAttribute "checked" then "x" else " " : Text) ++ "] " ++
        (inlineWithout dialect box.path item.children).trim ++ "\n" =
      (if box.node.hasAttribute "checked" then "- [x] " else "- [ ] " : Text) ++
        (inlineWithout dialect box.path item.children).trim ++ ['\n']
    split <;> rfl
  | none =>
    rw [marker_ofFirst]
    rfl

theorem newline_notMem_itemMarker (dialect : Dialect) (first? : Option Int) (i : Nat)
    (item : Node) : '\n' ∉ itemMarker dialect first? i item := by
  unfold itemMarker
  cases taskBox? dialect item with
  | some box =>
    rw [Option.map_some, Option.getD_some]
    split <;> decide
  | none =>
    rw [Option.map_none, Option.getD_none]
    cases first? with
    | some first =>
      rw [itemMark, List.mem_append, not_or]
      exact ⟨newline_notMem_signedDecimal _, by decide⟩
    | none =>
      change '\n' ∉ ("- " : Text)
      decide

theorem mem_of_mem_trim {c : Char} {t : Text} (h : c ∈ t.trim) : c ∈ t :=
  (List.dropWhile_suffix _).subset ((Text.trimEnd_isPrefix _).subset h)

/-- An item without newlines in its texts is one line. -/
theorem newline_notMem_itemText {dialect : Dialect} {item : Node}
    (htext : '\n' ∉ Node.textOf item.children) (hline : ¬ HasNewline (lineTexts item.children)) :
    '\n' ∉ itemText dialect item := fun h =>
  (newline_of_mem_inlineWithout (mem_of_mem_trim h)).elim htext hline

/-! Footnotes. -/

theorem mem_of_mem_dropMarker {c : Char} {note : Text} (h : c ∈ dropMarker note) : c ∈ note := by
  unfold dropMarker at h
  split at h
  · rename_i rest
    split at h
    · rename_i digit digits text hspan
      rw [List.span_eq_takeWhile_dropWhile, Prod.mk.injEq] at hspan
      have htext : c ∈ rest.dropWhile isDecimalDigit := by
        rw [hspan.2]
        exact List.mem_cons_of_mem _ ((List.dropWhile_suffix _).subset h)
      exact List.mem_cons_of_mem _ ((List.dropWhile_suffix _).subset htext)
    · exact h
  · exact h

/-- What stands before the text of a footnote. -/
def footnoteLabel (item : Node) : Text :=
  "[^" ++ (item.attribute? "data-word-footnote-id").getD [] ++ "]: "

theorem isLine_footnoteLine (item : Node)
    (hid : '\n' ∉ (item.attribute? "data-word-footnote-id").getD []) :
    IsLine (footnoteLabel item) (footnoteLine item) ↔
      '\n' ∉ dropMarker item.textContent.trim := by
  have hlabel : '\n' ∉ footnoteLabel item := by
    rw [footnoteLabel, List.mem_append, List.mem_append, not_or, not_or]
    exact ⟨⟨by decide, hid⟩, by decide⟩
  exact isLine_iff hlabel _

theorem footnoteList_eq {children : List Node} (h : Node.findTags "li" children ≠ []) :
    footnoteList children = ("\n## References\n\n" : Text) ++
      ((Node.findTags "li" children).map footnoteLine).flatten ++ "\n" := by
  unfold footnoteList
  split
  · contradiction
  · rfl

/-! The three constructs. -/

section Element
variable (dialect : Dialect) (tag : Text) (attributes : List Attribute) (children : List Node)

variable {tag attributes} in
theorem blockNode_footnotes (htag : tag.lower = "section")
    (hmark : ∃ mark, Attribute.find? "data-word-footnotes" attributes = some mark ∧ mark ≠ []) :
    blockNode dialect defaultRules (.element tag attributes children) = footnoteList children := by
  obtain ⟨mark, hfind, hmark⟩ := hmark
  have hsection : isFootnoteSection (subject dialect tag attributes children) = true := by
    unfold isFootnoteSection Subject.attribute? subject
    rw [hfind]
    cases mark with
    | nil => contradiction
    | cons => rfl
  have hrule : blockNode dialect defaultRules (.element tag attributes children) =
      sectionRule (subject dialect tag attributes children) := by
    rw [blockNode, htag]
    rfl
  rw [hrule, sectionRule, if_pos hsection]
  rfl

/-- A heading has one visible line exactly if its text has none behind its first line. An item of a
list, and a footnote, is one line behind its marker exactly if its text has no newline. The newlines
are those of the texts, code spans, targets and descriptions that are shown, so without such a
newline each construct is one line. -/
theorem blockNode_oneLine :
    let written := blockNode dialect defaultRules (.element tag attributes children)
    let text := inlineAll dialect children
    (∀ level, 1 ≤ level → level ≤ 3 → tag.lower = 'h' :: decimal level →
      (∃ first, shownLines written.lines =
        (List.replicate level '#' ++ ' ' :: first) :: shownLines text.lines.tail) ∧
      ((shownLines written.lines).length = 1 ↔ ∀ l ∈ text.lines.tail, l.allBlank = true) ∧
      (¬ HasNewline (lineTexts children) → (shownLines written.lines).length = 1)) ∧
    (tag.lower = "ul" ∨ tag.lower = "ol" → (∃ c ∈ children, c.isTag "li" = true) →
      let first? := firstNumber? tag attributes
      written = '\n' :: ((items children).mapIdx fun i item =>
        itemMarker dialect first? i item ++ itemText dialect item ++ ['\n']).flatten ++ ['\n'] ∧
      ∀ i, ∀ item ∈ items children,
        (IsLine (itemMarker dialect first? i item)
            (itemMarker dialect first? i item ++ itemText dialect item ++ ['\n']) ↔
          '\n' ∉ itemText dialect item) ∧
        ('\n' ∉ Node.textOf item.children → ¬ HasNewline (lineTexts item.children) →
          '\n' ∉ itemText dialect item)) ∧
    (tag.lower = "section" →
      (∃ mark, Attribute.find? "data-word-footnotes" attributes = some mark ∧ mark ≠ []) →
      (∃ c ∈ Node.preorder children, c.isTag "li" = true) →
      written = ("\n## References\n\n" : Text) ++
        (((Node.preorder children).filter (Node.isTag "li")).map footnoteLine).flatten ++ "\n" ∧
      ∀ item ∈ (Node.preorder children).filter (Node.isTag "li"),
        '\n' ∉ (item.attribute? "data-word-footnote-id").getD [] →
          (IsLine (footnoteLabel item) (footnoteLine item) ↔
            '\n' ∉ dropMarker item.textContent.trim) ∧
          ('\n' ∉ item.textContent → '\n' ∉ dropMarker item.textContent.trim)) ∧
    ('\n' ∈ text ↔ HasNewline (lineTexts children)) := by
  intro written text
  refine ⟨fun level hfirst hlast htag => ⟨visible_heading hfirst hlast htag,
      length_visible_heading hfirst hlast htag, fun htexts =>
      (length_visible_heading hfirst hlast htag).mpr ?_⟩, fun htag hitem => ⟨?_, fun i item _ =>
      ⟨isLine_iff (newline_notMem_itemMarker dialect _ i item) _, newline_notMem_itemText⟩⟩,
    fun htag hmark hitem => ⟨?_, fun item _ hid => ⟨isLine_footnoteLine item hid, fun h hmem =>
      h (mem_of_mem_trim (mem_of_mem_dropMarker hmem))⟩⟩, newline_mem_inlineAll⟩
  · have hline : '\n' ∉ text := fun h => htexts (newline_mem_inlineAll.mp h)
    have hlines : text.lines = [text] := Text.lines_of_notMem hline
    rw [hlines]
    exact fun l hl => absurd hl List.not_mem_nil
  · have hlines : written = '\n' :: (itemLines dialect (.ofFirst (firstNumber? tag attributes))
        (items children)).flatten ++ ['\n'] := blockNode_eq_itemLines htag hitem dialect
    simp only [itemLines, itemLine_eq] at hlines
    exact hlines
  · have hnotes : Node.findTags "li" children = (Node.preorder children).filter (Node.isTag "li") :=
      Node.findAll_eq_filter _ _
    have hne : Node.findTags "li" children ≠ [] := by
      obtain ⟨c, hc, hli⟩ := hitem
      rw [hnotes]
      exact List.ne_nil_of_mem (List.mem_filter.mpr ⟨hc, hli⟩)
    change blockNode dialect defaultRules (.element tag attributes children) = _
    rw [blockNode_footnotes dialect children htag hmark, footnoteList_eq hne, hnotes]

end Element

/-- Newlines as of pretty-printed HTML: a heading without its text, and items and footnotes of two
lines. -/
theorem blockNode_pretty :
    shownLines (blockNode .gfm defaultRules (.element "h1" [] [.text "\n  a\n"])).lines =
        ["# ", "  a"] ∧
      blockNode .gfm defaultRules (.element "ul" [] [.element "li" [] [.text "a\nb"]]) =
        "\n- a\nb\n\n" ∧
      ¬ IsLine "- " "- a\nb\n" ∧
      blockNode .gfm defaultRules (.element "section" [⟨"data-word-footnotes", "true"⟩]
        [.element "li" [⟨"data-word-footnote-id", "1"⟩] [.text "[1] a\nb"]]) =
          "\n## References\n\n[^1]: a\nb\n\n" ∧
      ¬ IsLine "[^1]: " "[^1]: a\nb\n" := by
  have hlist : IsLine "- " ("- " ++ "a\nb" ++ ['\n']) ↔ '\n' ∉ ("a\nb" : Text) :=
    isLine_iff (by decide) "a\nb"
  have hnote : IsLine "[^1]: " ("[^1]: " ++ "a\nb" ++ ['\n']) ↔ '\n' ∉ ("a\nb" : Text) :=
    isLine_iff (by decide) "a\nb"
  refine ⟨by decide +kernel, by decide +kernel, fun h => ?_, by decide +kernel, fun h => ?_⟩
  · exact absurd (hlist.mp h) (by decide)
  · exact absurd (hnote.mp h) (by decide)

end MarkdownExport.Markdown
