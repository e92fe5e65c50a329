import MarkdownExport.Proofs.Markdown.ListItems
import MarkdownExport.Proofs.Markdown.NormalForm
import MarkdownExport.Proofs.Markdown.TableReading

/-! Blocks that follow one another. Each rule for a block leaves an empty line behind what it
writes, or writes nothing, so the next block finds an empty line in front of it. Normalizing the
spacing cuts long runs of newlines and never joins two lines. -/
namespace MarkdownExport.Markdown

/-- The tags of the elements that are blocks whatever is in them. -/
def blockTags : List Text :=
  ["h1", "h2", "h3", "p", "hr", "blockquote", "table", "pre", "figure", "img"]

/-- An element that is a block: a list is one if it has an item. -/
inductive IsBlock : Node → Prop
  | plain {tag : Text} {attributes : List Attribute} {children : List Node} :
      tag.lower ∈ blockTags → IsBlock (.element tag attributes children)
  | list {tag : Text} {attributes : List Attribute} {children : List Node} :
      tag.lower = "ul" ∨ tag.lower = "ol" → (∃ c ∈ children, c.isTag "li" = true) →
        IsBlock (.element tag attributes children)

/-- Elements that stand for their children: those without a rule, and sections that are not marked
as holding footnotes. -/
def IsTransparent (tag : Text) (attributes : List Attribute) : Prop :=
  defaultRules.find? tag.lower = none ∨
    (tag.lower = "section" ∧ (Attribute.find? "data-word-footnotes" attributes).getD [] = [])

/-- A forest that is made of blocks, in elements that stand for their children to any depth, and its
blocks in their order. -/
inductive HasBlocks : List Node → List Node → Prop
  | nil : HasBlocks [] []
  | silent {n : Node} {ns blocks : List Node} :
      n.isSilent = true → HasBlocks ns blocks → HasBlocks (n :: ns) blocks
  | block {n : Node} {ns blocks : List Node} :
      IsBlock n → HasBlocks ns blocks → HasBlocks (n :: ns) (n :: blocks)
  | transparent {tag : Text} {attributes : List Attribute} {children ns inner blocks : List Node} :
      IsTransparent tag attributes → HasBlocks children inner → HasBlocks ns blocks →
        HasBlocks (.element tag attributes children :: ns) (inner ++ blocks)

def emptyLine : Text := ['\n', '\n']

/-- The text that is written for some blocks. -/
def written (dialect : Dialect) (blocks : List Node) : Text :=
  blocks.flatMap (blockNode dialect defaultRules)

/-- Nothing, or a text with an empty line behind it. -/
def EndsApart (t : Text) : Prop := t = [] ∨ emptyLine <:+ t

/-- The first line of a text that is not empty. -/
def firstLine (t : Text) : Text := (t.dropWhile (· = '\n')).takeWhile (· ≠ '\n')

/-- What is written for a block begins a line of the document, which is written as it is, or up to
its last visible scalar at the end of the document. What comes before that line is what was written
before, with an empty line behind it, or nothing but newlines. -/
def BeginsLine (before block document : Text) : Prop :=
  ∃ head line tail, document = head ++ line ++ '\n' :: tail ∧ line ≠ [] ∧
    (line = firstLine block ∨ line = (firstLine block).trimEnd ∧ tail = []) ∧
    ((∀ c ∈ head, c = '\n') ∨ emptyLine <:+ head) ∧ dropNewlines head = dropNewlines before

/-! What the rules write. -/

namespace EndsApart
variable {s t : Text}

theorem of_emptyLine (t : Text) : EndsApart (t ++ emptyLine) :=
  Or.inr (List.suffix_append t emptyLine)

theorem append (hs : EndsApart s) (ht : EndsApart t) : EndsApart (s ++ t) := by
  rcases ht with rfl | ht
  · rwa [List.append_nil]
  · exact Or.inr (ht.trans (List.suffix_append s t))

theorem flatMap {f : Node → Text} {ns : List Node} (h : ∀ n ∈ ns, EndsApart (f n)) :
    EndsApart (ns.flatMap f) := by
  induction ns with
  | nil => exact Or.inl rfl
  | cons n ns ih =>
    rw [List.forall_mem_cons] at h
    exact h.1.append (ih h.2)

/-- An empty line behind other lines. -/
theorem of_lines {lines : List Text} (hne : lines ≠ []) (h : ∀ line ∈ lines, ['\n'] <:+ line) :
    EndsApart (lines.flatten ++ ['\n']) := by
  obtain ⟨init, last, rfl⟩ := lines.eq_nil_or_concat.resolve_left hne
  obtain ⟨t, ht⟩ := h last (by simp)
  have hend : (init.concat last).flatten ++ ['\n'] = (init.flatten ++ t) ++ emptyLine := by
    simp [← ht, emptyLine]
  rw [hend]
  exact of_emptyLine _

end EndsApart

theorem endsApart_tableText (rows : List Row) : EndsApart (tableText rows) := by
  cases rows with
  | nil => exact Or.inl rfl
  | cons header body =>
    by_cases hempty : (header :: body).all List.isEmpty = true
    · rw [tableText, if_pos hempty]
      exact Or.inl rfl
    · have hlines : tableText (header :: body) =
          (([] :: tableLines header body).map (· ++ ['\n'])).flatten ++ ['\n'] := by
        rw [tableText_eq hempty]
        simp
      rw [hlines]
      apply EndsApart.of_lines
      · simp
      · intro line hline
        obtain ⟨t, -, rfl⟩ := List.mem_map.mp hline
        exact List.suffix_append t ['\n']

/-- A rule for a block leaves an empty line behind it, or writes nothing. -/
theorem endsApart_rule {tag : Text} {rule : Rule} (hrule : IsDefault tag rule)
    (htag : tag ∈ blockTags) (s : Subject) : EndsApart (rule s) := by
  cases hrule with
  | heading | paragraph | figure | standaloneImage => exact .of_emptyLine _
  | horizontalRule => exact .of_emptyLine "\n---"
  | blockquote =>
    unfold blockquote
    split
    · exact Or.inl rfl
    · exact .of_emptyLine _
  | table =>
    unfold table
    split
    · exact endsApart_tableText _
    · exact Or.inr ⟨"\x60\x60\x60\n" ++ s.text ++ "\n\x60\x60\x60", by simp [emptyLine]⟩
  | preformatted =>
    exact Or.inr ⟨"\n\x60\x60\x60" ++ (s.attribute? "data-lang").getD [] ++ "\n" ++ s.text ++
      "\n\x60\x60\x60", by simp [preformatted_eq, emptyLine]⟩
  | lineBreak | bulletedList | numberedList | sectionRule => exact absurd htag (by decide)

theorem exists_rule_of_mem_blockTags {tag : Text} (h : tag ∈ blockTags) :
    ∃ rule, defaultRules.find? tag = some rule := by
  simp only [blockTags, List.mem_cons, List.not_mem_nil, or_false] at h
  rcases h with rfl | rfl | rfl | rfl | rfl | rfl | rfl | rfl | rfl | rfl <;> exact ⟨_, rfl⟩

theorem newline_isSuffix_itemLine (dialect : Dialect) (kind : ListKind) (i : Nat) (item : Node) :
    ['\n'] <:+ itemLine dialect kind i item := by
  unfold itemLine
  split
  · exact List.suffix_append _ ['\n']
  · exact List.suffix_append _ ['\n']

theorem IsBlock.endsApart {n : Node} (h : IsBlock n) (dialect : Dialect) :
    EndsApart (blockNode dialect defaultRules n) := by
  cases h with
  | plain htag =>
    obtain ⟨rule, hrule⟩ := exists_rule_of_mem_blockTags htag
    rw [blockNode, hrule]
    exact endsApart_rule (isDefault_of_find? hrule) htag _
  | list htag hitem =>
    rw [blockNode_eq_itemLines htag hitem]
    apply EndsApart.of_lines (List.cons_ne_nil ['\n'] _)
    rw [List.forall_mem_cons]
    refine ⟨List.suffix_rfl, fun line hline => ?_⟩
    obtain ⟨i, item, -, rfl⟩ := List.mem_mapIdx.mp hline
    exact newline_isSuffix_itemLine dialect _ i _

/-! Elements that stand for their children. -/

theorem blockNode_of_isTransparent {tag : Text} {attributes : List Attribute}
    (h : IsTransparent tag attributes) (dialect : Dialect) (children : List Node) :
    blockNode dialect defaultRules (.element tag attributes children) =
      blockAll dialect defaultRules children := by
  rcases h with hrule | ⟨htag, hmark⟩
  · rw [blockNode, hrule]
    rfl
  · have hsection : blockNode dialect defaultRules (.element tag attributes children) =
        sectionRule (subject dialect tag attributes children) := by
      rw [blockNode, htag]
      rfl
    have hunmarked : ¬ isFootnoteSection (subject dialect tag attributes children) = true := by
      unfold isFootnoteSection Subject.attribute? subject
      cases hfound : Attribute.find? "data-word-footnotes" attributes with
      | none => exact Bool.false_ne_true
      | some mark =>
        rw [hfound, Option.getD_some] at hmark
        simp [hmark]
    rw [hsection, sectionRule, if_neg hunmarked]
    rfl

namespace HasBlocks
variable {ns blocks : List Node}

theorem isBlock (h : HasBlocks ns blocks) : ∀ b ∈ blocks, IsBlock b := by
  induction h with
  | nil => simp
  | silent _ _ ih => exact ih
  | block hblock _ ih => exact List.forall_mem_cons.mpr ⟨hblock, ih⟩
  | transparent _ _ _ ihinner ih => exact List.forall_mem_append.mpr ⟨ihinner, ih⟩

theorem blockAll_eq (h : HasBlocks ns blocks) (dialect : Dialect) :
    blockAll dialect defaultRules ns = written dialect blocks := by
  induction h with
  | nil => rfl
  | silent hsilent _ ih => rw [blockAll_cons, blockNode_of_isSilent hsilent, ih, List.nil_append]
  | block _ _ ih => rw [blockAll_cons, ih, written, written, List.flatMap_cons]
  | transparent htransparent _ _ ihinner ih =>
    rw [blockAll_cons, blockNode_of_isTransparent htransparent, ihinner, ih, written, written,
      written, List.flatMap_append]

end HasBlocks

/-! Spacing. -/

theorem emptyLine_isSuffix_limitNewlines {t : Text} (h : emptyLine <:+ t) :
    emptyLine <:+ limitNewlines 0 t := by
  induction t using newlines_induction with
  | newlines k =>
    have hlength := h.length_le
    rw [List.length_replicate] at hlength
    have htwo : min k 2 = 2 := Nat.min_eq_right hlength
    rw [limitNewlines_newlines, htwo]
    exact List.suffix_rfl
  | other s c u hc _ ih =>
    have hmem : c ∉ emptyLine := by simp [emptyLine, hc]
    have hu : emptyLine <:+ u := by
      rcases List.suffix_or_suffix_of_suffix h (List.suffix_append s (c :: u)) with h | h
      · rcases List.suffix_cons_iff.mp h with h | h
        · exact absurd (h ▸ List.mem_cons_self) hmem
        · exact h
      · exact absurd (h.mem List.mem_cons_self) hmem
    rw [limitNewlines_append_cons hc]
    exact (ih hu).trans ((List.suffix_cons c _).trans (List.suffix_append _ _))

theorem emptyLine_isSuffix_append_newlines {t : Text} (h : emptyLine <:+ t) (k : Nat) :
    emptyLine <:+ t ++ List.replicate k '\n' := by
  obtain ⟨s, rfl⟩ := h
  have htwo : emptyLine = List.replicate 2 '\n' := rfl
  rw [htwo, List.append_assoc, List.replicate_append_replicate, Nat.add_comm,
    ← List.replicate_append_replicate, ← List.append_assoc]
  exact List.suffix_append _ _

theorem exists_visible_limitNewlines {t : Text} (h : ∃ c ∈ t, isBlank c = false) (n : Nat) :
    ∃ c ∈ limitNewlines n t, isBlank c = false := by
  obtain ⟨c, hmem, hc⟩ := h
  have hkept : c ∈ dropNewlines t :=
    List.mem_filter.mpr ⟨hmem, by simpa using Text.ne_newline_of_not_isBlank hc⟩
  rw [← dropNewlines_limitNewlines n t] at hkept
  exact ⟨c, List.mem_of_mem_filter hkept, hc⟩

/-- A text may be cut in front of a line that is not empty, if something visible follows. -/
theorem normalize_append {t : Text} (s : Text) (hvisible : ∃ c ∈ t, isBlank c = false)
    (hstart : ∀ c ∈ t.head?, c ≠ '\n') :
    normalize (s ++ t) = limitNewlines 0 s ++ normalize t := by
  have hsplit : limitNewlines 0 (s ++ t) = limitNewlines 0 s ++ limitNewlines 0 t := by
    cases t with
    | nil => simp [limitNewlines]
    | cons c t =>
      have hc : c ≠ '\n' := hstart c rfl
      rw [limitNewlines_append_cons hc, limitNewlines, if_neg hc]
  rw [normalize, hsplit, Text.trimEnd_append_of_visible _ (exists_visible_limitNewlines hvisible 0),
    List.append_assoc, normalize]

/-- A line stays as it is, or is trimmed if nothing visible follows it. -/
theorem exists_normalize_line {line : Text} (hne : line ≠ []) (hline : '\n' ∉ line) {t : Text}
    (hvisible : ∃ c ∈ line ++ '\n' :: t, isBlank c = false) :
    ∃ line' tail, normalize (line ++ '\n' :: t) = line' ++ '\n' :: tail ∧ line' ≠ [] ∧
      (line' = line ∨ line' = line.trimEnd ∧ tail = []) := by
  by_cases ht : ∃ c ∈ t, isBlank c = false
  · have hlimit : limitNewlines 0 (line ++ '\n' :: t) =
        (line ++ ['\n']) ++ limitNewlines 1 t := by
      rw [limitNewlines_append_of_notMem hline]
      simp [limitNewlines]
    refine ⟨line, (limitNewlines 1 t).trimEnd ++ ['\n'], ?_, hne, Or.inl rfl⟩
    rw [normalize, hlimit, Text.trimEnd_append_of_visible _ (exists_visible_limitNewlines ht 1)]
    simp
  · have hblank : ∀ c ∈ '\n' :: t, isBlank c = true := by
      rw [List.forall_mem_cons]
      refine ⟨isBlank_newline, fun c hc => ?_⟩
      by_contra hvis
      exact ht ⟨c, hc, by simpa using hvis⟩
    have hkept : '\n' ∉ line.trimEnd := fun hmem =>
      hline ((Text.trimEnd_isPrefix line).subset hmem)
    refine ⟨line.trimEnd, [], ?_, ?_, Or.inr ⟨rfl, rfl⟩⟩
    · have hlimit := limitNewlines_append_of_notMem hkept []
      rw [limitNewlines, List.append_nil] at hlimit
      rw [normalize_eq_limitNewlines_trimEnd, Text.trimEnd_append_of_allBlank _ hblank, hlimit]
    · intro hnil
      obtain ⟨c, hmem, hc⟩ := hvisible
      rcases List.mem_append.mp hmem with hmem | hmem
      · rw [List.rdropWhile_eq_nil_iff.mp hnil c hmem] at hc
        cases hc
      · rw [hblank c hmem] at hc
        cases hc

theorem head_ne_newline {line : Text} (hne : line ≠ []) (hline : '\n' ∉ line) (t : Text) :
    ∀ c ∈ (line ++ t).head?, c ≠ '\n' := by
  obtain ⟨d, u, rfl⟩ := List.exists_cons_of_ne_nil hne
  rintro c hc rfl
  cases hc
  exact hline List.mem_cons_self

theorem firstLine_eq (k : Nat) {line : Text} (hne : line ≠ []) (hline : '\n' ∉ line) (rest : Text) :
    firstLine (List.replicate k '\n' ++ (line ++ '\n' :: rest)) = line := by
  have hdrop : (List.replicate k '\n' ++ (line ++ '\n' :: rest)).dropWhile (· = '\n') =
      line ++ '\n' :: rest := by
    apply Text.dropWhile_run
    · intro c hc
      simpa using List.eq_of_mem_replicate hc
    · intro c hc
      simpa using head_ne_newline hne hline _ c hc
  rw [firstLine, hdrop]
  apply Text.takeWhile_run
  · intro c hc
    have hnot : c ≠ '\n' := fun h => hline (h ▸ hc)
    simp [hnot]
  · simp

theorem exists_newlines_append (t : Text) :
    ∃ k u, t = List.replicate k '\n' ++ u ∧ ∀ c ∈ u.head?, c ≠ '\n' := by
  obtain ⟨k, hk⟩ : ∃ k, t.takeWhile (· = '\n') = List.replicate k '\n' :=
    ⟨_, List.eq_replicate_of_mem fun d hd => by simpa using List.mem_takeWhile_imp hd⟩
  refine ⟨k, t.dropWhile (· = '\n'), ?_, fun c hc => ?_⟩
  · rw [← hk, List.takeWhile_append_dropWhile]
  · have hnot := List.head?_dropWhile_not (fun d => decide (d = '\n')) t
    rw [Option.mem_def.mp hc] at hnot
    simpa using hnot

/-- A text with an empty line behind it starts with newlines, and then has a whole line. -/
theorem exists_firstLine {t : Text} (hapart : EndsApart t) (hvisible : ∃ c ∈ t, isBlank c = false) :
    ∃ k rest, t = List.replicate k '\n' ++ (firstLine t ++ '\n' :: rest) ∧
      firstLine t ≠ [] ∧ '\n' ∉ firstLine t := by
  obtain ⟨c, hmem, hc⟩ := hvisible
  have hlast : ['\n'] <:+ t := by
    have hempty := hapart.resolve_left (List.ne_nil_of_mem hmem)
    exact (List.suffix_append ['\n'] ['\n']).trans hempty
  obtain ⟨k, u, rfl, hu⟩ := exists_newlines_append t
  have hcu : c ∈ u := by
    rcases List.mem_append.mp hmem with hmem | hmem
    · exact absurd (List.eq_of_mem_replicate hmem) (Text.ne_newline_of_not_isBlank hc)
    · exact hmem
  -- the newline at the end of the text stands behind its first line
  have hend : '\n' ∈ u := by
    have hlength : ['\n'].length ≤ u.length := List.length_pos_of_mem hcu
    have hlast' := List.suffix_of_suffix_length_le hlast (List.suffix_append _ u) hlength
    exact hlast'.mem List.mem_cons_self
  obtain ⟨line, rest, rfl, hline⟩ := List.eq_append_cons_of_mem hend
  have hne : line ≠ [] := by
    rintro rfl
    exact hu '\n' rfl rfl
  rw [firstLine_eq k hne hline]
  exact ⟨k, rest, rfl, hne, hline⟩

theorem beginsLine {before block : Text} (hbefore : EndsApart before) (hblock : EndsApart block)
    (hvisible : ∃ c ∈ block, isBlank c = false) (after : Text) :
    BeginsLine before block (normalize (before ++ block ++ after)) := by
  obtain ⟨k, rest, hsplit, hne, hline⟩ := exists_firstLine hblock hvisible
  have hdocument : before ++ block ++ after = (before ++ List.replicate k '\n') ++
      (firstLine block ++ '\n' :: (rest ++ after)) := by
    conv_lhs => rw [hsplit]
    simp
  have hvisible' : ∃ c ∈ firstLine block ++ '\n' :: (rest ++ after), isBlank c = false := by
    obtain ⟨c, hmem, hc⟩ := hvisible
    rw [hsplit, List.mem_append] at hmem
    rcases hmem with hmem | hmem
    · exact absurd (List.eq_of_mem_replicate hmem) (Text.ne_newline_of_not_isBlank hc)
    · refine ⟨c, ?_, hc⟩
      rw [← List.cons_append, ← List.append_assoc]
      exact List.mem_append_left after hmem
  obtain ⟨line, tail, htail, hne', hkept⟩ := exists_normalize_line hne hline hvisible'
  refine ⟨limitNewlines 0 (before ++ List.replicate k '\n'), line, tail, ?_, hne', hkept, ?_, ?_⟩
  · rw [hdocument, normalize_append _ hvisible' (head_ne_newline hne hline _), htail,
      List.append_assoc]
  · rcases hbefore with rfl | hbefore
    · left
      intro c hc
      rw [List.nil_append, limitNewlines_newlines] at hc
      exact List.eq_of_mem_replicate hc
    · right
      exact emptyLine_isSuffix_limitNewlines (emptyLine_isSuffix_append_newlines hbefore k)
  · rw [dropNewlines_limitNewlines]
    simp [dropNewlines]

/-- Blocks stay apart, however deep they stand in elements that stand for their children. Before
each block an empty line has been written, or nothing. In the finished document, each block of which
something can be seen begins a line, behind an empty line or newlines alone. -/
theorem blocks_apart {ns before after : List Node} {b : Node}
    (h : HasBlocks ns (before ++ b :: after)) (dialect : Dialect) :
    rawMarkdown dialect [] ns =
        written dialect before ++ blockNode dialect defaultRules b ++ written dialect after ∧
      EndsApart (written dialect before) ∧
      ((∃ c ∈ blockNode dialect defaultRules b, isBlank c = false) →
        BeginsLine (written dialect before) (blockNode dialect defaultRules b)
          (markdown dialect [] ns)) := by
  have hblocks := h.isBlock
  rw [List.forall_mem_append, List.forall_mem_cons] at hblocks
  obtain ⟨hbefore, hb, -⟩ := hblocks
  have hraw : rawMarkdown dialect [] ns =
      written dialect before ++ blockNode dialect defaultRules b ++ written dialect after := by
    refine (h.blockAll_eq dialect).trans ?_
    rw [written, List.flatMap_append, List.flatMap_cons, List.append_assoc]
    rfl
  have hapart : EndsApart (written dialect before) :=
    .flatMap fun n hn => (hbefore n hn).endsApart dialect
  refine ⟨hraw, hapart, fun hvisible => ?_⟩
  rw [markdown, hraw]
  exact beginsLine hapart (hb.endsApart dialect) hvisible _

/-- Blocks of which nothing is seen between others, and a line that ends the document. -/
theorem blocks_apart_nested :
    let title : Node := .element "H1" [] [.text "a"]
    let quote : Node := .element "blockquote" [] [.element "p" [] []]
    let space : Node := .element "p" [] [.text "\n\n "]
    let lis : Node := .element "ol" [] [.element "li" [] [.text "b"]]
    let code : Node := .element "pre" [] []
    let ns : List Node := [.element "div" [] [.comment "c", title,
      .element "section" [⟨"data-word-footnotes", []⟩] [quote, .element "main" [] [space, lis]]],
      code]
    HasBlocks ns ([title, quote, space] ++ lis :: [code]) ∧
      EndsApart (written .gfm [title, quote, space]) ∧
      BeginsLine (written .gfm [title, quote, space]) "\n1. b\n\n" (markdown .gfm [] ns) ∧
      markdown .gfm [] ns = "\n# a\n\n \n\n1. b\n\n\x60\x60\x60\n\n\x60\x60\x60\n" := by
  intro title quote space lis code ns
  have hlist : IsBlock lis := .list (Or.inr (by decide)) ⟨_, List.mem_cons_self, by decide⟩
  have hinner : HasBlocks [space, lis] [space, lis] :=
    .block (.plain (by decide)) (.block hlist .nil)
  have hsection : HasBlocks [quote, .element "main" [] [space, lis]] [quote, space, lis] :=
    .block (.plain (by decide)) (.transparent (Or.inl rfl) hinner .nil)
  have hdiv : HasBlocks [.comment "c", title, .element "section" [⟨"data-word-footnotes", []⟩]
      [quote, .element "main" [] [space, lis]]] [title, quote, space, lis] :=
    .silent rfl (.block (.plain (by decide))
      (.transparent (Or.inr ⟨by decide, by decide⟩) hsection .nil))
  have hcode : HasBlocks [code] [code] := .block (.plain (by decide)) .nil
  have hblocks : HasBlocks ns ([title, quote, space, lis] ++ [code]) :=
    .transparent (Or.inl rfl) hdiv hcode
  obtain ⟨-, hapart, hbegins⟩ := @blocks_apart ns [title, quote, space] [code] lis hblocks .gfm
  have hlis : blockNode .gfm defaultRules lis = "\n1. b\n\n" := by decide +kernel
  rw [hlis] at hbegins
  exact ⟨hblocks, hapart, hbegins ⟨'1', by decide, by decide⟩, by decide +kernel⟩

end MarkdownExport.Markdown
