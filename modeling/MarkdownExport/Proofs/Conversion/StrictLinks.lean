import MarkdownExport.Conversion
import MarkdownExport.Proofs.Markdown.Copied
import MarkdownExport.Proofs.Word.Url
import MarkdownExport.Proofs.Word.WellFormed

/-! Links to scripts in the Markdown of strict snapshots. None is made from escaped text or by a
sanitized target, so there is one exactly if a text that is copied as it is has one. -/
namespace MarkdownExport.Word
open Markdown
variable {V : Vocabulary} {t : Text} {ns : List Node}

theorem inlineAll_element (dialect : Dialect) (tag : Text) (attributes : List Attribute)
    (ns : List Node) : inlineAll dialect [.element tag attributes ns] =
      (Phrase.ofTag tag.lower).render dialect attributes ns (inlineAll dialect ns) := by
  rw [inlineAll_cons, inlineAll_nil, List.append_nil]
  rfl

theorem inlineAll_link (dialect : Dialect) (target : Text) (ns : List Node) :
    inlineAll dialect [.element "a" [⟨"href", target⟩] ns] =
      "[" ++ (if (inlineAll dialect ns).isEmpty then Node.textOf ns else inlineAll dialect ns) ++
        "](" ++ target ++ ")" := by
  have htag : Phrase.ofTag (Text.lower "a") = .link := by decide
  have hname : Text.equalsIgnoringCase "href" "href" = true := by decide
  have hvalue : Attribute.find? "href" [⟨"href", target⟩] = some target := by
    rw [Attribute.find?, List.find?_cons_of_pos (by exact hname)]
    rfl
  rw [inlineAll_element, htag, Phrase.render, Markdown.link, hvalue]
  rfl

/-- The Markdown around what is in a mark. -/
theorem inlineAll_mark (mark : Mark) (ns : List Node) :
    ∃ s u : Text, (∀ c ∈ s ++ u, c ≠ '(' ∧ c ≠ ']') ∧
      inlineAll .gfm [.element mark.tag [] ns] = s ++ inlineAll .gfm ns ++ u := by
  rw [inlineAll_element]
  cases mark with
  | strong => exact ⟨"**", "**", by decide, rfl⟩
  | emphasis => exact ⟨"*", "*", by decide, rfl⟩
  | deleted => exact ⟨"~~", "~~", by decide, rfl⟩
  | superscript => exact ⟨"^", [], by decide, (List.append_nil _).symm⟩

theorem linkTargets_mark (mark : Mark) (ns : List Node) :
    linkTargets [.element mark.tag [] ns] = linkTargets ns :=
  linkTargets_element (by cases mark <;> decide) [] ns

theorem InlineHtml.isInfix_inlineAll (h : InlineHtml V t ns) {target : Text}
    (ht : target ∈ linkTargets ns) : target <:+: inlineAll .gfm ns := by
  induction h with
  | nil => cases ht
  | append _ _ ihs iht =>
    rw [linkTargets_append] at ht
    rw [inlineAll_append]
    rcases List.mem_append.mp ht with ht | ht
    · exact (ihs ht).trans (List.prefix_append _ _).isInfix
    · exact (iht ht).trans (List.suffix_append _ _).isInfix
  | text | lineBreak | image => cases ht
  | @marked mark _ ns _ ih =>
    rw [linkTargets_mark] at ht
    obtain ⟨s, u, -, hmark⟩ := inlineAll_mark mark ns
    rw [hmark]
    exact (ih ht).trans ⟨s, u, rfl⟩
  | @link v _ ns _ _ _ ih =>
    rw [linkTargets_link] at ht
    rw [inlineAll_link]
    rcases List.mem_cons.mp ht with rfl | ht
    · exact ⟨_, ")", rfl⟩
    · have hinner := ih ht
      split
      · rename_i hempty
        rw [List.isEmpty_iff.mp hempty, List.infix_nil] at hinner
        rw [hinner]
        exact List.nil_infix
      · simp only [List.append_assoc]
        refine hinner.trans ?_
        exact (List.prefix_append _ _).isInfix.trans (List.suffix_append _ _).isInfix

theorem InlineHtml.inlineAll_sealed (h : InlineHtml .sanitized t ns)
    (hns : ∀ target ∈ linkTargets ns, ¬ HasScriptLink target) : Sealed (inlineAll .gfm ns) := by
  induction h with
  | nil => exact Sealed.nil
  | append _ _ ihs iht =>
    rw [linkTargets_append, List.forall_mem_append] at hns
    rw [inlineAll_append]
    exact (ihs hns.1).append (iht hns.2)
  | text _ =>
    rw [inlineAll_cons, inlineAll_nil, List.append_nil]
    exact Sealed.escape _
  | lineBreak => exact Sealed.nil
  | image hV => exact hV.elim
  | @marked mark _ ns _ ih =>
    rw [linkTargets_mark] at hns
    obtain ⟨s, u, hplain, hmark⟩ := inlineAll_mark mark ns
    rw [List.forall_mem_append] at hplain
    rw [hmark]
    exact ((Sealed.of_plain hplain.1).append (ih hns)).append (Sealed.of_plain hplain.2)
  | @link v _ ns _ hV _ ih =>
    rw [linkTargets_link, List.forall_mem_cons] at hns
    obtain ⟨htarget, hns⟩ := hns
    obtain ⟨given, target, hsanitized, rfl⟩ := hV
    rw [decode_escapeValue] at htarget ⊢
    rw [inlineAll_link]
    refine Sealed.link ?_ htarget fun scheme hscheme hstart => ?_
    · split
      · rename_i hempty
        rw [textOf_eq_nil ns (List.isEmpty_iff.mp hempty)]
        exact Sealed.nil
      · exact ih hns
    · exact sanitizeTarget_safe hsanitized _ hscheme (hstart.map Char.toLower)

theorem InlineHtml.hasScriptLink_iff (h : InlineHtml .sanitized t ns) :
    HasScriptLink (inlineAll .gfm ns) ↔ ∃ target ∈ linkTargets ns, HasScriptLink target := by
  constructor
  · intro hlink
    by_contra hnone
    refine (h.inlineAll_sealed fun target ht hl => ?_).not_hasScriptLink hlink
    exact hnone ⟨target, ht, hl⟩
  · rintro ⟨target, ht, hl⟩
    exact hl.mono (h.isInfix_inlineAll ht)

/-! Lists. -/

theorem InlineHtml.findAll_isCheckbox (h : InlineHtml V t ns) :
    Node.findAll Node.isCheckbox ns = [] := by
  induction h with
  | nil | text | lineBreak | image => rfl
  | append _ _ ihs iht => rw [Node.findAll_append, ihs, iht, List.append_nil]
  | marked mark _ ih =>
    rw [Node.findAll_cons, Node.findBelow_eq, Node.children, ih]
    cases mark <;> rfl
  | link _ _ _ ih =>
    rw [Node.findAll_cons, Node.findBelow_eq, Node.children, ih]
    rfl

theorem InlineHtml.itemLine_eq (h : InlineHtml V t ns) (kind : ListKind) (i : Nat) :
    itemLine .gfm kind i (.element "li" [] ns) =
      kind.marker i ++ (inlineAll .gfm ns).trim ++ "\n" := by
  have hbox : taskBox? .gfm (.element "li" [] ns) = none :=
    Node.locateFrom_eq_none 0 ns h.findAll_isCheckbox
  rw [itemLine, hbox]
  rfl

theorem marker_notMem (kind : ListKind) (i : Nat) : ']' ∉ kind.marker i := by
  cases kind with
  | bulleted =>
    change ']' ∉ ("- " : Text)
    decide
  | numbered start =>
    change ']' ∉ signedDecimal (itemNumber start i) ++ ". "
    have hnumeral : ']' ∉ signedDecimal (itemNumber start i) :=
      notMem_signedDecimal rfl (by decide) _
    simp [hnumeral]

theorem ItemsHtml.itemLines_copies (h : ItemsHtml .sanitized t ns) (kind : ListKind) (i : Nat) :
    Copies (linkTargets ns) (itemLinesFrom .gfm kind i ns) := by
  induction h generalizing i with
  | nil => exact Copies.nil
  | @cons s t ms ns hi _ ih =>
    rw [linkTargets_cons, linkTargets_element (by decide), itemLinesFrom, hi.itemLine_eq]
    have hline := Copies.line (HasScriptLink.trim_iff.trans hi.hasScriptLink_iff)
    have hitem := hline.enclose (marker_notMem kind i) List.not_mem_nil
    rw [List.append_nil, ← List.append_assoc] at hitem
    exact hitem.append (ih (i + 1))

theorem ItemsHtml.items_eq (h : ItemsHtml V t ns) : items ns = ns := by
  induction h with
  | nil => rfl
  | cons _ _ ih =>
    rw [items, List.filter_cons_of_pos (by rfl)]
    exact congrArg _ ih

theorem ItemsHtml.list_copies (h : ItemsHtml .sanitized t ns) (kind : ListKind) {s : Subject}
    (hdialect : s.dialect = .gfm) (hs : s.children = ns) (hne : ns ≠ []) :
    Copies (linkTargets ns) (list kind s) := by
  have hlist : list kind s = "\n" ++ itemLinesFrom .gfm kind 0 ns ++ "\n" := by
    rw [list, hs, h.items_eq, hdialect]
    cases ns with
    | nil => exact absurd rfl hne
    | cons n ns => rfl
  rw [hlist]
  exact (h.itemLines_copies kind 0).enclose (by decide) (by decide)

/-! Blocks. -/

theorem blockNode_of_rule {dialect : Dialect} {rules : RuleTable} {rule : Rule} {tag : Text}
    (h : rules.find? tag.lower = some rule) (attributes : List Attribute) (ns : List Node) :
    blockNode dialect rules (.element tag attributes ns) =
      rule ⟨tag, attributes, ns, dialect, .mk fun _ => blockEach dialect rules ns⟩ := by
  rw [blockNode, h]

theorem copiedFrom_element {tag : Text}
    (h : ∀ name ∈ (["table", "section", "a"] : List Text),
      tag.equalsIgnoringCase name = false)
    (attributes : List Attribute) (ns : List Node) :
    copiedFrom (.element tag attributes ns) = linkTargets ns := by
  simp only [List.forall_mem_cons] at h
  obtain ⟨htable, hsection, hlink, -⟩ := h
  rw [copiedFrom, Node.isTag, htable, Node.isTag, hsection]
  exact linkTargets_element hlink attributes ns

theorem InlineHtml.paragraph_copies (h : InlineHtml .sanitized t ns) :
    Copies (linkTargets ns) (inlineAll .gfm ns ++ "\n\n") := by
  have hline := (Copies.line h.hasScriptLink_iff).enclose (s := []) (u := "\n") List.not_mem_nil
    (by decide)
  rw [List.nil_append, List.append_assoc] at hline
  exact hline

theorem BlockHtml.blockNode_copies {n : Node} (h : BlockHtml .sanitized t n) :
    Copies (copiedFrom n) (blockNode .gfm defaultRules n) := by
  cases h with
  | paragraph hi =>
    have hrule : defaultRules.find? (Text.lower "p") = some Markdown.paragraph := rfl
    rw [copiedFrom_element (by decide), blockNode_of_rule hrule]
    exact hi.paragraph_copies
  | @heading level _ _ hmin hmax hi =>
    have hrule : defaultRules.find? (Text.lower ('h' :: decimal level)) =
        some (Markdown.heading level) ∧ ∀ name ∈ (["table", "section", "a"] : List Text),
          Text.equalsIgnoringCase ('h' :: decimal level) name = false := by
      obtain rfl | rfl | rfl : level = 1 ∨ level = 2 ∨ level = 3 := by omega
      · exact ⟨rfl, by decide⟩
      · exact ⟨rfl, by decide⟩
      · exact ⟨rfl, by decide⟩
    rw [copiedFrom_element hrule.2, blockNode_of_rule hrule.1]
    have hmarks : ']' ∉ "\n" ++ List.replicate level '#' ++ " " := by simp
    have hline := hi.paragraph_copies.enclose (u := []) hmarks List.not_mem_nil
    rw [List.append_nil, ← List.append_assoc] at hline
    exact hline
  | list ordered hitems hne =>
    cases ordered with
    | false =>
      have hrule : defaultRules.find? (listTag false).lower = some bulletedList := rfl
      rw [copiedFrom_element (by decide), blockNode_of_rule hrule]
      exact hitems.list_copies .bulleted rfl rfl hne
    | true =>
      have hrule : defaultRules.find? (listTag true).lower = some numberedList := rfl
      rw [copiedFrom_element (by decide), blockNode_of_rule hrule]
      exact hitems.list_copies _ rfl rfl hne
  | table _ _ =>
    have hrule : defaultRules.find? (Text.lower "table") = some Markdown.table := rfl
    rw [blockNode_of_rule hrule]
    exact tableText_copies _

theorem BlocksHtml.blockAll_copies (h : BlocksHtml .sanitized t ns) :
    Copies (copiedTexts ns) (blockAll .gfm defaultRules ns) := by
  induction h with
  | nil => exact Copies.nil
  | cons hb _ ih =>
    rw [blockAll_cons]
    exact hb.blockNode_copies.append ih

theorem SectionHtml.blockAll_copies (h : SectionHtml V t ns) :
    Copies (copiedTexts ns) (blockAll .gfm defaultRules ns) := by
  cases h with
  | none => exact Copies.nil
  | notes _ _ =>
    have hrule : defaultRules.find? (Text.lower "section") = some sectionRule := rfl
    rw [blockAll_cons, blockAll_nil, blockNode_of_rule hrule]
    exact (footnoteList_copies _).append Copies.nil

theorem blockAll_append (dialect : Dialect) (rules : RuleTable) (ms ns : List Node) :
    blockAll dialect rules (ms ++ ns) = blockAll dialect rules ms ++ blockAll dialect rules ns := by
  induction ms with
  | nil => simp
  | cons m ms ih => simp [blockAll_cons, ih]

theorem PageHtml.blockAll_copies (h : PageHtml .sanitized t ns) :
    Copies (copiedTexts ns) (blockAll .gfm defaultRules ns) := by
  cases h with
  | mk hblocks hsection =>
    rw [copiedTexts, List.flatMap_append, blockAll_append]
    exact hblocks.blockAll_copies.append hsection.blockAll_copies

end MarkdownExport.Word

namespace MarkdownExport
open Markdown Word

/-- A conversion is there if its Markdown can be worked out. -/
theorem exists_converted {o : WordOptions} {package : Package} {markdown : Text}
    (h : (convertWord o package).toOption.map ConvertedWord.markdown = some markdown) :
    ∃ c, convertWord o package = .ok c ∧ c.markdown = markdown := by
  cases hc : convertWord o package with
  | error e =>
    rw [hc] at h
    cases h
  | ok c =>
    rw [hc] at h
    cases h
    exact ⟨c, rfl, rfl⟩

/-- Strict Markdown has a link to a script exactly if a text has one that is copied from the tree
which the snapshot denotes. -/
theorem strict_hasScriptLink_iff {package : Package} {s : Snapshot}
    (h : snapshot package .strict = .ok s)
    (hparse : PageHtml .sanitized s.html (Node.body (Html.parse s.html)))
    (frontmatter : Bool) (metadata : Option Record) (report : Bool) :
    ∃ c, convertWord ⟨{ frontmatter, metadata }, report, .strict⟩ package = .ok c ∧
      (HasScriptLink c.markdown ↔
        ∃ t ∈ copiedTexts (Node.body (Html.parse s.html)), HasScriptLink t) := by
  refine ⟨_, by rw [convertWord, h]; rfl, ?_⟩
  change HasScriptLink (normalize (blockAll .gfm (defaultRules.merge [])
    (Node.body (Html.parse s.html)))) ↔ _
  rw [HasScriptLink.normalize_iff]
  exact hparse.blockAll_copies.hasScriptLink_iff

/-- A package with a text, a link to an anchor, a cell and a footnote. -/
def copyPackage (text anchor cell id note : Text) : Package := .ofTexts
  [(documentPart, "<w:body><w:p><w:r><w:t>" ++ text ++ "</w:t></w:r>" ++
      "<w:hyperlink w:anchor='" ++ anchor ++ "'>" ++ "<w:r><w:t>x</w:t></w:r>" ++
      "</w:hyperlink></w:p>" ++ "<w:tbl><w:tr><w:tc><w:p><w:r><w:t>" ++ cell ++
      "</w:t></w:r></w:p></w:tc></w:tr></w:tbl></w:body>"),
   (footnotesPart, "<w:footnote w:id='" ++ id ++ "'><w:p><w:r><w:t>" ++ note ++
      "</w:t></w:r></w:p></w:footnote>")]

/-- What the snapshot denotes when its paragraph is written like a link. -/
def escapedNodes : List Node :=
  [.element "p" [] [.text "[x](javascript:f())", .element "a" [⟨"href", "#y"⟩] [.text "x"]],
   .element "table" [] [.element "tbody" [] (tableNodes [[("c", [.text "c"])]])],
   .element "section" [⟨"data-word-footnotes", "true"⟩]
     [.element "ol" [] [.element "li" [⟨"data-word-footnote-id", "1"⟩] [.text "[1] n"]]]]

def escapedHtml : Text :=
  "<p>[x](javascript:f())" ++ "<a href=\"#y\">x</a></p>" ++ "<table><tr><td>c</td></tr></table>" ++
    "<section data-word-footnotes=\"true\">" ++
    "<ol><li data-word-footnote-id=\"1\">[1] n</li></ol></section>"

theorem escapedHtml_page : PageHtml .sanitized escapedHtml escapedNodes := by
  have htext (t : Text) : InlineHtml .sanitized (escapeText t) [.text t] := by
    have h := InlineHtml.text (V := .sanitized) (escapeText_isText t)
    rwa [decode_escapeText] at h
  have hlink : InlineHtml .sanitized (linkTag "#y" ++ escapeText "x" ++ closeTag "a")
      [.element "a" [⟨"href", "#y"⟩] [.text "x"]] :=
    .link (escapeValue_isValue "#y") ⟨"#y", "#y", by decide, rfl⟩ (htext "x")
  have hcell : FlowHtml .sanitized "c" [.text "c"] := .inline (htext "c")
  have hcells : ∀ row ∈ [[(("c" : Text), [Node.text "c"])]], ∀ c ∈ row,
      FlowHtml .sanitized c.1 c.2 := by
    simpa using hcell
  have hnote : FlowHtml .sanitized (noteNumber 1 ++ "n") [.text "[1] n"] := .inline (htext "[1] n")
  have hnotes := NotesHtml.cons (escapeValue_isValue "1") ⟨_, .inline (htext "n")⟩ hnote .nil
  have hparagraph := BlockHtml.paragraph ((htext "[x](javascript:f())").append hlink)
  have htable := BlockHtml.table hcells (Or.inr rfl)
  exact .mk (.cons hparagraph (.cons htable .nil)) (.notes hnotes (List.cons_ne_nil _ _))

set_option maxRecDepth 10000 in
/-- Text that is written like a link to a script is escaped and makes none. -/
theorem strict_hasScriptLink_escaped :
    ∃ c, convertWord { profile := .strict } (copyPackage "[x](javascript:f())" "y" "c" "1" "n") =
      .ok c ∧ ¬ HasScriptLink c.markdown := by
  have h : (snapshot (copyPackage "[x](javascript:f())" "y" "c" "1" "n") .strict).toOption.map
      Snapshot.html = some escapedHtml := by
    simp only [snapshot, readContents, readNotes, readOptional, copyPackage, Package.text?_ofTexts]
    decide +kernel
  obtain ⟨s, hs, hhtml⟩ := exists_snapshot h
  have hbody : Node.body (Html.parse s.html) = escapedNodes := by
    rw [hhtml]
    rfl
  have hparse : PageHtml .sanitized s.html (Node.body (Html.parse s.html)) := by
    rw [hbody, hhtml]
    exact escapedHtml_page
  obtain ⟨c, hc, hlink⟩ := strict_hasScriptLink_iff hs hparse false none false
  refine ⟨c, hc, ?_⟩
  rw [hlink, hbody]
  rintro ⟨t, ht, hcopied⟩
  have hplain : ∀ t ∈ copiedTexts escapedNodes, ']' ∉ t := by decide
  exact HasScriptLink.not_of_notMem (hplain t ht) hcopied

def copiedMarkdown : Text :=
  "t[x](#y](javascript:a())\n\n" ++ "| ](data:b |\n| -------- |\n\n" ++ "## References\n\n" ++
    "[^](VBScript:c]: ](javascript:d()\n"

/-- Links to scripts come from an anchor, a cell, and the identifier and the text of a footnote. -/
theorem strict_hasScriptLink_copied :
    ∃ c, convertWord { profile := .strict } (copyPackage "t" "y](javascript:a()" "](data:b"
      "](VBScript:c" "](javascript:d()") = .ok c ∧
      c.markdown = copiedMarkdown ∧ HasScriptLink c.markdown := by
  have h : (convertWord { profile := .strict } (copyPackage "t" "y](javascript:a()" "](data:b"
      "](VBScript:c" "](javascript:d()")).toOption.map ConvertedWord.markdown =
      some copiedMarkdown := by
    simp only [convertWord, snapshot, readContents, readNotes, readOptional, copyPackage,
      Package.text?_ofTexts]
    decide +kernel
  obtain ⟨c, hc, hmarkdown⟩ := exists_converted h
  refine ⟨c, hc, hmarkdown, ?_⟩
  rw [hmarkdown]
  exact ⟨"javascript:", by unfold IsScriptScheme; decide, by decide +kernel⟩

end MarkdownExport
