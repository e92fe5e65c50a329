import MarkdownExport.Markdown.Default
import MarkdownExport.Proofs.Markdown.Rules
import MarkdownExport.Proofs.Text.Trimming

/-! Escaped text. No blank is escaped and no escape is blank, so spacing may be normalized before
the text is escaped or after it. A tree whose tags have no rules is such a text. -/
namespace MarkdownExport.Markdown

theorem isBlank_of_isSignificant {c : Char} (h : isSignificant c = true) : isBlank c = false := by
  have hall : ∀ d ∈ ['\\', '\x60', '*', '_', '[', ']', '(', ')', '#', '-'],
      isBlank d = false := by
    decide
  exact hall c (of_decide_eq_true h)

theorem limitNewlines_escape (n : Nat) (t : Text) :
    limitNewlines n (escape t) = escape (limitNewlines n t) := by
  induction t generalizing n with
  | nil => rfl
  | cons c t ih =>
    rw [escape_cons, limitNewlines]
    by_cases hc : isSignificant c
    · have hnewline : c ≠ '\n' := by
        rintro rfl
        exact absurd hc (by decide)
      rw [if_pos hc, if_neg hnewline, escape_cons, if_pos hc, ← ih]
      simp [limitNewlines, hnewline]
    · rw [if_neg hc]
      show limitNewlines n (c :: escape t) = _
      rw [limitNewlines]
      split
      · split
        · rw [ih, escape_cons, if_neg hc]
          rfl
        · exact ih n
      · rw [ih, escape_cons, if_neg hc]
        rfl

/-- A blank is not escaped, and an escape is not blank. -/
theorem trimEnd_escape (t : Text) : Text.trimEnd (escape t) = escape t.trimEnd := by
  induction t using List.reverseRecOn with
  | nil => rfl
  | append_singleton t c ih =>
    by_cases hblank : isBlank c
    · have hplain : ¬ isSignificant c = true := by
        intro h
        exact absurd ((isBlank_of_isSignificant h).symm.trans hblank) Bool.false_ne_true
      have hends (s : Text) : Text.trimEnd (s ++ [c]) = s.trimEnd :=
        Text.trimEnd_append_blank s hblank
      rw [escape_append, escape_cons, if_neg hplain, escape_nil, List.append_nil, hends, hends, ih]
    · have hends (s : Text) : Text.trimEnd (s ++ [c]) = s ++ [c] :=
        Text.trimEnd_append_nonblank s (by simpa using hblank)
      rw [hends, escape_append, escape_cons, escape_nil, List.append_nil]
      split
      · show Text.trimEnd (escape t ++ (['\\'] ++ [c])) = escape t ++ (['\\'] ++ [c])
        rw [← List.append_assoc, hends]
      · rw [hends]

theorem normalize_escape (t : Text) : normalize (escape t) = escape (normalize t) := by
  rw [normalize, normalize, limitNewlines_escape, trimEnd_escape, escape_append]
  rfl

/-! Trees without rules. -/

def hasDefaultRule (n : Node) : Bool :=
  n.tag?.any fun tag => (defaultRules.find? tag).isSome

/-- Elements without a rule stand for their texts. -/
theorem blockAll_of_no_rule {dialect : Dialect} {ns : List Node}
    (h : ∀ n ∈ Node.preorder ns, hasDefaultRule n = false) :
    blockAll dialect defaultRules ns = escape (Node.textOf ns) := by
  induction ns using Node.forest_induction with
  | nil => rfl
  | text content ns ih =>
    rw [Node.forall_preorder_cons] at h
    rw [blockAll_cons, ih h.2.2, Node.textOf_cons, escape_append]
    rfl
  | element tag attributes children ns ihc ih =>
    rw [Node.forall_preorder_cons] at h
    obtain ⟨htag, hchildren, hns⟩ := h
    have hrule : defaultRules.find? tag.lower = none := by
      simpa [hasDefaultRule, Node.tag?] using htag
    have hnode : blockNode dialect defaultRules (.element tag attributes children) =
        blockAll dialect defaultRules children := by
      rw [blockNode, hrule]
      rfl
    rw [blockAll_cons, hnode, ihc hchildren, ih hns, Node.textOf_cons, escape_append]
    rfl
  | silent n ns hn ih =>
    rw [Node.forall_preorder_cons] at h
    rw [blockAll_cons, blockNode_of_isSilent hn, ih h.2.2, Node.textOf_cons,
      Node.textContent_of_isSilent hn]
    rfl

/-- A tree in which no tag has a default rule becomes its text with its punctuation escaped, in
either dialect, and a finished document becomes its text with its spacing normalized. The text is
read back by taking the escapes away. -/
theorem markdown_of_no_rule (dialect : Dialect) {ns : List Node}
    (h : ∀ n ∈ Node.preorder ns, hasDefaultRule n = false) :
    rawMarkdown dialect [] ns = escape (Node.textOf ns) ∧
      markdown dialect [] ns = escape (normalize (Node.textOf ns)) ∧
      unescape (markdown dialect [] ns) = normalize (Node.textOf ns) := by
  have hraw : rawMarkdown dialect [] ns = escape (Node.textOf ns) := blockAll_of_no_rule h
  have hmarkdown : markdown dialect [] ns = escape (normalize (Node.textOf ns)) := by
    rw [markdown, hraw, normalize_escape]
  refine ⟨hraw, hmarkdown, ?_⟩
  rw [hmarkdown, unescape_escape]

/-- Backslashes, runs of newlines across elements, and tags that mean something in a line only. -/
def unruledTree : List Node :=
  [.element "DIV" [] [.text "a\\_\n\n", .comment "b", .element "strong" [] [.text "\n# \\"]],
    .element "a" [⟨"href", "/c"⟩] [.doctype "html", .text "-\\\\d\u00a0"], .text "\n \n"]

theorem markdown_unruledTree :
    (∀ n ∈ Node.preorder unruledTree, hasDefaultRule n = false) ∧
      markdown .gfm [] unruledTree = "a\\\\\\_\n\n\\# \\\\\\-\\\\\\\\d\n" ∧
      unescape (markdown .gfm [] unruledTree) = "a\\_\n\n# \\-\\\\d\n" := by
  have hunruled : ∀ n ∈ Node.preorder unruledTree, hasDefaultRule n = false := by decide
  obtain ⟨-, hmarkdown, hunescape⟩ := markdown_of_no_rule .gfm hunruled
  refine ⟨hunruled, ?_, ?_⟩
  · rw [hmarkdown]
    decide +kernel
  · rw [hunescape]
    decide +kernel

end MarkdownExport.Markdown
