import Mathlib.Data.List.Nodup
import MarkdownExport.Markdown.Template
import MarkdownExport.Proofs.Markdown.Rules

/-! What overrides change. Of several overrides for one tag the last one counts, and a document goes
by the rules of its own tags alone. -/
namespace MarkdownExport

/-- Of the entries that are put over a dictionary the last one with a key counts. -/
theorem Dictionary.find?_overlay {α : Type} (k : Text) (d : Dictionary α)
    (entries : List (Text × α)) :
    find? k (overlay d entries) = (find? k entries.reverse).or (find? k d) := by
  have hlast (e : Text × α) (es : List (Text × α)) :
      find? k (es ++ [e]) = (find? k es).or (if e.1 = k then some e.2 else none) := by
    induction es with
    | nil => rfl
    | cons e' es ih =>
      rw [List.cons_append, find?, find?, ih]
      split <;> rfl
  induction entries generalizing d with
  | nil => rfl
  | cons e entries ih =>
    rw [List.reverse_cons, hlast, Option.or_assoc]
    refine (ih (insert e.1 e.2 d)).trans (congrArg _ ?_)
    rw [find?_insert]
    split <;> rfl

namespace Markdown
open scoped List

/-- The rule that elements of a tag go to, if they go to one. -/
def ruleFor? (overrides : RuleTable) (tag : Text) : Option Rule :=
  (defaultRules.merge overrides).find? tag.lower

/-- The rule of the last override for a tag. -/
def override? (overrides : RuleTable) (tag : Text) : Option Rule :=
  (overrides.reverse.find? fun e => e.1.equalsIgnoringCase tag).map Prod.snd

theorem ruleFor?_eq (overrides : RuleTable) (tag : Text) :
    ruleFor? overrides tag = (override? overrides tag).or (defaultRules.find? tag.lower) := by
  have hfind (es : List (Text × Rule)) :
      Dictionary.find? tag.lower (es.map fun e => (e.1.lower, e.2)) =
        (es.find? fun e => e.1.equalsIgnoringCase tag).map Prod.snd := by
    induction es with
    | nil => rfl
    | cons e es ih =>
      rw [List.map_cons, Dictionary.find?, List.find?_cons, ih, Text.equalsIgnoringCase]
      by_cases h : e.1.lower = tag.lower
      · rw [if_pos h, h, beq_self_eq_true]
        rfl
      · rw [if_neg h, beq_false_of_ne h]
  unfold ruleFor? override? RuleTable.merge
  rw [Dictionary.find?_overlay, ← List.map_reverse, hfind]

theorem override?_eq_none {overrides : RuleTable} {tag : Text} :
    override? overrides tag = none ↔ ∀ e ∈ overrides, e.1.equalsIgnoringCase tag = false := by
  simp [override?]

/-- An override that is found is one of the table, for that tag. -/
theorem exists_of_override? {overrides : RuleTable} {tag : Text} {rule : Rule}
    (h : override? overrides tag = some rule) :
    ∃ e ∈ overrides, e.1.equalsIgnoringCase tag = true ∧ e.2 = rule := by
  obtain ⟨e, hfound, hrule⟩ := Option.map_eq_some_iff.mp h
  have hmem := List.mem_of_find?_eq_some hfound
  rw [List.find?_eq_some_iff_append] at hfound
  exact ⟨e, List.mem_reverse.mp hmem, hfound.1, hrule⟩

theorem override?_append (before after : RuleTable) (tag : Text) :
    override? (before ++ after) tag = (override? after tag).or (override? before tag) := by
  unfold override?
  rw [List.reverse_append, List.find?_append, Option.map_or]

theorem override?_cons (e : Text × Rule) (overrides : RuleTable) (tag : Text) :
    override? (e :: overrides) tag =
      (override? overrides tag).or (if e.1.equalsIgnoringCase tag then some e.2 else none) := by
  rw [← List.singleton_append, override?_append]
  congr 1
  unfold override?
  rw [List.reverse_singleton, List.find?_cons]
  cases e.1.equalsIgnoringCase tag <;> rfl

/-- Only the rules of the tags in a forest matter. -/
theorem blockEach_congr (dialect : Dialect) {rules rules' : RuleTable} {ns : List Node}
    (h : ∀ n ∈ Node.preorder ns, ∀ tag, n.tag? = some tag → rules.find? tag = rules'.find? tag) :
    blockEach dialect rules ns = blockEach dialect rules' ns := by
  induction ns using Node.forest_induction with
  | nil => rfl
  | text content ns ih =>
    rw [Node.forall_preorder_cons] at h
    rw [blockEach, blockEach, ih h.2.2]
    rfl
  | element tag attributes children ns ihc ih =>
    rw [Node.forall_preorder_cons] at h
    obtain ⟨htag, hchildren, hns⟩ := h
    rw [blockEach, blockEach, ih hns]
    unfold blockNode
    rw [htag tag.lower rfl, ihc hchildren]
  | silent n ns hn ih =>
    rw [Node.forall_preorder_cons] at h
    rw [blockEach, blockEach, ih h.2.2, blockNode_of_isSilent hn, blockNode_of_isSilent hn]

/-- Two tables of overrides give the same Markdown if they give the same rule to each tag of the
document. -/
theorem markdown_congr (dialect : Dialect) {overrides overrides' : RuleTable}
    {document : List Node}
    (h : ∀ n ∈ Node.preorder document, ∀ tag, n.isTag tag = true →
      ruleFor? overrides tag = ruleFor? overrides' tag) :
    rawMarkdown dialect overrides document = rawMarkdown dialect overrides' document ∧
      markdown dialect overrides document = markdown dialect overrides' document := by
  have hraw : rawMarkdown dialect overrides document =
      rawMarkdown dialect overrides' document := by
    refine congrArg List.flatten (blockEach_congr dialect fun n hn tag htag => ?_)
    cases n with
    | element t attributes children =>
      obtain rfl := Option.some.inj htag
      exact h _ hn t (by simp [Node.isTag, Text.equalsIgnoringCase])
    | text | comment | doctype | instruction => cases htag
  exact ⟨hraw, congrArg normalize hraw⟩

theorem isTag_congr {tag tag' : Text} (h : tag.equalsIgnoringCase tag' = true) (n : Node) :
    n.isTag tag = n.isTag tag' := by
  have hlower : tag.lower = tag'.lower := by simpa [Text.equalsIgnoringCase] using h
  cases n with
  | element => simp only [Node.isTag, Text.equalsIgnoringCase, hlower]
  | text | comment | doctype | instruction => rfl

/-- An override for a tag that no element of the document has changes nothing, and neither does the
only override for its tag if it hands each element to the default rule of that tag. -/
theorem markdown_insert_override (dialect : Dialect) {before after : RuleTable} {tag : Text}
    {rule : Rule} {document : List Node}
    (h : (∀ n ∈ Node.preorder document, n.isTag tag = false) ∨
      (∀ e ∈ before ++ after, e.1.equalsIgnoringCase tag = false) ∧
        ∃ default, defaultRules.find? tag.lower = some default ∧ ∀ s, rule s = default s) :
    rawMarkdown dialect (before ++ (tag, rule) :: after) document =
        rawMarkdown dialect (before ++ after) document ∧
      markdown dialect (before ++ (tag, rule) :: after) document =
        markdown dialect (before ++ after) document := by
  apply markdown_congr
  intro n hn t ht
  cases heq : tag.equalsIgnoringCase t with
  | false =>
    rw [ruleFor?_eq, ruleFor?_eq, override?_append, override?_append, override?_cons, heq,
      if_neg Bool.false_ne_true, Option.or_none]
  | true =>
    have hn' : n.isTag tag = true := (isTag_congr heq n).trans ht
    rcases h with h | ⟨hothers, default, hdefault, hrule⟩
    · rw [h n hn] at hn'
      cases hn'
    · have hlower : tag.lower = t.lower := by simpa [Text.equalsIgnoringCase] using heq
      have hnone : override? (before ++ after) t = none := by
        rw [override?_eq_none]
        intro e he
        have hother := hothers e he
        rwa [Text.equalsIgnoringCase, hlower] at hother
      rw [override?_append, Option.or_eq_none_iff] at hnone
      obtain ⟨hafter, hbefore⟩ := hnone
      obtain rfl : rule = default := funext hrule
      rw [ruleFor?_eq, ruleFor?_eq, override?_append, override?_append, override?_cons, heq, hafter,
        hbefore, ← hlower, hdefault]
      rfl

/-- An override for a tag that is not there, and a template that goes back to the default rule. -/
theorem markdown_insert_override_template :
    let rules : RuleTable := [("P", template [.literal "<", .inline, .literal ">"])]
    let aside : RuleTable := [("aside", template [.literal "y"])]
    let quote : RuleTable := [("BlockQuote", template [.defaultRule "blockquote"])]
    let document : List Node := [.element "blockquote" [] [.element "p" [] [.text "x"]]]
    markdown .gfm (rules ++ aside) document = "\n> <x>\n" ∧
      markdown .gfm (quote ++ rules) document = "\n> <x>\n" := by
  intro rules aside quote document
  have hplain : markdown .gfm rules document = "\n> <x>\n" := by decide +kernel
  constructor
  · have haside : ∀ n ∈ Node.preorder document, n.isTag "aside" = false := by decide +kernel
    exact (markdown_insert_override .gfm (.inl haside)).2.trans hplain
  · have hothers : ∀ e ∈ rules, e.1.equalsIgnoringCase "BlockQuote" = false := by
      simp only [rules, List.forall_mem_singleton]
      decide
    have hquote := @markdown_insert_override .gfm [] rules "BlockQuote" _ document
      (.inr ⟨hothers, blockquote, rfl, fun s => List.append_nil _⟩)
    exact hquote.2.trans hplain

/-! The order in which overrides are given. -/

/-- All overrides for the tag have the same rule. -/
def IsUnambiguous (overrides : RuleTable) (tag : Text) : Prop :=
  ∀ e ∈ overrides, ∀ f ∈ overrides, e.1.equalsIgnoringCase tag = true →
    f.1.equalsIgnoringCase tag = true → e.2 = f.2

theorem isUnambiguous_of_nodup {overrides : RuleTable}
    (h : (overrides.map fun e => e.1.lower).Nodup) (tag : Text) : IsUnambiguous overrides tag := by
  intro e he f hf hetag hftag
  have hlower : e.1.lower = f.1.lower := by
    rw [Text.equalsIgnoringCase, beq_iff_eq] at hetag hftag
    rw [hetag, hftag]
  rw [List.inj_on_of_nodup_map h he hf hlower]

/-- The rule of a tag without ambiguity is that of its overrides, or else its default rule. -/
theorem ruleFor?_of_isUnambiguous {overrides : RuleTable} {tag : Text}
    (h : IsUnambiguous overrides tag) :
    (∀ e ∈ overrides, e.1.equalsIgnoringCase tag = true → ruleFor? overrides tag = some e.2) ∧
      ((∀ e ∈ overrides, e.1.equalsIgnoringCase tag = false) →
        ruleFor? overrides tag = defaultRules.find? tag.lower) := by
  constructor
  · intro e he htag
    cases hfound : override? overrides tag with
    | none =>
      rw [override?_eq_none.mp hfound e he] at htag
      cases htag
    | some rule =>
      obtain ⟨f, hf, hftag, rfl⟩ := exists_of_override? hfound
      rw [ruleFor?_eq, hfound, h f hf e he hftag htag, Option.some_or]
  · intro hnone
    rw [ruleFor?_eq, override?_eq_none.mpr hnone, Option.none_or]

theorem ruleFor?_perm {overrides order : RuleTable} {tag : Text}
    (h : IsUnambiguous overrides tag) (horder : order ~ overrides) :
    ruleFor? order tag = ruleFor? overrides tag := by
  have horderly : IsUnambiguous order tag := fun e he f hf =>
    h e (horder.mem_iff.mp he) f (horder.mem_iff.mp hf)
  cases hfound : override? overrides tag with
  | none =>
    have hnone := override?_eq_none.mp hfound
    rw [(ruleFor?_of_isUnambiguous h).2 hnone, (ruleFor?_of_isUnambiguous horderly).2
      fun e he => hnone e (horder.mem_iff.mp he)]
  | some rule =>
    obtain ⟨e, he, htag, -⟩ := exists_of_override? hfound
    rw [(ruleFor?_of_isUnambiguous h).1 e he htag,
      (ruleFor?_of_isUnambiguous horderly).1 e (horder.mem_iff.mpr he) htag]

/-- An override can be given as the last one, and then its tag has its rule. -/
theorem exists_order_ruleFor? {overrides : RuleTable} {e : Text × Rule} (he : e ∈ overrides)
    {tag : Text} (htag : e.1.equalsIgnoringCase tag = true) :
    ∃ order : RuleTable, order ~ overrides ∧ ruleFor? order tag = some e.2 := by
  obtain ⟨before, after, rfl⟩ := List.append_of_mem he
  refine ⟨(e :: (before ++ after)).reverse, ?_, ?_⟩
  · exact (List.reverse_perm _).trans List.perm_middle.symm
  · have hlast : override? (e :: (before ++ after)).reverse tag = some e.2 := by
      rw [List.reverse_cons, override?_append, override?_cons, htag]
      rfl
    rw [ruleFor?_eq, hlast, Option.some_or]

/-- Without ambiguity the rule of a tag is that of its overrides, or else its default rule, and a
document has the same Markdown in all orders of the overrides. A tag that is ambiguous has different
rules in some orders. Tags that differ in more than their case are never ambiguous. -/
theorem ruleFor?_order (overrides : RuleTable) :
    (∀ tag, IsUnambiguous overrides tag →
      (∀ e ∈ overrides, e.1.equalsIgnoringCase tag = true → ruleFor? overrides tag = some e.2) ∧
        ((∀ e ∈ overrides, e.1.equalsIgnoringCase tag = false) →
          ruleFor? overrides tag = defaultRules.find? tag.lower)) ∧
    (∀ tag, (∀ order, order ~ overrides → ruleFor? order tag = ruleFor? overrides tag) ↔
      IsUnambiguous overrides tag) ∧
    (∀ dialect document, (∀ n ∈ Node.preorder document, ∀ tag, n.isTag tag = true →
        IsUnambiguous overrides tag) → ∀ order, order ~ overrides →
      rawMarkdown dialect order document = rawMarkdown dialect overrides document ∧
        markdown dialect order document = markdown dialect overrides document) ∧
    ((overrides.map fun e => e.1.lower).Nodup → ∀ tag, IsUnambiguous overrides tag) := by
  refine ⟨fun tag => ruleFor?_of_isUnambiguous, fun tag => ⟨?_, fun h order => ruleFor?_perm h⟩, ?_,
    isUnambiguous_of_nodup⟩
  · intro h e he f hf hetag hftag
    obtain ⟨order, horder, hrule⟩ := exists_order_ruleFor? he hetag
    obtain ⟨order', horder', hrule'⟩ := exists_order_ruleFor? hf hftag
    rw [h order horder, ← h order' horder', hrule'] at hrule
    exact (Option.some.inj hrule).symm
  · intro dialect document h order horder
    exact markdown_congr dialect fun n hn tag htag => ruleFor?_perm (h n hn tag htag) horder

/-- Tags that differ in their case alone: the override that is given last counts. -/
theorem ruleFor?_order_ambiguous :
    let upper : Text × Rule := ("P", template [.literal "x"])
    let lower : Text × Rule := ("p", template [.literal "y"])
    let document : List Node := [.element "p" [] []]
    ([upper, lower].map Prod.fst).Nodup ∧ [lower, upper] ~ [upper, lower] ∧
      ruleFor? [upper, lower] "p" ≠ ruleFor? [lower, upper] "p" ∧
      markdown .gfm [upper, lower] document = "y\n" ∧
      markdown .gfm [lower, upper] document = "x\n" := by
  intro upper lower document
  refine ⟨by decide, List.Perm.swap _ _ _, ?_, by decide +kernel, by decide +kernel⟩
  intro h
  have hrules : lower.2 = upper.2 := Option.some.inj h
  have htexts := congrFun hrules ⟨"p", [], [], .gfm, .pure []⟩
  exact absurd htexts (by decide)

end Markdown
end MarkdownExport
