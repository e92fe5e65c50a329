import MarkdownExport.Proofs.Markdown.Rules
import MarkdownExport.Proofs.Text.Trimming
import MarkdownExport.Proofs.Tree.Removal

/-! Inline Markdown without a node. It is that of the forest from which the node is taken out,
except where an element around the node is shown by its raw text, which has the text of the node in
it. -/
namespace MarkdownExport.Markdown
variable {dialect : Dialect} {path : Node.Path} {ns : List Node} {skip : Node}

/-- Around the node at a place, and in no image, there is a code span, or a link that shows nothing
without the node. Both show the raw text of all their nodes. -/
def isRevealed (dialect : Dialect) : Node.Path → List Node → Bool
  | i :: j :: path, ns =>
    match ns[i]? with
    | some (.element tag _ children) =>
      match Phrase.ofTag tag.lower with
      | .code => true
      | .image => false
      | .link =>
        (inlineAll dialect (Node.removeAt (j :: path) children)).isEmpty ||
          isRevealed dialect (j :: path) children
      | _ => isRevealed dialect (j :: path) children
    | _ => false
  | _, _ => false

/-- `after` is `before` with a word put in. -/
def Inserts (word before after : Text) : Prop :=
  ∃ s t, before = s ++ t ∧ after = s ++ word ++ t

namespace Inserts
variable {word before after : Text}

theorem here (s t : Text) : Inserts word (s ++ t) (s ++ word ++ t) := ⟨s, t, rfl, rfl⟩

theorem enclose (h : Inserts word before after) (s t : Text) :
    Inserts word (s ++ before ++ t) (s ++ after ++ t) := by
  obtain ⟨u, v, rfl, rfl⟩ := h
  exact ⟨s ++ u, v ++ t, by simp, by simp⟩

theorem length_eq (h : Inserts word before after) : after.length = before.length + word.length := by
  obtain ⟨s, t, rfl, rfl⟩ := h
  simp only [List.length_append]
  omega

theorem eq_iff (h : Inserts word before after) : after = before ↔ word = [] := by
  constructor
  · rintro rfl
    have hlength := h.length_eq
    rw [← List.length_eq_zero_iff]
    omega
  · rintro rfl
    obtain ⟨s, t, rfl, rfl⟩ := h
    rw [List.append_nil]

theorem ne_nil (h : Inserts word before after) (hbefore : before ≠ []) : after ≠ [] := by
  have hlength := h.length_eq
  rw [← List.length_pos_iff] at hbefore ⊢
  omega

end Inserts

/-- The same with visible scalars before the word and behind it. -/
def InsertsWithin (word before after : Text) : Prop :=
  ∃ s t, before = s ++ t ∧ after = s ++ word ++ t ∧
    (∃ c ∈ s, isBlank c = false) ∧ ∃ c ∈ t, isBlank c = false

namespace InsertsWithin
variable {word before after : Text}

theorem inserts (h : InsertsWithin word before after) : Inserts word before after := by
  obtain ⟨s, t, hbefore, hafter, -, -⟩ := h
  exact ⟨s, t, hbefore, hafter⟩

theorem of_inserts (h : Inserts word before after) {s t : Text} (hs : ∃ c ∈ s, isBlank c = false)
    (ht : ∃ c ∈ t, isBlank c = false) :
    InsertsWithin word (s ++ before ++ t) (s ++ after ++ t) := by
  obtain ⟨u, v, rfl, rfl⟩ := h
  obtain ⟨c, hc, hvisible⟩ := hs
  obtain ⟨d, hd, hvisible'⟩ := ht
  refine ⟨s ++ u, v ++ t, by simp, by simp, ⟨c, ?_, hvisible⟩, d, ?_, hvisible'⟩
  · exact List.mem_append_left u hc
  · exact List.mem_append_right v hd

theorem enclose (h : InsertsWithin word before after) (s t : Text) :
    InsertsWithin word (s ++ before ++ t) (s ++ after ++ t) := by
  obtain ⟨u, v, rfl, rfl, ⟨c, hc, hvisible⟩, d, hd, hvisible'⟩ := h
  refine ⟨s ++ u, v ++ t, by simp, by simp, ⟨c, ?_, hvisible⟩, d, ?_, hvisible'⟩
  · exact List.mem_append_right s hc
  · exact List.mem_append_left t hd

/-- Trimming does not reach the word. -/
theorem trim_eq_iff (h : InsertsWithin word before after) :
    after.trim = before.trim ↔ word = [] := by
  obtain ⟨s, t, rfl, rfl, hs, ht⟩ := h
  have hempty := Text.trim_append_append hs ht []
  rw [List.append_nil, List.append_nil] at hempty
  rw [Text.trim_append_append hs ht, hempty]
  exact (Inserts.here s.trimStart t.trimEnd).eq_iff

end InsertsWithin

/-! Both ways at a place among siblings, and at a place below one of them. -/

theorem inlineWithout_here (before : List Node) (n : Node) (after : List Node) :
    inlineWithout dialect [before.length] (before ++ n :: after) =
      inlineAll dialect (before ++ after) := by
  induction before with
  | nil => rfl
  | cons m before ih =>
    rw [List.cons_append, List.cons_append, inlineAll_cons, ← ih]
    rfl

theorem inlineWithout_below (hpath : path ≠ []) (before : List Node) (n : Node)
    (after : List Node) :
    inlineWithout dialect (before.length :: path) (before ++ n :: after) =
      inlineAll dialect before ++ inlineNode dialect path n ++ inlineAll dialect after := by
  obtain ⟨j, path, rfl⟩ := List.exists_cons_of_ne_nil hpath
  induction before with
  | nil => rfl
  | cons m before ih =>
    rw [inlineAll_cons, List.append_assoc, List.append_assoc,
      ← List.append_assoc _ _ (inlineAll _ _), ← ih]
    rfl

theorem inlineAll_removeAt_below (hpath : path ≠ []) (before : List Node) (tag : Text)
    (attributes : List Attribute) (children after : List Node) :
    inlineAll dialect (Node.removeAt (before.length :: path)
        (before ++ .element tag attributes children :: after)) =
      inlineAll dialect before ++
        inlineNode dialect [] (.element tag attributes (Node.removeAt path children)) ++
          inlineAll dialect after := by
  rw [Node.removeAt_below hpath, inlineAll_append, inlineAll_cons, List.append_assoc]

theorem isRevealed_below_iff (hpath : path ≠ []) (before : List Node) (tag : Text)
    (attributes : List Attribute) (children after : List Node) :
    isRevealed dialect (before.length :: path)
        (before ++ .element tag attributes children :: after) = true ↔
      Phrase.ofTag tag.lower = .code ∨
        (Phrase.ofTag tag.lower = .link ∧ inlineAll dialect (Node.removeAt path children) = []) ∨
          (Phrase.ofTag tag.lower ≠ .code ∧ Phrase.ofTag tag.lower ≠ .image ∧
            isRevealed dialect path children = true) := by
  obtain ⟨j, path, rfl⟩ := List.exists_cons_of_ne_nil hpath
  rw [isRevealed, Node.getElem?_length_append]
  cases hphrase : Phrase.ofTag tag.lower <;> simp [hphrase]

theorem textOf_removeAt (h : Node.at? path ns = some skip) :
    Inserts skip.textContent (Node.textOf (Node.removeAt path ns)) (Node.textOf ns) := by
  induction h using Node.at?_induction with
  | here before after _ =>
    rw [Node.removeAt_here, Node.textOf_append, Node.textOf_append, Node.textOf_cons,
      ← List.append_assoc]
    exact .here _ _
  | below before tag attributes children after path hat _ ih =>
    rw [Node.removeAt_below (Node.ne_nil_of_at? hat), Node.textOf_append, Node.textOf_append,
      Node.textOf_cons, Node.textOf_cons, ← List.append_assoc, ← List.append_assoc]
    exact ih.enclose _ _

/-! The elements around a node. -/

section Around
variable {phrase : Phrase} {attributes : List Attribute} {children children' : List Node}
  {inner inner' word label label' : Text}

/-- An element that is not shown by its raw text depends on what is in its line alone. -/
theorem render_congr_inner (hcode : phrase ≠ .code) (hlink : phrase = .link → inner ≠ []) :
    phrase.render dialect attributes children inner =
      phrase.render dialect attributes children' inner := by
  cases phrase with
  | code => exact absurd rfl hcode
  | link =>
    have hshown : ¬ inner.isEmpty = true := fun h => hlink rfl (List.isEmpty_iff.mp h)
    rw [Phrase.render, Phrase.render, if_neg hshown, if_neg hshown]
  | strong | emphasis | image | strikethrough | superscript | plain => rfl

theorem link_eq (attributes : List Attribute) (label : Text) :
    link attributes label =
      "[" ++ label ++ ("](" ++ (Attribute.find? "href" attributes).getD [] ++ ")") := by
  simp [link]

/-- Around what is in its line, an element has the same text whatever that is. -/
theorem exists_render_eq (hcode : phrase ≠ .code) (himage : phrase ≠ .image) (dialect : Dialect)
    (attributes : List Attribute) :
    ∃ s t, ∀ children inner, (phrase = .link → inner ≠ []) →
      phrase.render dialect attributes children inner = s ++ inner ++ t := by
  cases phrase with
  | code => exact absurd rfl hcode
  | image => exact absurd rfl himage
  | link =>
    refine ⟨_, _, fun children inner hlink => Eq.trans ?_ (link_eq attributes inner)⟩
    have hshown : ¬ inner.isEmpty = true := fun h => hlink rfl (List.isEmpty_iff.mp h)
    rw [Phrase.render, if_neg hshown]
  | strong => exact ⟨"**", "**", fun children inner _ => rfl⟩
  | emphasis => exact ⟨"*", "*", fun children inner _ => rfl⟩
  | strikethrough =>
    cases dialect with
    | gfm => exact ⟨"~~", "~~", fun children inner _ => rfl⟩
    | standard => exact ⟨[], [], fun children inner _ => (List.append_nil inner).symm⟩
  | superscript => exact ⟨"^", [], fun children inner _ => (List.append_nil _).symm⟩
  | plain => exact ⟨[], [], fun children inner _ => (List.append_nil inner).symm⟩

theorem render_ne_nil (hinner : inner ≠ []) :
    phrase.render dialect attributes children inner ≠ [] := by
  cases phrase with
  | strong | emphasis | code | link | image | superscript =>
    simp [Phrase.render, Markdown.link, image]
  | strikethrough =>
    cases dialect with
    | gfm => simp [Phrase.render]
    | standard => exact hinner
  | plain => exact hinner

end Around

/-- Where the node is not revealed, it is left out as if it were not there. -/
theorem inlineWithout_of_not_isRevealed (h : Node.at? path ns = some skip)
    (hhidden : ¬ isRevealed dialect path ns = true) :
    inlineWithout dialect path ns = inlineAll dialect (Node.removeAt path ns) := by
  induction h using Node.at?_induction with
  | here before after _ => rw [inlineWithout_here, Node.removeAt_here]
  | below before tag attributes children after path hat _ ih =>
    have hpath := Node.ne_nil_of_at? hat
    rw [isRevealed_below_iff hpath, not_or, not_or] at hhidden
    obtain ⟨hcode, hlink, hinner⟩ := hhidden
    rw [inlineWithout_below hpath, inlineAll_removeAt_below hpath, inlineNode_element,
      inlineNode_element]
    by_cases himage : Phrase.ofTag tag.lower = .image
    · rw [himage]
      rfl
    · have heq := ih fun hbelow => hinner ⟨hcode, himage, hbelow⟩
      have hshown : Phrase.ofTag tag.lower = .link →
          inlineAll dialect (Node.removeAt path children) ≠ [] := fun h hempty => hlink ⟨h, hempty⟩
      rw [heq, render_congr_inner hcode hshown]
      rfl

/-- What reveals the node is shown also without it. -/
theorem inlineAll_removeAt_ne_nil (h : Node.at? path ns = some skip)
    (hrevealed : isRevealed dialect path ns = true) :
    inlineAll dialect (Node.removeAt path ns) ≠ [] := by
  induction h using Node.at?_induction with
  | here before after _ => cases before <;> simp [isRevealed] at hrevealed
  | below before tag attributes children after path hat _ ih =>
    have hpath := Node.ne_nil_of_at? hat
    rw [isRevealed_below_iff hpath] at hrevealed
    rw [inlineAll_removeAt_below hpath, inlineNode_element]
    suffices hnode : (Phrase.ofTag tag.lower).render dialect attributes
        (Node.removeAt path children) (inlineAll dialect (Node.removeAt path children)) ≠ [] by
      intro hempty
      rw [List.append_eq_nil_iff, List.append_eq_nil_iff] at hempty
      exact hnode hempty.1.2
    rcases hrevealed with hcode | ⟨hlink, -⟩ | ⟨-, -, hbelow⟩
    · simp [hcode, Phrase.render]
    · simp [hlink, Phrase.render, link]
    · exact render_ne_nil (ih hbelow)

/-- Where the node is revealed, its text is shown all the same, within what shows it. -/
theorem insertsWithin_of_isRevealed (h : Node.at? path ns = some skip)
    (hrevealed : isRevealed dialect path ns = true) :
    InsertsWithin skip.textContent (inlineAll dialect (Node.removeAt path ns))
      (inlineWithout dialect path ns) := by
  induction h using Node.at?_induction with
  | here before after _ => cases before <;> simp [isRevealed] at hrevealed
  | below before tag attributes children after path hat _ ih =>
    have hpath := Node.ne_nil_of_at? hat
    have htext := textOf_removeAt hat
    rw [isRevealed_below_iff hpath] at hrevealed
    rw [inlineWithout_below hpath, inlineAll_removeAt_below hpath, inlineNode_element,
      inlineNode_element]
    refine InsertsWithin.enclose ?_ _ _
    rcases hrevealed with hcode | ⟨hlink, hempty⟩ | ⟨hcode, himage, hbelow⟩
    · rw [hcode]
      exact .of_inserts htext ⟨'\x60', by decide⟩ ⟨'\x60', by decide⟩
    · have hhidden : ¬ isRevealed dialect path children = true := fun hbelow =>
        inlineAll_removeAt_ne_nil hat hbelow hempty
      rw [← inlineAll, inlineWithout_of_not_isRevealed hat hhidden, hempty, hlink]
      rw [Phrase.render, Phrase.render, link_eq, link_eq]
      exact .of_inserts htext ⟨'[', by decide⟩ ⟨']', by simp, by decide⟩
    · have hshown := inlineAll_removeAt_ne_nil hat hbelow
      have hinner := ih hbelow
      obtain ⟨s, t, hrender⟩ := exists_render_eq hcode himage dialect attributes
      have hshown' := hinner.inserts.ne_nil hshown
      rw [← inlineAll, hrender _ _ fun _ => hshown, hrender _ _ fun _ => hshown']
      exact hinner.enclose s t

theorem inserts_of_isRevealed (h : Node.at? path ns = some skip)
    (hrevealed : isRevealed dialect path ns = true) :
    Inserts skip.textContent (inlineAll dialect (Node.removeAt path ns))
      (inlineWithout dialect path ns) :=
  (insertsWithin_of_isRevealed h hrevealed).inserts

theorem inlineWithout_of_length_le {i : Nat} (hi : ns.length ≤ i) (path : Node.Path) :
    inlineWithout dialect (i :: path) ns = inlineAll dialect ns := by
  induction ns generalizing i with
  | nil => rfl
  | cons n ns ih =>
    rw [List.length_cons] at hi
    obtain ⟨k, rfl⟩ := Nat.exists_eq_succ_of_ne_zero (by omega : i ≠ 0)
    rw [inlineAll_cons, ← ih (Nat.le_of_succ_le_succ hi)]
    rfl

/-- A place without a node leaves nothing out. -/
theorem inlineWithout_of_at?_eq_none (h : Node.at? path ns = none) :
    inlineWithout dialect path ns = inlineAll dialect ns := by
  induction path generalizing ns with
  | nil => rfl
  | cons i path ih =>
    cases hn : ns[i]? with
    | none => exact inlineWithout_of_length_le (List.getElem?_eq_none_iff.mp hn) path
    | some n =>
      have hpath : path ≠ [] := by
        rintro rfl
        cases hn.symm.trans h
      rw [Node.at?_cons hpath, hn, Option.bind_some] at h
      obtain ⟨before, after, rfl, rfl⟩ := Node.exists_append_of_getElem? hn
      have hnode : inlineNode dialect path n = inlineNode dialect [] n := by
        cases n with
        | element tag attributes children =>
          have hinner : inlineWithout dialect path children = inlineAll dialect children := ih h
          rw [inlineNode_element, inlineNode_element, hinner]
          rfl
        | text | comment | doctype | instruction => rfl
      rw [inlineWithout_below hpath, hnode, inlineAll_append, inlineAll_cons, List.append_assoc]

/-- Inline Markdown without a node is that of the forest from which the node is taken out, exactly
if the node has no text or is not revealed. Where it is revealed, its text is all that is too much.
Every node elsewhere stays, whatever it is like, and so do all nodes if there is none at the
place. -/
theorem inlineWithout_eq_removeAt_iff (dialect : Dialect) (path : Node.Path) (ns : List Node) :
    (∀ skip, Node.at? path ns = some skip →
      (inlineWithout dialect path ns = inlineAll dialect (Node.removeAt path ns) ↔
        (isRevealed dialect path ns = true → skip.textContent = [])) ∧
      (isRevealed dialect path ns = true →
        Inserts skip.textContent (inlineAll dialect (Node.removeAt path ns))
          (inlineWithout dialect path ns))) ∧
    (∀ place, ¬ path <+: place → ¬ place <+: path →
      Node.at? (Node.placeAfter path place) (Node.removeAt path ns) = Node.at? place ns) ∧
    (Node.at? path ns = none → inlineWithout dialect path ns = inlineAll dialect ns) := by
  refine ⟨fun skip h => ⟨?_, inserts_of_isRevealed h⟩, fun place hbelow haround =>
    Node.at?_removeAt hbelow haround ns, inlineWithout_of_at?_eq_none⟩
  by_cases hrevealed : isRevealed dialect path ns = true
  · rw [(inserts_of_isRevealed h hrevealed).eq_iff, imp_iff_right hrevealed]
  · exact iff_of_true (inlineWithout_of_not_isRevealed h hrevealed) (absurd · hrevealed)

/-- Equal boxes before the one that is left out, behind it, and in a code span of their own. -/
def twinBoxes : List Node :=
  let box : Node := .element "input" [] [.text "x"]
  [box, .element "em" [] [box, .element "a" [⟨"href", "/y"⟩] [box, .text "z"], box],
   .element "code" [] [box]]

theorem inlineWithout_twinBoxes :
    Node.at? [1, 1, 0] twinBoxes = some (.element "input" [] [.text "x"]) ∧
      isRevealed .gfm [1, 1, 0] twinBoxes = false ∧
      inlineWithout .gfm [1, 1, 0] twinBoxes = "x*x[z](/y)x*\x60x\x60" := by
  have hbox : Node.at? [1, 1, 0] twinBoxes = some (.element "input" [] [.text "x"]) := rfl
  have hhidden : isRevealed .gfm [1, 1, 0] twinBoxes = false := by decide
  refine ⟨hbox, hhidden, ?_⟩
  have hremoved := ((inlineWithout_eq_removeAt_iff .gfm [1, 1, 0] twinBoxes).1 _ hbox).1.mpr
  rw [hremoved (by simp [hhidden])]
  decide +kernel

/-- A code span around the node shows its text, and so does a link that it is alone in. -/
theorem inlineWithout_revealed :
    let code : List Node := [.element "code" [] [.text "a", .element "b" [] [.text "c"]]]
    let link : List Node := [.element "a" [⟨"href", "/x"⟩] [.element "b" [] [.text "c"]]]
    Node.at? [0, 1] code = some (.element "b" [] [.text "c"]) ∧
      inlineWithout .gfm [0, 1] code = "\x60ac\x60" ∧
      inlineAll .gfm (Node.removeAt [0, 1] code) = "\x60a\x60" ∧
      Node.at? [0, 0] link = some (.element "b" [] [.text "c"]) ∧
      inlineWithout .gfm [0, 0] link = "[c](/x)" ∧
      inlineAll .gfm (Node.removeAt [0, 0] link) = "[](/x)" := by
  refine ⟨rfl, by decide, by decide, rfl, by decide, by decide⟩

end MarkdownExport.Markdown
