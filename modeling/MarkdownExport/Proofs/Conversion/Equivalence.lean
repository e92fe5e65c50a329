import MarkdownExport.Conversion
import MarkdownExport.Proofs.Markdown.Rules
import MarkdownExport.Proofs.Tree.Variant

/-! Forests that say the same are converted to the same Markdown and have the same metadata. -/
namespace MarkdownExport.Markdown
open Node (Variant Respects IsSelector entries)
variable {dialect : Dialect} {ns ns' : List Node}

theorem textOf_eq_of_variant (h : Variant ns ns') : Node.textOf ns = Node.textOf ns' := by
  induction h with
  | same => rfl
  | silent ns hn => rw [Node.textOf_cons, Node.textContent_of_isSilent hn, List.nil_append]
  | empty ns => rfl
  | split s t ns => exact List.append_assoc s t (Node.textOf ns)
  | element ns htag hattributes h ih =>
    rw [Node.textOf_cons, Node.textOf_cons, Node.textContent, ih]
    rfl
  | behind n h ih => rw [Node.textOf_cons, Node.textOf_cons, ih]

theorem respects_textContent : Respects Node.textContent :=
  fun _ _ h => textOf_eq_of_variant h

/-! Lines. -/

theorem image_congr {attributes attributes' : List Attribute}
    (h : entries attributes = entries attributes') : image attributes = image attributes' := by
  rw [image, image, Node.find?_congr h, Node.find?_congr h]

theorem render_congr {attributes attributes' : List Attribute} {children children' : List Node}
    (hattributes : entries attributes = entries attributes')
    (hchildren : Node.textOf children = Node.textOf children') (inner : Text) (phrase : Phrase) :
    phrase.render dialect attributes children inner =
      phrase.render dialect attributes' children' inner := by
  cases phrase with
  | code => rw [Phrase.render, Phrase.render, hchildren]
  | link => rw [Phrase.render, Phrase.render, link, link, hchildren, Node.find?_congr hattributes]
  | image => exact image_congr hattributes
  | strong | emphasis | strikethrough | superscript | plain => rfl

theorem inlineAll_eq_of_variant (h : Variant ns ns') :
    inlineAll dialect ns = inlineAll dialect ns' := by
  induction h with
  | same => rfl
  | silent ns hn => rw [inlineAll_cons, inlineNode_of_isSilent hn, List.nil_append]
  | empty ns => rfl
  | split s t ns =>
    rw [inlineAll_cons, inlineAll_cons, inlineAll_cons, ← List.append_assoc]
    exact congrArg (· ++ inlineAll dialect ns) (escape_append s t)
  | element ns htag hattributes h ih =>
    rw [inlineAll_cons, inlineAll_cons, inlineNode_element, inlineNode_element, htag,
      render_congr hattributes (textOf_eq_of_variant h)]
    rw [inlineAll, inlineAll] at ih
    rw [ih]
  | behind n h ih => rw [inlineAll_cons, inlineAll_cons, ih]

theorem inlineAround?_text {p : Node → Bool} {content : Text} (hp : p (.text content) = false)
    (ns : List Node) :
    inlineAround? dialect p (.text content :: ns) =
      (inlineAround? dialect p ns).map fun t => escape content ++ t := by
  rw [inlineAround?, hp]
  rfl

theorem inlineAround?_eq_of_variant {p : Node → Bool} (hp : IsSelector p) (h : Variant ns ns') :
    inlineAround? dialect p ns = inlineAround? dialect p ns' := by
  induction h with
  | same => rfl
  | silent ns hn => exact inlineAround?_of_isSilent hn (hp.silent hn) ns
  | empty ns =>
    rw [inlineAround?_text (hp.text [])]
    exact Option.map_id'
  | split s t ns =>
    rw [inlineAround?_text (hp.text _), inlineAround?_text (hp.text _),
      inlineAround?_text (hp.text _), Option.map_map]
    simp only [escape_append, List.append_assoc, Function.comp_def]
  | element ns htag hattributes h ih =>
    have hinner : inlineAll dialect _ = inlineAll dialect _ := inlineAll_eq_of_variant h
    rw [inlineAll, inlineAll] at hinner
    rw [inlineAround?, inlineAround?, hp.respects htag hattributes h, inlineInside?, inlineInside?,
      ih, htag, inlineNode_element, inlineNode_element, htag, hinner]
    simp only [render_congr hattributes (textOf_eq_of_variant h)]
  | behind n h ih => rw [inlineAround?, inlineAround?, ih, inlineAll_eq_of_variant h]

/-! Rules. -/

theorem respects_cellText : Respects cellText := by
  intro tag tag' attributes attributes' children children' htag hattributes h
  rw [cellText, cellText, respects_textContent htag hattributes h]

theorem respects_rowCells : Respects rowCells := by
  intro tag tag' attributes attributes' children children' htag hattributes h
  exact h.map_findAll ((IsSelector.isTag "th").or (.isTag "td")) respects_cellText

theorem respects_attribute? (name : Text) : Respects (Node.attribute? name) :=
  fun _ hattributes _ => Node.find?_congr hattributes name

theorem respects_footnoteLine : Respects footnoteLine := by
  intro tag tag' attributes attributes' children children' htag hattributes h
  rw [footnoteLine, footnoteLine, respects_textContent htag hattributes h,
    respects_attribute? _ htag hattributes h]

theorem respects_itemLine (kind : ListKind) :
    Respects fun item i => itemLine dialect kind i item := by
  intro tag tag' attributes attributes' children children' htag hattributes h
  funext i
  have hplain : plainLine dialect kind i (.element tag attributes children) =
      plainLine dialect kind i (.element tag' attributes' children') := by
    rw [plainLine, plainLine, Node.children, Node.children, inlineAll_eq_of_variant h]
  cases dialect with
  | standard => exact hplain
  | gfm =>
    have hchecked : Respects (Node.hasAttribute "checked") := by
      intro tag tag' attributes attributes' children children' htag hattributes h
      rw [Node.hasAttribute, Node.hasAttribute, respects_attribute? _ htag hattributes h]
    show itemLine _ _ _ _ = itemLine _ _ _ _
    rw [itemLine_gfm, itemLine_gfm, Node.children, Node.children,
      h.map_findAll .isCheckbox hchecked, inlineAround?_eq_of_variant .isCheckbox h, hplain]

theorem respects_caption : Respects caption := by
  intro tag tag' attributes attributes' children children' htag hattributes h
  rw [caption, caption, respects_textContent htag hattributes h]

/-- Elements that say the same agree, if the blocks in them do. -/
theorem agree_of_variant (tag tag' : Text) {attributes attributes' : List Attribute}
    {children children' : List Node} (hattributes : entries attributes = entries attributes')
    (h : Variant children children')
    (hblock : blockAll dialect defaultRules children = blockAll dialect defaultRules children') :
    (subject dialect tag attributes children).Agree
      (subject dialect tag' attributes' children') where
  text := textOf_eq_of_variant h
  inline := inlineAll_eq_of_variant h
  block := hblock
  attribute? name := Node.find?_congr hattributes name
  lines kind := h.map_filter (.isTag "li") (respects_itemLine kind)
  picture := h.map_findFirst? (.isTag "img") fun _ hattributes _ => image_congr hattributes
  legend := h.map_findFirst? (.isTag "figcaption") respects_caption
  notes := h.map_findAll (.isTag "li") respects_footnoteLine

theorem blockAll_eq_of_variant (h : Variant ns ns') :
    blockAll dialect defaultRules ns = blockAll dialect defaultRules ns' := by
  induction h with
  | same => rfl
  | silent ns hn => rw [blockAll_cons, blockNode_of_isSilent hn, List.nil_append]
  | empty ns => rfl
  | split s t ns =>
    rw [blockAll_cons, blockAll_cons, blockAll_cons, ← List.append_assoc]
    exact congrArg (· ++ blockAll dialect defaultRules ns) (escape_append s t)
  | @element tag tag' attributes attributes' children children' ns htag hattributes h ih =>
    rw [blockAll_cons, blockAll_cons, blockNode, blockNode, htag]
    cases hrule : defaultRules.find? tag'.lower with
    | none => exact congrArg (· ++ blockAll dialect defaultRules ns) ih
    | some rule =>
      have htable : table (subject dialect tag attributes children) =
          table (subject dialect tag' attributes' children') := by
        unfold table
        cases dialect with
        | gfm => exact congrArg tableText (h.map_findAll (.isTag "tr") respects_rowCells)
        | standard => exact congrArg (fun t : Text => _ ++ t ++ _) (textOf_eq_of_variant h)
      have hagree := agree_of_variant tag tag' hattributes h ih
      have hsame := rule_congr (isDefault_of_find? hrule) hagree fun _ => htable
      exact congrArg (· ++ blockAll dialect defaultRules ns) hsame
  | behind n h ih => rw [blockAll_cons, blockAll_cons, ih]

end MarkdownExport.Markdown

namespace MarkdownExport.Metadata
open Node (Variant Respects IsSelector)
variable {document document' : List Node}

/-- The body of a document is found in the same place. -/
theorem body_eq_of_variant {β : Type} {f : List Node → β}
    (hf : ∀ {ns ns'}, Variant ns ns' → f ns = f ns') (h : Variant document document') :
    f (Node.body document) = f (Node.body document') := by
  have hbody (document : List Node) : f (Node.body document) =
      ((Node.findTag? "body" document).map fun b => f b.children).getD (f document) := by
    unfold Node.body
    cases Node.findTag? "body" document <;> rfl
  have hchildren : Respects fun b => f b.children := fun _ _ h => hf h
  have hfound : (Node.findTag? "body" document).map (fun b => f b.children) =
      (Node.findTag? "body" document').map fun b => f b.children :=
    h.map_findFirst? (.isTag "body") hchildren
  rw [hbody, hbody, hfound, hf h]

theorem derived_eq_of_variant (h : Variant document document') :
    derived document = derived document' := by
  have htitle : title? document = title? document' := by
    refine h.map_findFirst? (.isTag "h1") ?_
    intro tag tag' attributes attributes' children children' htag hattributes h
    show Text.trim _ = Text.trim _
    rw [Markdown.respects_textContent htag hattributes h]
  have hdescription : description? document = description? document' := by
    have hheading : IsSelector isSectionHeading :=
      ((IsSelector.isTag "h1").or (.isTag "h2")).or (.isTag "h3")
    have hfound := h.map_adjacentAfter hheading (.isTag "p") Markdown.respects_textContent none
    have htext (document : List Node) : description? document =
        ((Node.findAdjacent? isSectionHeading (Node.isTag "p") document).map
          Node.textContent).bind fun t =>
            if 0 < t.trim.units16 && t.trim.units16 < descriptionLimit then some t.trim
            else none := by
      rw [Option.bind_map]
      rfl
    rw [htext, htext, Node.findAdjacent?, hfound]
    rfl
  have hwords : wordCount document = wordCount document' := by
    rw [wordCount, wordCount, body_eq_of_variant Markdown.textOf_eq_of_variant h]
  have hcount (tag : Text) :
      (Node.findTags tag document).length = (Node.findTags tag document').length := by
    have hfound := congrArg List.length
      (h.map_findAll (.isTag tag) Markdown.respects_textContent)
    rwa [List.length_map, List.length_map] at hfound
  simp only [derived, htitle, hdescription, hwords, hcount]

end MarkdownExport.Metadata

namespace MarkdownExport
open Markdown
open Node (Variant Equivalent)

/-- Equivalent documents have the same Markdown, before and after its spacing is normalized, the
same inline Markdown, the same metadata, and are the same to a conversion with the default rules. -/
theorem conversion_eq_of_equivalent {document document' : List Node}
    (h : Equivalent document document') (dialect : Dialect) :
    rawMarkdown dialect [] document = rawMarkdown dialect [] document' ∧
      markdown dialect [] document = markdown dialect [] document' ∧
      inlineAll dialect document = inlineAll dialect document' ∧
      Metadata.extract document [] = Metadata.extract document' [] ∧
      ∀ frontmatter, convertTree { dialect, frontmatter } document =
        convertTree { dialect, frontmatter } document' := by
  have hraw {ns ns' : List Node} (h : Variant ns ns') :
      rawMarkdown dialect [] ns = rawMarkdown dialect [] ns' := blockAll_eq_of_variant h
  have hmarkdown {ns ns' : List Node} (h : Variant ns ns') :
      markdown dialect [] ns = markdown dialect [] ns' := congrArg normalize (hraw h)
  have hmetadata {ns ns' : List Node} (h : Variant ns ns') :
      Metadata.extract ns [] = Metadata.extract ns' [] := Metadata.derived_eq_of_variant h
  refine ⟨h.eq_of_variant hraw, h.eq_of_variant hmarkdown,
    h.eq_of_variant inlineAll_eq_of_variant, h.eq_of_variant hmetadata, ?_⟩
  intro frontmatter
  apply h.eq_of_variant
  intro ns ns' hns
  have hbody : markdown dialect [] (Node.body ns) = markdown dialect [] (Node.body ns') :=
    Metadata.body_eq_of_variant hmarkdown hns
  have hconvert (ns : List Node) : convertTree { dialect, frontmatter } ns =
      ⟨markdown dialect [] (Node.body ns),
        if frontmatter then some (Metadata.extract ns []) else none⟩ := rfl
  rw [hconvert, hconvert, hbody, hmetadata hns]

/-- A task list whose names are in capitals, with a comment between its texts. -/
def spelledTasks : List Node :=
  [.doctype "html", .element "UL" []
    [.comment "tasks", .element "LI" []
      [.text "a", .comment "", .text "*b",
        .element "INPUT" [⟨"TYPE", "checkbox"⟩, ⟨"Checked", ""⟩] []]]]

def plainTasks : List Node :=
  [.element "ul" [] [.element "li" []
    [.text "a*b", .element "input" [⟨"type", "checkbox"⟩, ⟨"checked", ""⟩] []]]]

theorem spelledTasks_equivalent : Equivalent spelledTasks plainTasks := by
  let box : Node := .element "INPUT" [⟨"TYPE", "checkbox"⟩, ⟨"Checked", ""⟩] []
  have hdoctype : Variant spelledTasks spelledTasks.tail := .silent _ rfl
  have hcomment : Variant spelledTasks.tail [.element "ul" [] [.element "LI" []
      [.text "a", .comment "", .text "*b", box]]] :=
    .element [] (by decide) rfl (.silent _ rfl)
  have hinner : Variant [.element "ul" [] [.element "LI" []
      [.text "a", .comment "", .text "*b", box]]]
      [.element "ul" [] [.element "li" [] [.text "a", .text "*b", box]]] :=
    .element [] rfl rfl (.element [] (by decide) rfl (.behind _ (.silent _ rfl)))
  have htext : Variant [.element "ul" [] [.element "li" [] [.text "a*b", box]]]
      [.element "ul" [] [.element "li" [] [.text "a", .text "*b", box]]] :=
    .element [] rfl rfl (.element [] rfl rfl (.split "a" "*b" [box]))
  have hbox : Variant [.element "ul" [] [.element "li" [] [.text "a*b", box]]] plainTasks :=
    .element [] rfl rfl
      (.element [] rfl rfl (.behind _ (.element [] (by decide) (by decide) (.same []))))
  have hsteps := (Relation.EqvGen.rel _ _ hdoctype).trans _ _ _ (.rel _ _ hcomment)
  have hjoined := (hsteps.trans _ _ _ (.rel _ _ hinner)).trans _ _ _ (.symm _ _ (.rel _ _ htext))
  exact hjoined.trans _ _ _ (.rel _ _ hbox)

/-- The checkbox is found in another place, and the lines are the same. -/
theorem conversion_eq_spelledTasks :
    Equivalent spelledTasks plainTasks ∧
      rawMarkdown .gfm [] spelledTasks = "\n- [x] a\\*b\n\n" ∧
      rawMarkdown .gfm [] spelledTasks = rawMarkdown .gfm [] plainTasks ∧
      Metadata.extract spelledTasks [] = Metadata.extract plainTasks [] := by
  obtain ⟨hraw, -, -, hmetadata, -⟩ := conversion_eq_of_equivalent spelledTasks_equivalent .gfm
  exact ⟨spelledTasks_equivalent, by decide +kernel, hraw, hmetadata⟩

end MarkdownExport
