import MarkdownExport.Proofs.Tree.Forest
import MarkdownExport.Proofs.Tree.Query
import MarkdownExport.Proofs.Word.PlainText

/-! The nodes of inline HTML and tables: their text is what the HTML shows, and none of them is an
item of a list. -/
namespace MarkdownExport.Word
open Node

theorem Shows.flatMap {α : Type} {f g : α → Text} {xs : List α} (h : ∀ x ∈ xs, Shows (f x) (g x)) :
    Shows (xs.flatMap f) (xs.flatMap g) := by
  induction xs with
  | nil => exact .nil
  | cons x xs ih =>
    rw [List.forall_mem_cons] at h
    rw [List.flatMap_cons, List.flatMap_cons]
    exact h.1.append (ih h.2)

theorem textOf_element (tag : Text) (attributes : List Attribute) (ns : List Node) :
    textOf [.element tag attributes ns] = textOf ns := List.append_nil _

abbrev Rows := List (List (Text × List Node))

theorem textOf_tableNodes (rows : Rows) :
    textOf (tableNodes rows) = rows.flatMap fun row => row.flatMap fun c => textOf c.2 := by
  have hrow (row : List (Text × List Node)) :
      textOf (row.map fun c => .element "td" [] c.2) = row.flatMap fun c => textOf c.2 := by
    induction row with
    | nil => rfl
    | cons c row ih =>
      rw [List.map_cons, textOf_cons, ih, List.flatMap_cons]
      rfl
  unfold tableNodes
  induction rows with
  | nil => rfl
  | cons row rows ih =>
    rw [List.map_cons, textOf_cons, ih, List.flatMap_cons, ← hrow row]
    rfl

/-- Searching for other elements than rows and cells, only the content of cells counts. -/
theorem findAll_tableNodes {p : Node → Bool} (hrow : ∀ ns, p (.element "tr" [] ns) = false)
    (hcell : ∀ ns, p (.element "td" [] ns) = false) {rows : Rows}
    (h : ∀ row ∈ rows, ∀ c ∈ row, findAll p c.2 = []) : findAll p (tableNodes rows) = [] := by
  have hcells (row : List (Text × List Node)) (h : ∀ c ∈ row, findAll p c.2 = []) :
      findAll p (row.map fun c => .element "td" [] c.2) = [] := by
    induction row with
    | nil => rfl
    | cons c row ih =>
      rw [List.forall_mem_cons] at h
      rw [List.map_cons, findAll_element, hcell, h.1, ih h.2]
      rfl
  unfold tableNodes
  induction rows with
  | nil => rfl
  | cons row rows ih =>
    rw [List.forall_mem_cons] at h
    rw [List.map_cons, findAll_element, hrow, hcells row h.1, ih h.2]
    rfl

variable {V : Vocabulary} {t : Text} {ns : List Node}

theorem InlineHtml.shows_textOf (h : InlineHtml V t ns) : Shows t (textOf ns) := by
  induction h with
  | nil => exact .nil
  | append _ _ ihs iht =>
    rw [textOf_append]
    exact ihs.append iht
  | text ht =>
    obtain ⟨u, rfl⟩ := ht.exists_escapeText
    have htext : textOf [.text (Html.decode false (escapeText u))] = u := by
      rw [decode_escapeText]
      exact List.append_nil u
    rw [htext]
    exact .escapeText u
  | lineBreak => exact .tag "br/" (by decide)
  | image _ hsource hdescription => exact imageTag_shows hsource hdescription
  | marked mark _ ih =>
    rw [textOf_element]
    exact ih.enclose mark
  | link hv _ _ ih =>
    have hclose : Shows (closeTag "a") [] := .tag "/a" (by decide)
    have hlink := ((linkTag_shows hv).append ih).append hclose
    rw [List.nil_append, List.append_nil] at hlink
    rwa [textOf_element]

theorem FlowHtml.shows_textOf (h : FlowHtml V t ns) : Shows t (textOf ns) := by
  induction h with
  | nil => exact .nil
  | append _ _ ihs iht =>
    rw [textOf_append]
    exact ihs.append iht
  | inline h => exact h.shows_textOf
  | @table rows children _ hchildren ih =>
    have htext : textOf children = textOf (tableNodes rows) := by
      rcases hchildren with rfl | rfl
      · rfl
      · rw [textOf_element]
    rw [textOf_element, htext, textOf_tableNodes]
    refine .element (by decide) (.flatMap fun row hrow => .element (by decide) ?_)
    exact .flatMap fun c hc => (ih row hrow c hc).element (by decide)

theorem InlineHtml.findTags_item (h : InlineHtml V t ns) : findTags "li" ns = [] := by
  unfold findTags
  induction h with
  | nil | text | lineBreak | image => rfl
  | append _ _ ihs iht => rw [findAll_append, ihs, iht, List.append_nil]
  | marked mark _ ih =>
    rw [findAll_element, ih]
    cases mark <;> rfl
  | link _ _ _ ih =>
    rw [findAll_element, ih]
    rfl

theorem FlowHtml.findTags_item (h : FlowHtml V t ns) : findTags "li" ns = [] := by
  induction h with
  | nil => rfl
  | append _ _ ihs iht =>
    unfold findTags at *
    rw [findAll_append, ihs, iht, List.append_nil]
  | inline h => exact h.findTags_item
  | @table rows children _ hchildren ih =>
    have hrows : findAll (isTag "li") (tableNodes rows) = [] :=
      findAll_tableNodes (fun _ => rfl) (fun _ => rfl) ih
    unfold findTags
    rw [findAll_element]
    rcases hchildren with rfl | rfl
    · rw [hrows]
      rfl
    · rw [findAll_element, hrows]
      rfl

theorem escapeText_of_plain {t : Text} (h : ∀ c ∈ t, c ≠ '<' ∧ c ≠ '>' ∧ c ≠ '&') :
    escapeText t = t := by
  induction t with
  | nil => rfl
  | cons c t ih =>
    rw [List.forall_mem_cons] at h
    have hc : markupEscape c = [c] := by
      obtain ⟨⟨hopen, hclose, hand⟩, -⟩ := h
      unfold markupEscape
      split <;> first | contradiction | rfl
    rw [escapeText_cons, hc, ih h.2, List.singleton_append]

theorem noteNumber_plain (k : Nat) : ∀ c ∈ noteNumber k, c ≠ '<' ∧ c ≠ '>' ∧ c ≠ '&' := by
  unfold noteNumber
  rw [List.forall_mem_append, List.forall_mem_append]
  exact ⟨⟨by decide, decimal_plain k⟩, by decide⟩

theorem noteNumber_isFlow (k : Nat) : IsFlow V (noteNumber k) :=
  .text (.of_plain (noteNumber_plain k))

theorem noteNumber_shows (k : Nat) : Shows (noteNumber k) (noteNumber k) := by
  have h := Shows.escapeText (noteNumber k)
  rwa [escapeText_of_plain (noteNumber_plain k)] at h

/-- The text of a footnote's nodes is its number and the text of its content. -/
theorem FlowHtml.textOf_note {k : Nat} {html : Text} {ms : List Node}
    (h : FlowHtml V (noteNumber k ++ html) ms) (hhtml : IsFlow V html) :
    textOf ms = noteNumber k ++ plainText html := by
  obtain ⟨cs, hcs⟩ := hhtml
  have hnote := (noteNumber_shows k).append hcs.shows_textOf
  rw [hcs.shows_textOf.plainText_eq, ← hnote.plainText_eq, h.shows_textOf.plainText_eq]

end MarkdownExport.Word
