import MarkdownExport.Html.Reference
import MarkdownExport.Proofs.Text.Basic
import MarkdownExport.Text.Blank
import MarkdownExport.Text.Digit
import MarkdownExport.Word.Markup

/-! Text that cannot be taken for markup. What a snapshot writes between its tags or into an
attribute is of this kind, and decoding it gives back what was written. -/
namespace MarkdownExport.Word

/-- No bracket of a tag stands in `t`, and every ampersand begins one of `entities`. -/
structure Encoded (entities : List Text) (t : Text) : Prop where
  noOpening : '<' ∉ t
  noClosing : '>' ∉ t
  entity : ∀ before after, t = before ++ '&' :: after → ∃ name ∈ entities, name <+: after

namespace Encoded
variable {entities : List Text} {s t : Text}

theorem nil : Encoded entities [] where
  noOpening := by simp
  noClosing := by simp
  entity := by simp

theorem append (hs : Encoded entities s) (ht : Encoded entities t) :
    Encoded entities (s ++ t) where
  noOpening := by simp [hs.noOpening, ht.noOpening]
  noClosing := by simp [hs.noClosing, ht.noClosing]
  entity := by
    intro before after h
    rcases List.append_eq_append_iff.1 h with ⟨middle, hb, ht'⟩ | ⟨middle, hs', ha⟩
    · exact ht.entity middle after ht'
    · cases middle with
      | nil => exact ht.entity [] after (by simpa using ha.symm)
      | cons c middle =>
        obtain ⟨rfl, rfl⟩ := List.cons.inj ha
        obtain ⟨name, hn, hp⟩ := hs.entity before middle hs'
        exact ⟨name, hn, hp.trans (List.prefix_append _ _)⟩

theorem of_plain (h : ∀ c ∈ t, c ≠ '<' ∧ c ≠ '>' ∧ c ≠ '&') : Encoded entities t where
  noOpening hm := (h _ hm).1 rfl
  noClosing hm := (h _ hm).2.1 rfl
  entity := by
    rintro before after rfl
    exact absurd rfl (h '&' (by simp)).2.2

/-- A single entity, of which `name` is what follows the ampersand. -/
theorem of_name {name : Text} (hn : name ∈ entities)
    (h : ∀ c ∈ name, c ≠ '<' ∧ c ≠ '>' ∧ c ≠ '&') : Encoded entities ('&' :: name) where
  noOpening hm := (List.mem_cons.1 hm).elim (by decide) fun hm => (h _ hm).1 rfl
  noClosing hm := (List.mem_cons.1 hm).elim (by decide) fun hm => (h _ hm).2.1 rfl
  entity := by
    intro before after he
    cases before with
    | nil => exact ⟨name, hn, by simp_all⟩
    | cons c before =>
      obtain ⟨-, rfl⟩ := List.cons.inj he
      exact absurd rfl (h '&' (by simp)).2.2

end Encoded

/-- What may stand between tags. -/
def IsText (t : Text) : Prop := Encoded ["amp;", "lt;", "gt;"] t

/-- What may stand between the quotes of an attribute, where a quote is an entity as well. -/
structure IsValue (v : Text) : Prop where
  encoded : Encoded ["amp;", "lt;", "gt;", "quot;"] v
  noQuote : '"' ∉ v

/-- The form of a scalar in the value of an attribute. -/
def valueEscape (c : Char) : Text :=
  if c = '"' then ['&', 'q', 'u', 'o', 't', ';'] else markupEscape c

theorem escapeText_cons (c : Char) (t : Text) :
    escapeText (c :: t) = markupEscape c ++ escapeText t := by
  simp [escapeText]

@[simp] theorem escapeValue_nil : escapeValue [] = [] := rfl

theorem escapeValue_cons (c : Char) (t : Text) :
    escapeValue (c :: t) = valueEscape c ++ escapeValue t := by
  have h : (markupEscape c).replace '"' ['&', 'q', 'u', 'o', 't', ';'] = valueEscape c := by
    unfold valueEscape markupEscape
    split <;> first | decide | skip
    split <;> simp_all [Text.replace]
  rw [escapeValue, escapeText_cons, Text.replace_append, h, escapeValue]

theorem markupEscape_isText (c : Char) : IsText (markupEscape c) := by
  unfold markupEscape
  split
  · exact .of_name (by simp) (by decide)
  · exact .of_name (by simp) (by decide)
  · exact .of_name (by simp) (by decide)
  · exact .of_plain (by simp_all)

theorem escapeText_isText (t : Text) : IsText (escapeText t) := by
  induction t with
  | nil => exact .nil
  | cons c t ih =>
    rw [escapeText_cons]
    exact (markupEscape_isText c).append ih

theorem allBlank_escapeText (t : Text) : (escapeText t).allBlank = t.allBlank := by
  induction t with
  | nil => rfl
  | cons c t ih =>
    have hc : (markupEscape c).all isBlank = isBlank c := by
      unfold markupEscape
      split
      · decide
      · decide
      · decide
      · simp
    unfold Text.allBlank at ih ⊢
    rw [escapeText_cons, List.all_append, hc, ih, List.all_cons]

theorem valueEscape_isValue (c : Char) : IsValue (valueEscape c) := by
  unfold valueEscape
  split
  · exact ⟨.of_name (by simp) (by decide), by decide⟩
  · unfold markupEscape
    split
    · exact ⟨.of_name (by simp) (by decide), by decide⟩
    · exact ⟨.of_name (by simp) (by decide), by decide⟩
    · exact ⟨.of_name (by simp) (by decide), by decide⟩
    · exact ⟨.of_plain (by simp_all), by simp_all [eq_comm]⟩

theorem escapeValue_isValue (t : Text) : IsValue (escapeValue t) := by
  induction t with
  | nil => exact ⟨.nil, by simp⟩
  | cons c t ih =>
    rw [escapeValue_cons]
    have hc := valueEscape_isValue c
    exact ⟨hc.encoded.append ih.encoded, by simp [hc.noQuote, ih.noQuote]⟩

theorem decimal_plain (n : Nat) : ∀ c ∈ decimal n, c ≠ '<' ∧ c ≠ '>' ∧ c ≠ '&' := by
  intro c hc
  have hd : c.isDigit = true := isDigit_of_mem_decimal hc
  refine ⟨?_, ?_, ?_⟩ <;> rintro rfl <;> exact absurd hd (by decide)

/-- Numerals need no escape. -/
theorem decimal_isText (n : Nat) : IsText (decimal n) := .of_plain (decimal_plain n)

section Decoding
open Html

variable (inAttribute : Bool)

/-- An entity with its semicolon stands for its scalar, whatever follows. -/
private theorem decodeFrom_entity (fuel : Nat) {n : Text} {c : Char}
    (hn : ∀ c ∈ n, c.isAlphanum = true) (hs : scalarsOf? n = some [c]) (t : Text) :
    decodeFrom inAttribute (fuel + 1) ('&' :: (n ++ ';' :: t)) =
      c :: decodeFrom inAttribute fuel t := by
  have hnamed : named? inAttribute (n ++ ';' :: t) = some ([c], t) := by
    unfold named?
    rw [Text.span_append hn (by decide)]
    simp [hs]
  have href : reference? inAttribute (n ++ ';' :: t) = some ([c], t) := by
    unfold reference?
    cases n with
    | nil => exact hnamed
    | cons a n =>
      have ha : a ≠ '#' := by rintro rfl; simp at hn
      split
      · simp_all
      · simp_all
      · simp_all
      · exact hnamed
  simp [decodeFrom, href]

private theorem decodeFrom_markupEscape (fuel : Nat) (c : Char) (t : Text) :
    decodeFrom inAttribute (fuel + 1) (markupEscape c ++ t) =
      c :: decodeFrom inAttribute fuel t := by
  unfold markupEscape
  split
  · exact decodeFrom_entity inAttribute fuel (n := "amp") (by decide) (by decide +kernel) t
  · exact decodeFrom_entity inAttribute fuel (n := "lt") (by decide) (by decide +kernel) t
  · exact decodeFrom_entity inAttribute fuel (n := "gt") (by decide) (by decide +kernel) t
  · simp_all [decodeFrom]

private theorem decodeFrom_valueEscape (fuel : Nat) (c : Char) (t : Text) :
    decodeFrom inAttribute (fuel + 1) (valueEscape c ++ t) =
      c :: decodeFrom inAttribute fuel t := by
  unfold valueEscape
  split
  next h =>
    subst h
    exact decodeFrom_entity inAttribute fuel (n := "quot") (by decide) (by decide +kernel) t
  next => exact decodeFrom_markupEscape inAttribute fuel c t

/-- The induction is on the text that was written: each of its scalars costs one unit of fuel. -/
private theorem decodeFrom_flatMap {form : Char → Text}
    (hform : ∀ fuel c t, decodeFrom inAttribute (fuel + 1) (form c ++ t) =
      c :: decodeFrom inAttribute fuel t) {t : Text} :
    ∀ {fuel : Nat}, t.length ≤ fuel → decodeFrom inAttribute fuel (t.flatMap form) = t := by
  induction t with
  | nil => intro fuel _; cases fuel <;> rfl
  | cons c t ih =>
    intro fuel hf
    obtain ⟨fuel, rfl⟩ : ∃ n, fuel = n + 1 := ⟨fuel - 1, by simp at hf; omega⟩
    rw [List.flatMap_cons, hform, ih (by simpa using hf)]

private theorem length_le_flatMap {form : Char → Text} (hform : ∀ c, form c ≠ []) (t : Text) :
    t.length ≤ (t.flatMap form).length := by
  induction t with
  | nil => simp
  | cons c t ih =>
    have hc := List.length_pos_iff.2 (hform c)
    simp only [List.flatMap_cons, List.length_append, List.length_cons]
    omega

theorem decode_escapeText (t : Text) : decode inAttribute (escapeText t) = t :=
  decodeFrom_flatMap inAttribute (decodeFrom_markupEscape inAttribute)
    (length_le_flatMap (fun c => by unfold markupEscape; split <;> simp) t)

theorem decode_escapeValue (t : Text) : decode inAttribute (escapeValue t) = t := by
  have h : escapeValue t = t.flatMap valueEscape := by
    induction t with
    | nil => rfl
    | cons c t ih => rw [escapeValue_cons, ih, List.flatMap_cons]
  rw [h]
  refine decodeFrom_flatMap inAttribute (decodeFrom_valueEscape inAttribute)
    (length_le_flatMap (fun c => ?_) t)
  unfold valueEscape markupEscape
  split
  · simp
  · split <;> simp

theorem escapeText_ne_nil {t : Text} (h : t ≠ []) : escapeText t ≠ [] := by
  intro hnil
  have hdecode := decode_escapeText false t
  rw [hnil] at hdecode
  exact h hdecode.symm

end Decoding
end MarkdownExport.Word
