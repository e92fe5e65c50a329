import MarkdownExport.Proofs.Text.Basic
import MarkdownExport.Xml.Entity

/-! Escaped XML text: the five reserved scalars as named entities. Reading it back gives the text
it was written from. -/
namespace MarkdownExport.Xml

def escapeScalar (c : Char) : Text :=
  match c with
  | '&' => "&amp;"
  | '<' => "&lt;"
  | '>' => "&gt;"
  | '"' => "&quot;"
  | '\'' => "&apos;"
  | c => [c]

def escape (t : Text) : Text := t.flatMap escapeScalar

@[simp] theorem escape_nil : escape [] = [] := rfl

@[simp] theorem escape_cons (c : Char) (t : Text) : escape (c :: t) = escapeScalar c ++ escape t :=
  rfl

/-- What stands for one scalar: an entity, or the scalar itself if it starts none. -/
theorem escapeScalar_cases (c : Char) :
    (∃ name, namedEntities.lookup name = some c ∧ escapeScalar c = '&' :: name ++ [';'] ∧
      name ∈ namedEntities.map Prod.fst) ∨
    (escapeScalar c = [c] ∧ c ∉ ['&', '<', '>', '"', '\'']) := by
  unfold escapeScalar
  split
  · exact .inl ⟨"amp", by decide⟩
  · exact .inl ⟨"lt", by decide⟩
  · exact .inl ⟨"gt", by decide⟩
  · exact .inl ⟨"quot", by decide⟩
  · exact .inl ⟨"apos", by decide⟩
  · rename_i amp lt gt quot apos
    refine .inr ⟨rfl, ?_⟩
    simp only [List.mem_cons, List.not_mem_nil, or_false, not_or]
    exact ⟨amp, lt, gt, quot, apos⟩

theorem notMem_escapeScalar {c d : Char} (hd : d ∈ ['<', '>', '"', '\'']) : d ∉ escapeScalar c := by
  rcases escapeScalar_cases c with ⟨name, -, hc, hname⟩ | ⟨hc, hplain⟩
  · rw [hc]
    have names : ∀ name ∈ namedEntities.map Prod.fst, ∀ d ∈ ['<', '>', '"', '\''],
        d ∉ '&' :: name ++ [';'] := by decide
    exact names name hname d hd
  · rw [hc, List.mem_singleton]
    rintro rfl
    exact hplain (List.mem_cons_of_mem _ hd)

/-- Escaped text holds no bracket and no quote. -/
theorem notMem_escape {t : Text} {d : Char} (hd : d ∈ ['<', '>', '"', '\'']) : d ∉ escape t := by
  intro h
  obtain ⟨c, -, hc⟩ := List.mem_flatMap.mp h
  exact notMem_escapeScalar hd hc

theorem escape_eq_nil {t : Text} : escape t = [] ↔ t = [] := by
  cases t with
  | nil => simp
  | cons c t =>
    have h : escapeScalar c ≠ [] := by
      obtain ⟨name, -, hc, -⟩ | ⟨hc, -⟩ := escapeScalar_cases c <;> simp [hc]
    simp [h]

/-- Inside an entity the scalars up to the semicolon are its name. -/
theorem unescapeFrom_name (total start offset : Nat) (before name rest : Text)
    (plain : ∀ c ∈ name, c ≠ ';' ∧ c ≠ '&') :
    ∃ offset', unescapeFrom total offset (some (start, before)) (name ++ rest) =
      unescapeFrom total offset' (some (start, name.reverse ++ before)) rest := by
  induction name generalizing offset before with
  | nil => exact ⟨offset, rfl⟩
  | cons c name ih =>
    obtain ⟨hsemi, hamp⟩ := plain c List.mem_cons_self
    obtain ⟨offset', h⟩ := ih (offset + c.utf8Size) (c :: before)
      fun d hd => plain d (List.mem_cons_of_mem c hd)
    refine ⟨offset', ?_⟩
    rw [List.cons_append, unescapeFrom]
    simp only [hsemi, hamp, if_false]
    simpa using h

theorem entity_named {name : Text} {c : Char} (h : namedEntities.lookup name = some c)
    (hname : name ∈ namedEntities.map Prod.fst) (start stop : Nat) :
    entity start stop name = .ok c := by
  have head : ∀ n ∈ namedEntities.map Prod.fst, n.head? ≠ some '#' := by decide
  have hhead := head name hname
  unfold entity
  split
  · simp at hhead
  · simp at hhead
  · rw [h]

/-- One escaped scalar in front of any text. -/
theorem unescapeFrom_escapeScalar (total offset : Nat) (c : Char) (rest : Text) :
    ∃ offset', unescapeFrom total offset none (escapeScalar c ++ rest) =
      (unescapeFrom total offset' none rest).map (c :: ·) := by
  rcases escapeScalar_cases c with ⟨name, hlookup, hc, hname⟩ | ⟨hc, hplain⟩
  · have plain : ∀ n ∈ namedEntities.map Prod.fst, ∀ d ∈ n, d ≠ ';' ∧ d ≠ '&' := by decide
    obtain ⟨offset', h⟩ := unescapeFrom_name total offset (offset + ('&' : Char).utf8Size) [] name
      (';' :: rest) (plain name hname)
    refine ⟨offset' + (';' : Char).utf8Size, ?_⟩
    rw [hc, List.cons_append, List.cons_append, List.append_assoc, unescapeFrom]
    simp only [if_true, List.singleton_append, h]
    rw [unescapeFrom]
    simp [entity_named hlookup hname]
  · have hamp : c ≠ '&' := by
      rintro rfl
      exact hplain (by decide)
    refine ⟨offset + c.utf8Size, ?_⟩
    rw [hc, List.singleton_append, unescapeFrom]
    simp [hamp]

theorem unescapeFrom_escape (total offset : Nat) (t : Text) :
    unescapeFrom total offset none (escape t) = .ok t := by
  induction t generalizing offset with
  | nil => rfl
  | cons c t ih =>
    obtain ⟨offset', h⟩ := unescapeFrom_escapeScalar total offset c (escape t)
    rw [escape_cons, h, ih]
    rfl

@[simp] theorem unescape_escape (t : Text) : unescape (escape t) = .ok t :=
  unescapeFrom_escape _ 0 t

end MarkdownExport.Xml
