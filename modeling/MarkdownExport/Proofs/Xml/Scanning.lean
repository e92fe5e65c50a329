import MarkdownExport.Proofs.Xml.Content

/-! Scanning what an element tree is written as gives the events of the tree and no fault. -/
namespace MarkdownExport.Xml

namespace Scan

def prependAll (events : List Event) (s : Scan) : Scan := { s with events := events ++ s.events }

@[simp] theorem prependAll_nil (s : Scan) : s.prependAll [] = s := rfl

theorem prepend_eq (event : Event) (s : Scan) : s.prepend event = s.prependAll [event] := rfl

theorem prependAll_append (events more : List Event) (s : Scan) :
    s.prependAll (events ++ more) = (s.prependAll more).prependAll events := by
  simp [prependAll]

end Scan

/-- From `t` inside the elements `stack`, a scan with fuel enough gives `events` and is then at
`rest` inside `stack'`, with fuel enough for it. -/
def Scans (stack : List Text) (t : Text) (events : List Event) (stack' : List Text)
    (rest : Text) : Prop :=
  ∀ fuel, t.length ≤ fuel → ∃ fuel', rest.length ≤ fuel' ∧
    scanFrom fuel stack t = (scanFrom fuel' stack' rest).prependAll events

namespace Scans
variable {stack stack' stack'' : List Text} {t rest rest' : Text} {events more : List Event}

theorem refl (stack : List Text) (t : Text) : Scans stack t [] stack t :=
  fun fuel enough => ⟨fuel, enough, rfl⟩

theorem trans (h : Scans stack t events stack' rest) (h' : Scans stack' rest more stack'' rest') :
    Scans stack t (events ++ more) stack'' rest' := by
  intro fuel enough
  obtain ⟨fuel₁, enough₁, h₁⟩ := h fuel enough
  obtain ⟨fuel₂, enough₂, h₂⟩ := h' fuel₁ enough₁
  exact ⟨fuel₂, enough₂, by rw [h₁, h₂, Scan.prependAll_append]⟩

/-- A step that takes at least one scalar and gives one event. -/
theorem of_step {event : Event} (shorter : rest.length < t.length)
    (h : ∀ fuel, scanFrom (fuel + 1) stack t = (scanFrom fuel stack' rest).prepend event) :
    Scans stack t [event] stack' rest := by
  intro fuel enough
  obtain ⟨fuel, rfl⟩ : ∃ n, fuel = n + 1 := ⟨fuel - 1, by omega⟩
  exact ⟨fuel, by omega, by rw [h, Scan.prepend_eq]⟩

theorem scan_eq (h : Scans [] t events [] []) : scan t = ⟨events, none⟩ := by
  obtain ⟨fuel, -, hscan⟩ := h t.length le_rfl
  have hnil : scanFrom fuel [] [] = .nothing := by cases fuel <;> rfl
  rw [scan, hscan, hnil]
  simp [Scan.prependAll, Scan.nothing]

end Scans

/-- A `<` before the name of an element. -/
theorem scanFrom_tag (fuel : Nat) (stack : List Text) {t content rest : Text} {c : Char}
    (hc : isNameScalar c = true) (ht : t.head? = some c)
    (hsplit : splitTag none t = some (content, rest)) :
    scanFrom (fuel + 1) stack ('<' :: t) =
      if content.getLast? = some '/' then
        (scanFrom fuel stack rest).prepend (.empty (Tag.ofContent content.dropLast))
      else
        (scanFrom fuel ((Tag.ofContent content).name :: stack) rest).prepend
          (.opened (Tag.ofContent content)) := by
  have hne := (isNameScalar_spec hc).2
  simp only [List.mem_cons, List.not_mem_nil, or_false, not_or] at hne
  obtain ⟨hbang, hquery, hslash, -⟩ := hne
  obtain ⟨more, rfl⟩ := List.head?_eq_some_iff.mp ht
  rw [scanFrom]
  · simp only [hsplit]
  · simp
  · simp [hbang]
  · simp [hquery]
  · simp [hslash]

theorem scans_opened (stack : List Text) (name : Name) (attributes : Attributes) (rest : Text) :
    Scans stack ('<' :: (name.text ++ (attributes.render ++ '>' :: rest)))
      [.opened (attributes.tag name)] (name.text :: stack) rest := by
  obtain ⟨first, more, hname, hfirst⟩ := name.exists_cons
  apply Scans.of_step (by simp; omega)
  intro fuel
  have hsplit : splitTag none (name.text ++ (attributes.render ++ '>' :: rest)) =
      some (name.text ++ attributes.render, rest) := by
    rw [splitTag_render]
    simp [splitTag]
  rw [scanFrom_tag fuel stack hfirst (by simp [hname]) hsplit, if_neg (getLast?_render _ _),
    ofContent_render, Attributes.tag_name]

theorem scans_empty (stack : List Text) (name : Name) (attributes : Attributes) (rest : Text) :
    Scans stack ('<' :: (name.text ++ (attributes.render ++ '/' :: '>' :: rest)))
      [.empty (attributes.tag name)] stack rest := by
  obtain ⟨first, more, hname, hfirst⟩ := name.exists_cons
  apply Scans.of_step (by simp; omega)
  intro fuel
  have hsplit : splitTag none (name.text ++ (attributes.render ++ '/' :: '>' :: rest)) =
      some (name.text ++ attributes.render ++ ['/'], rest) := by
    rw [splitTag_render]
    simp [splitTag]
  rw [scanFrom_tag fuel stack hfirst (by simp [hname]) hsplit, if_pos List.getLast?_concat,
    List.dropLast_concat, ofContent_render]

theorem scans_closed (stack : List Text) (name : Name) (rest : Text) :
    Scans (name.text :: stack) ('<' :: '/' :: (name.text ++ '>' :: rest))
      [.closed name.text] stack rest := by
  apply Scans.of_step (by simp; omega)
  intro fuel
  have hsplit : splitClose (name.text ++ '>' :: rest) = (name.text, rest) := by
    rw [splitClose, Text.span_of_notMem (name.notMem (by decide))]
    rfl
  have hend : endName name.text = name.text := by
    obtain ⟨first, more, hname, hfirst⟩ := name.exists_cons
    have hspace : name.text.all isSpace = false := by
      rw [hname, List.all_cons, (isNameScalar_spec hfirst).1, Bool.false_and]
    have hlast : name.text.reverse.dropWhile isSpace = name.text.reverse := by
      rw [List.dropWhile_eq_self_iff]
      intro h
      have hmem := List.mem_reverse.mp (List.get_mem name.text.reverse ⟨0, h⟩)
      simpa using name.isSpace_of_mem hmem
    rw [endName, hspace, hlast]
    simp
  rw [scanFrom, hsplit]
  simp [hend]

theorem scans_text (stack : List Text) {raw : Text} (nonempty : raw ≠ [])
    (plain : '<' ∉ raw) (rest : Text) :
    Scans stack (raw ++ '<' :: rest) [.text raw] stack ('<' :: rest) := by
  obtain ⟨c, cs, rfl⟩ := List.exists_cons_of_ne_nil nonempty
  have hc : c ≠ '<' := fun h => plain (h ▸ List.mem_cons_self)
  apply Scans.of_step (by simp only [List.length_append, List.length_cons]; omega)
  intro fuel
  have hspan := Text.span_of_notMem plain rest
  rw [List.cons_append] at hspan ⊢
  rw [scanFrom, hspan]
  all_goals simp [hc]

namespace Content

/-- The text and the end tag of a leaf. -/
theorem scans_leaf (stack : List Text) (name : Name) (content rest : Text) :
    Scans (name.text :: stack) (escape content ++ '<' :: '/' :: (name.text ++ '>' :: rest))
      ((if content = [] then [] else [.text (escape content)]) ++ [.closed name.text])
      stack rest := by
  refine Scans.trans ?_ (scans_closed stack name rest)
  by_cases h : content = []
  · subst h
    exact Scans.refl _ _
  · rw [if_neg h]
    exact scans_text _ (escape_eq_nil.not.mpr h) (notMem_escape (by decide)) _

mutual

theorem scans_render (stack : List Text) (rest : Text) :
    (c : Content) → Scans stack (c.render ++ rest) c.events stack rest
  | element name attributes children => by
    have hopen := scans_opened stack name attributes
      (renderAll children ++ '<' :: '/' :: (name.text ++ '>' :: rest))
    have hall := scans_renderAll (name.text :: stack) ('<' :: '/' :: (name.text ++ '>' :: rest))
      children
    have hclose := scans_closed stack name rest
    simpa [render, events] using hopen.trans (hall.trans hclose)
  | leaf name attributes content => by
    have hopen := scans_opened stack name attributes
      (escape content ++ '<' :: '/' :: (name.text ++ '>' :: rest))
    have hleaf := scans_leaf stack name content rest
    simpa [render, events] using hopen.trans hleaf
  | empty name attributes => by
    simpa [render, events] using scans_empty stack name attributes rest

theorem scans_renderAll (stack : List Text) (rest : Text) :
    (cs : List Content) → Scans stack (renderAll cs ++ rest) (eventsAll cs) stack rest
  | [] => Scans.refl stack rest
  | c :: cs => by
    have hc := scans_render stack (renderAll cs ++ rest) c
    have hcs := scans_renderAll stack rest cs
    simpa [renderAll, eventsAll] using hc.trans hcs

end

/-- An element tree survives being written and scanned. -/
theorem scan_render (c : Content) : scan c.render = ⟨c.events, none⟩ := by
  have h := scans_render [] [] c
  rw [List.append_nil] at h
  exact h.scan_eq

end Content
end MarkdownExport.Xml
