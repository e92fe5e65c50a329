import MarkdownExport.Proofs.Word.Frame
import MarkdownExport.Proofs.Word.Openness

/-! Elements next to each other do not touch each other. When whole elements have been read, only
blocks, footnotes and counts are left, and what comes next is read as if it stood alone. -/
namespace MarkdownExport.Word

/-- A state whose blocks, footnotes and counts come behind those of `before`. -/
def State.after (before : Contents) (s : State) : State := s.framed ⟨before, id⟩

section After
variable {σ : Source} (before : Contents) (s : State)

theorem openElement_after (tag : Xml.Tag) :
    openElement σ tag (s.after before) = (openElement σ tag s).after before := by
  by_cases hnote : Element.ofName tag.name = .footnote
  · exact openElement_framed _ s (by rw [hnote]; rfl)
  · exact openElement_covered (Frame.cover ⟨before, id⟩) s rfl hnote

theorem closeElement_after (name : Text) :
    closeElement σ name (s.after before) = (closeElement σ name s).after before := by
  by_cases hnote : Element.ofName name = .footnote
  · exact closeElement_framed _ s rfl (by simp [hnote])
  · exact closeElement_covered (Frame.cover ⟨before, id⟩) s rfl hnote

theorem step_after (event : Xml.Event) :
    step σ (s.after before) event = (step σ s event).map (State.after before) :=
  step_covered (Frame.cover ⟨before, id⟩) s (fun tag _ => openElement_after before s tag)
    fun name t _ => closeElement_after before t name

/-- What comes behind other content is read as if it stood alone. -/
theorem readEvents_after (events : List Xml.Event) :
    readEvents σ (s.after before) events = (readEvents σ s events).map (State.after before) :=
  readEvents_covered (Frame.cover ⟨before, id⟩) s fun event _ t => step_after before t event

end After

section Balanced
open Xml (Balanced)
variable {σ : Source} {as bs : List Xml.Event} {a b : State}

/-- After whole elements nothing is open. -/
theorem eq_of_balanced (ha : Balanced as) (hread : readEvents σ {} as = .ok a) :
    a = { blocks := a.blocks, footnotes := a.footnotes, seen := a.seen } := by
  have hfits := fits_of_nest ha hread
  have hholds (k : Element) : a.outline.holds k = false := by
    cases hk : a.outline.holds k with
    | false => rfl
    | true => simpa [Outline.visible] using hfits.covers.holds k hk
  have hdepth (k : Element) : a.outline.depth k = 0 := by
    simpa [Outline.visible] using hfits.covers.depth k
  have hskip : a.skipDepth = 0 := hfits.skipDepth_eq_zero (by simp)
  have hnone {α : Type} {slot : Option α} (h : slot.isSome = false) : slot = none := by
    simpa using h
  have hfootnote : a.footnote = none := hnone (hholds .footnote)
  have hparagraph : a.paragraph = none := hnone (hholds .paragraph)
  have hrun : a.run = none := hnone (hholds .run)
  have hdrawing : a.drawing = none := hnone (hholds .drawing)
  have htables : a.tables = [] := List.length_eq_zero_iff.mp (hdepth .table)
  have hlinks : a.links = [] := List.length_eq_zero_iff.mp (hdepth .hyperlink)
  have hdeleted : a.deletedDepth = 0 := hdepth .deleted
  have hproperties : a.inRunProperties = false := hholds .runProperties
  have htext : a.capturesText = false := hholds .text
  have hinstruction : a.capturesInstruction = false := hholds .instruction
  obtain ⟨blocks, footnotes, footnote, tables, paragraph, links, run, drawing⟩ := a
  subst hfootnote htables hparagraph hlinks hrun hdrawing
  simp_all

/-- What is read after whole elements comes behind what they left. -/
theorem readEvents_append_of_balanced (ha : Balanced as) (hreada : readEvents σ {} as = .ok a)
    (hreadb : readEvents σ {} bs = .ok b) :
    readEvents σ {} (as ++ bs) = .ok (b.after ⟨a.blocks, a.footnotes, a.seen⟩) := by
  have hfirst : a = State.after ⟨a.blocks, a.footnotes, a.seen⟩ {} := by
    simpa [State.after, State.framed] using eq_of_balanced ha hreada
  rw [readEvents_append_of_ok hreada]
  conv => lhs; rw [hfirst]
  rw [readEvents_after, hreadb]
  rfl

/-- Whole elements leave nothing open, and two lists of them are read in a row as each is read
alone. -/
theorem readPart_siblings (ha : Balanced as) (hb : Balanced bs)
    (hreada : readPart σ ⟨as, none⟩ = .ok a) (hreadb : readPart σ ⟨bs, none⟩ = .ok b) :
    a = { blocks := a.blocks, footnotes := a.footnotes, seen := a.seen } ∧
    readPart σ ⟨as ++ bs, none⟩ = .ok
      { blocks := a.blocks ++ b.blocks
        footnotes := a.footnotes ++ b.footnotes
        seen := b.seen ++ a.seen } ∧
    ∀ f, (b.seen ++ a.seen).count f = a.seen.count f + b.seen.count f := by
  have hreada := (readPart_eq_ok.mp hreada).1
  have hreadb := (readPart_eq_ok.mp hreadb).1
  refine ⟨eq_of_balanced ha hreada, ?_, fun f => ?_⟩
  · rw [readPart_eq_ok]
    refine ⟨?_, rfl⟩
    rw [readEvents_append_of_balanced ha hreada hreadb, eq_of_balanced hb hreadb]
    rfl
  · rw [List.count_append, Nat.add_comm]

/-- A footnote, runs within runs, a paragraph within a paragraph and a cell without a table. -/
theorem readPart_siblings_oddly_nested :
    let as := (Xml.scan ("<w:footnote w:id='1'><w:p><w:r><w:t>n</w:t><w:r><w:t>m</w:t></w:r>" ++
      "</w:r></w:p></w:footnote><w:tc><w:p><w:r><w:t>a</w:t></w:r></w:p></w:tc>")).events
    let bs := (Xml.scan ("<w:p><w:hyperlink w:anchor='k'><w:p><w:del><w:r><w:t>b</w:t></w:r>" ++
      "</w:del></w:p></w:hyperlink></w:p><w:p><w:r><w:t>c</w:t></w:r></w:p>")).events
    readPart {} ⟨as ++ bs, none⟩ = .ok
      { blocks := [.text .paragraph "a", .text .paragraph "c"]
        footnotes := [⟨['1'], "m"⟩]
        seen := [.revision, .hyperlink] } :=
  (readPart_siblings
    (a := { blocks := [.text .paragraph "a"], footnotes := [⟨['1'], "m"⟩] })
    (b := { blocks := [.text .paragraph "c"], seen := [.revision, .hyperlink] })
    (by decide +kernel) (by decide +kernel)
    (eq_ok_of_toOption (by decide +kernel)) (eq_ok_of_toOption (by decide +kernel))).2.1

end Balanced

end MarkdownExport.Word
