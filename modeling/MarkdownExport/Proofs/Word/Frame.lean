import MarkdownExport.Proofs.Word.Cover

/-! Content that is finished before and the open drawing are a frame around the rest of the reader's
state: footnotes do not look at them either. -/
namespace MarkdownExport.Word

/-- Content that comes before a state's own, and a change of what is known of its drawing. -/
structure Frame where
  before : Contents
  onDrawing : OpenDrawing → OpenDrawing

def State.framed (f : Frame) (s : State) : State := { s with
  blocks := f.before.blocks ++ s.blocks
  footnotes := f.before.notes ++ s.footnotes
  seen := s.seen ++ f.before.seen
  footnote := s.footnote.map fun note =>
    { note with firstBlock := f.before.blocks.length + note.firstBlock }
  drawing := s.drawing.map f.onDrawing }

/-- A frame as a cover. An open footnote starts behind the blocks that come before. -/
def Frame.cover (f : Frame) : Cover where
  blocks := f.before.blocks
  seen := f.before.seen
  footnotes notes := f.before.notes ++ notes
  footnote note := note.map fun note =>
    { note with firstBlock := f.before.blocks.length + note.firstBlock }
  onDrawing := f.onDrawing

section Framed
variable {σ σ' : Source} (f : Frame) (s : State)

theorem openFootnote_framed (tag : Xml.Tag) :
    openFootnote tag (s.framed f) = (openFootnote tag s).framed f := by
  simp [openFootnote, State.framed]

/-- A footnote takes the blocks since its start, wherever that was. -/
theorem closeFootnote_framed : closeFootnote (s.framed f) = (closeFootnote s).framed f := by
  obtain ⟨blocks, footnotes, footnote⟩ := s
  cases footnote with
  | some note =>
    by_cases hkeep : note.keep <;>
      simp [closeFootnote, State.framed, hkeep, List.take_length_add_append,
        List.drop_length_add_append]
  | none => rfl

theorem openElement_framed {tag : Xml.Tag} (plain : (Element.ofName tag.name).isReferring = false) :
    openElement σ' tag (s.framed f) = (openElement σ tag s).framed f := by
  by_cases hnote : Element.ofName tag.name = .footnote
  · simp only [openElement, hnote]
    exact openFootnote_framed f s tag
  · exact openElement_covered_of_plain f.cover s hnote plain

theorem closeElement_framed (same : σ'.numbering = σ.numbering) {name : Text}
    (plain : Element.ofName name ≠ .drawing) :
    closeElement σ' name (s.framed f) = (closeElement σ name s).framed f := by
  by_cases hnote : Element.ofName name = .footnote
  · simp only [closeElement, hnote]
    exact closeFootnote_framed f s
  · exact closeElement_covered_of_plain f.cover s same hnote plain

theorem captureText_framed (raw : Text) :
    captureText raw (s.framed f) = (captureText raw s).map (State.framed f) :=
  captureText_covered f.cover s raw

end Framed

end MarkdownExport.Word
