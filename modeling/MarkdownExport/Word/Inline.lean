import MarkdownExport.Word.Markup

/-! Inline HTML under construction. Runs next to each other with the same format share one
wrapper, so the last one is held back until something else comes. -/
namespace MarkdownExport.Word

structure RunFormat where
  bold : Bool := false
  italic : Bool := false
  strike : Bool := false
  superscript : Bool := false
  deriving DecidableEq, Repr

def encloseIf (wanted : Bool) (name content : Text) : Text :=
  if wanted then enclose name content else content

/-- Superscript is innermost and bold outermost. -/
def RunFormat.wrap (f : RunFormat) (content : Text) : Text :=
  encloseIf f.bold "strong" <| encloseIf f.italic "em" <| encloseIf f.strike "del" <|
    encloseIf f.superscript "sup" content

structure Inline where
  done : Text := []
  pending : Option (RunFormat × Text) := none
  deriving DecidableEq, Repr

namespace Inline

def finish (i : Inline) : Text :=
  match i.pending with
  | some (format, content) => i.done ++ format.wrap content
  | none => i.done

def pushRun (format : RunFormat) (content : Text) (i : Inline) : Inline :=
  if content.isEmpty then i
  else match i.pending with
    | some (current, before) =>
      if current = format then { i with pending := some (current, before ++ content) }
      else ⟨i.finish, some (format, content)⟩
    | none => { i with pending := some (format, content) }

def pushMarkup (html : Text) (i : Inline) : Inline := ⟨i.finish ++ html, none⟩

end Inline
end MarkdownExport.Word
