import MarkdownExport.Text.Basic

/-! Writing HTML: text and attribute values that cannot be taken for markup. -/
namespace MarkdownExport.Word

def markupEscape (c : Char) : Text :=
  match c with
  | '&' => ['&', 'a', 'm', 'p', ';']
  | '<' => ['&', 'l', 't', ';']
  | '>' => ['&', 'g', 't', ';']
  | c => [c]

def escapeText (t : Text) : Text := t.flatMap markupEscape

def escapeValue (t : Text) : Text := (escapeText t).replace '"' ['&', 'q', 'u', 'o', 't', ';']

@[simp] theorem escapeText_nil : escapeText [] = [] := rfl

@[simp] theorem escapeText_append (s t : Text) :
    escapeText (s ++ t) = escapeText s ++ escapeText t := by
  simp [escapeText]

def openTag (name : Text) : Text := "<" ++ name ++ ">"

def closeTag (name : Text) : Text := "</" ++ name ++ ">"

def enclose (name content : Text) : Text := openTag name ++ content ++ closeTag name

end MarkdownExport.Word
