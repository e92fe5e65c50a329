import MarkdownExport.Text.Blank

/-! The spacing of a finished document: at most one empty line in a row, nothing blank at the end
but one newline. -/
namespace MarkdownExport.Markdown

/-- Cuts each run of newlines to two, when `n` newlines stand before the text. -/
def limitNewlines (n : Nat) : Text → Text
  | [] => []
  | c :: t =>
    if c = '\n' then
      if n < 2 then c :: limitNewlines (n + 1) t else limitNewlines n t
    else c :: limitNewlines 0 t

def normalize (t : Text) : Text := Text.trimEnd (limitNewlines 0 t) ++ ['\n']

end MarkdownExport.Markdown
