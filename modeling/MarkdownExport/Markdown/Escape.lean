import MarkdownExport.Text.Basic

/-! Escaping of Markdown's punctuation. The set is the same everywhere in a line. -/
namespace MarkdownExport.Markdown

def isSignificant (c : Char) : Bool :=
  c ∈ ['\\', '\x60', '*', '_', '[', ']', '(', ')', '#', '-']

def escape (t : Text) : Text := t.flatMap fun c => if isSignificant c then ['\\', c] else [c]

@[simp] theorem escape_nil : escape [] = [] := rfl

@[simp] theorem escape_append (s t : Text) : escape (s ++ t) = escape s ++ escape t := by
  simp [escape]

theorem escape_cons (c : Char) (t : Text) :
    escape (c :: t) = (if isSignificant c then ['\\', c] else [c]) ++ escape t := by
  simp [escape]

/-- Drops each backslash and takes the scalar after it as it is. -/
def unescape : Text → Text
  | '\\' :: c :: t => c :: unescape t
  | c :: t => c :: unescape t
  | [] => []

theorem unescape_escape (t : Text) : unescape (escape t) = t := by
  induction t with
  | nil => rfl
  | cons c t ih =>
    rw [escape_cons]
    by_cases h : isSignificant c
    · simp [h, unescape, ih]
    · have hc : c ≠ '\\' := by rintro rfl; simp [isSignificant] at h
      simp only [h, Bool.false_eq_true, if_false, List.singleton_append]
      rw [unescape.eq_2 _ _ (by intro _ _ he; exact absurd he hc), ih]

end MarkdownExport.Markdown
