/-! Text as the list of its Unicode scalar values, and the operations every format shares. -/
namespace MarkdownExport

abbrev Text := List Char

instance : Coe String Text := ⟨String.toList⟩

namespace Text

/-- Lower case for the letters A to Z alone; other scalars keep their case. -/
def lower (t : Text) : Text := t.map Char.toLower

def equalsIgnoringCase (s t : Text) : Bool := lower s == lower t

@[simp] theorem lower_nil : lower [] = [] := rfl

@[simp] theorem lower_append (s t : Text) : lower (s ++ t) = lower s ++ lower t := by
  simp [lower]

/-- The rest of `t` after `head`, if `t` starts with it. -/
def dropStart? : (head t : Text) → Option Text
  | [], t => some t
  | _ :: _, [] => none
  | h :: hs, c :: cs => if h = c then dropStart? hs cs else none

theorem dropStart?_append (s t : Text) : dropStart? s (s ++ t) = some t := by
  induction s with
  | nil => cases t <;> rfl
  | cons c s ih => simp [dropStart?, ih]

theorem dropStart?_eq_some {s t r : Text} (h : dropStart? s t = some r) : t = s ++ r := by
  induction s generalizing t with
  | nil => cases t <;> simp_all [dropStart?]
  | cons c s ih =>
    cases t with
    | nil => simp [dropStart?] at h
    | cons d t =>
      by_cases hcd : c = d
      · simp only [dropStart?, hcd, if_true] at h
        simp [hcd, ih h]
      · simp [dropStart?, hcd] at h

def startsWith (t head : Text) : Bool := (dropStart? head t).isSome

def endsWith (t tail : Text) : Bool := startsWith t.reverse tail.reverse

def contains : (t part : Text) → Bool
  | [], part => part.isEmpty
  | c :: cs, part => startsWith (c :: cs) part || contains cs part

/-- The pieces of `t` between newlines; `n` newlines give `n + 1` pieces. -/
def lines (t : Text) : List Text := t.splitOn '\n'

def unlines (ls : List Text) : Text := List.intercalate ['\n'] ls

def replace (t : Text) (old : Char) (new : Text) : Text :=
  t.flatMap fun c => if c = old then new else [c]

@[simp] theorem replace_nil (old : Char) (new : Text) : replace [] old new = [] := rfl

@[simp] theorem replace_append (old : Char) (new s t : Text) :
    replace (s ++ t) old new = replace s old new ++ replace t old new := by
  simp [replace]

def ofBool (b : Bool) : Text := if b then "true" else "false"

/-- Length in UTF-16 code units. -/
def units16 (t : Text) : Nat :=
  t.foldr (fun c n => (if c.toNat < 0x10000 then 1 else 2) + n) 0

/-- Length in UTF-8 bytes. -/
def bytes8 (t : Text) : Nat := t.foldr (fun c n => c.utf8Size + n) 0

/-- The order of text by scalar values. -/
def le (s t : Text) : Bool := !List.lex t s fun c d => c.toNat < d.toNat

end Text
end MarkdownExport
