import MarkdownExport.Text.Digit

/-! Finite binary64 numbers as exact dyadic rationals, and reading a decimal to the nearest one. -/
namespace MarkdownExport

/-- The number `± significand * 2 ^ exponent`. Zero keeps its sign. -/
structure Binary64 where
  negative : Bool
  significand : Nat
  exponent : Int
  deriving DecidableEq, Repr

namespace Binary64

def leastExponent : Int := -1074

/-- `n / d` rounded to the nearest integer, ties to the even one. -/
def roundHalfEven (n d : Nat) : Nat :=
  let q := n / d
  let r := n % d
  if 2 * r < d || (2 * r == d && q % 2 == 0) then q else q + 1

/-- `n * base ^ e` as a numerator and a denominator. -/
def scale (base n : Nat) (e : Int) : Nat × Nat :=
  (n * Nat.pow base e.toNat, Nat.pow base (-e).toNat)

/-- The nearest binary64 number to `n / d`, if that is finite. -/
def ofRatio? (negative : Bool) (n d : Nat) : Option Binary64 :=
  if n = 0 then some ⟨negative, 0, leastExponent⟩
  else
    let quotient (q : Int) : Nat × Nat := (n * Nat.pow 2 (-q).toNat, d * Nat.pow 2 q.toNat)
    let q := max leastExponent (n.log2 - d.log2 - 53)
    let q := if (quotient q).1 / (quotient q).2 < Nat.pow 2 53 then q else q + 1
    let m := roundHalfEven (quotient q).1 (quotient q).2
    let (m, q) := if m = Nat.pow 2 53 then (Nat.pow 2 52, q + 1) else (m, q)
    if q > 971 then none else some ⟨negative, m, q⟩

/-- The nearest binary64 number to `± digits * 10 ^ e`, if that is finite. -/
def ofDecimal? (negative : Bool) (digits : Nat) (e : Int) : Option Binary64 :=
  let size : Int := (decimal digits).length + e
  if digits = 0 || size < -400 then some ⟨negative, 0, leastExponent⟩
  else if size > 400 then none
  else ofRatio? negative (scale 10 digits e).1 (scale 10 digits e).2

/-- Reads `1`, `-2.5`, `.5`, `6.02e23` and the like; a number that is not finite is `none`. -/
def ofText? (given : Text) : Option Binary64 :=
  let (negative, rest) : Bool × Text :=
    match given with
    | '-' :: rest => (true, rest)
    | '+' :: rest => (false, rest)
    | rest => (false, rest)
  let (whole, rest) := rest.span Char.isDigit
  let (places, rest) : Text × Text :=
    match rest with
    | '.' :: rest => rest.span Char.isDigit
    | rest => ([], rest)
  let power? : Option Int :=
    match rest with
    | [] => some 0
    | mark :: rest =>
      if mark = 'e' || mark = 'E' then
        let (sign, digits) : Int × Text :=
          match rest with
          | '-' :: digits => (-1, digits)
          | '+' :: digits => (1, digits)
          | digits => (1, digits)
        if digits.isEmpty || !digits.all Char.isDigit then none
        else some (sign * digitsValue digits)
      else none
  if whole.isEmpty && places.isEmpty then none
  else power?.bind fun power =>
    ofDecimal? negative (digitsValue (whole ++ places)) (power - places.length)

end Binary64
end MarkdownExport
