import MarkdownExport.Decimal.Binary64

/-! The shortest decimal that reads back as a given binary64 number, and its written form. -/
namespace MarkdownExport

/-- The number `digits * 10 ^ exponent`. -/
structure Decimal where
  digits : Nat
  exponent : Int
  deriving DecidableEq, Repr

namespace Binary64

/-- Whether `n / d` rounds to the number with significand `m` and exponent `q`. All quantities are
compared in quarters of a unit, since the gap below a power of two is half the one above. -/
def roundsTo (m : Nat) (q : Int) (n d : Nat) : Bool :=
  let below := if m = Nat.pow 2 52 && q > leastExponent then 4 * m - 1 else 4 * m - 2
  let above := 4 * m + 2
  let value := 4 * n * Nat.pow 2 (-q).toNat
  let unit := d * Nat.pow 2 q.toNat
  if m % 2 = 0 then below * unit ≤ value && value ≤ above * unit
  else below * unit < value && value < above * unit

/-- The exponent of the leading decimal digit of `n / d`. -/
def leadingExponent (n d : Nat) : Int :=
  let e : Int := ((decimal n).length : Int) - (decimal d).length
  if d * Nat.pow 10 e.toNat ≤ n * Nat.pow 10 (-e).toNat then e else e - 1

/-- The neighbours of `n / d` on the grid of multiples of `10 ^ k`, the nearer one first. -/
def neighbours (n d : Nat) (k : Int) : List Nat :=
  let n := n * Nat.pow 10 (-k).toNat
  let d := d * Nat.pow 10 k.toNat
  let low := n / d
  if roundHalfEven n d = low then [low, low + 1] else [low + 1, low]

def shortestFrom (x : Binary64) (n d : Nat) (lead : Int) : (places fuel : Nat) → Option Decimal
  | _, 0 => none
  | places, fuel + 1 =>
    let k := lead - places
    let reads (c : Nat) : Bool :=
      roundsTo x.significand x.exponent (scale 10 c k).1 (scale 10 c k).2
    match (neighbours n d k).find? reads with
    | some c => some ⟨c, k⟩
    | none => shortestFrom x n d lead (places + 1) fuel

/-- The nearest among the decimals with the fewest digits that read back as `x`; its sign is left
out. Seventeen digits are always enough. -/
def shortest (x : Binary64) : Decimal :=
  if x.significand = 0 then ⟨0, 0⟩
  else
    let n := (scale 2 x.significand x.exponent).1
    let d := (scale 2 x.significand x.exponent).2
    (shortestFrom x n d (leadingExponent n d) 0 17).getD ⟨n / d, 0⟩

/-- Digits without zeros at the end. -/
def dropZeros (ds : Text) : Text := (ds.reverse.dropWhile (· == '0')).reverse

/-- Positional with a digit after the point when the leading digit's exponent is in -5..15, and in
scientific notation otherwise. -/
def toText (x : Binary64) : Text :=
  let sign : Text := if x.negative then "-" else []
  if x.significand = 0 then sign ++ "0.0"
  else
    let shortest := x.shortest
    let all := decimal shortest.digits
    let e : Int := shortest.exponent + all.length - 1
    let digits := dropZeros all
    let body : Text :=
      if -5 ≤ e && e ≤ 15 then
        if e < 0 then "0." ++ List.replicate (-e - 1).toNat '0' ++ digits
        else
          let whole := e.toNat + 1
          let places := digits.drop whole
          digits.take whole ++ List.replicate (whole - digits.length) '0' ++ "." ++
            (if places.isEmpty then ['0'] else places)
      else
        let places := digits.drop 1
        digits.take 1 ++ (if places.isEmpty then [] else '.' :: places) ++ "e" ++
          signedDecimal e
    sign ++ body

end Binary64
end MarkdownExport
