import Mathlib.Algebra.Ring.Int.Defs
import MarkdownExport.Markdown.Start
import MarkdownExport.Proofs.Text.Basic

/-! The number at which a list starts, told by the parts of the text that gives it. It is the
number that is written there, or the end of the range if that number lies beyond. The lower end is
one above the least number of 128 bits, since the sign is put on a number that has been cut
already. -/
namespace MarkdownExport.Markdown

inductive Sign where
  | unsigned | plus | minus
  deriving DecidableEq, Repr

namespace Sign

def text : Sign → Text
  | unsigned => []
  | plus => "+"
  | minus => "-"

def factor : Sign → Int
  | unsigned => 1
  | plus => 1
  | minus => -1

end Sign

/-- The parts of a text that gives a start, in their order. -/
structure StartParts where
  blanks : Text
  sign : Sign
  digits : Text
  rest : Text

namespace StartParts

def signed (p : StartParts) : Text := p.sign.text ++ (p.digits ++ p.rest)

/-- What is written; no digits write 0. -/
def number (p : StartParts) : Int := p.sign.factor * Nat.ofDigitChars 10 p.digits 0

/-- These are the parts of the text: all blanks at its start, a sign if one stands behind them, and
the longest run of digits behind that. -/
structure Reads (p : StartParts) (given : Text) : Prop where
  text_eq : p.blanks ++ p.signed = given
  blanks : ∀ c ∈ p.blanks, isBlank c = true
  signed : ∀ c ∈ p.signed.head?, isBlank c = false
  unsigned : p.sign = .unsigned → ∀ c ∈ (p.digits ++ p.rest).head?, c ≠ '+' ∧ c ≠ '-'
  digits : ∀ c ∈ p.digits, c.isDigit = true
  rest : ∀ c ∈ p.rest.head?, c.isDigit = false

end StartParts

/-- The start that is written as `n`, if the least number is `least`. -/
def startValue (least n : Int) : Int := if n = 0 then 1 else max least (min (2 ^ 127 - 1) n)

/-! The parts. -/

/-- With no sign in front, a text does not start with one. -/
def IsSignedBy (sign : Sign) (t : Text) : Prop :=
  sign = .unsigned → ∀ c ∈ t.head?, c ≠ '+' ∧ c ≠ '-'

theorem exists_sign (t : Text) : ∃ sign u, t = Sign.text sign ++ u ∧ IsSignedBy sign u := by
  cases t with
  | nil => exact ⟨.unsigned, [], rfl, by simp [IsSignedBy]⟩
  | cons c u =>
    by_cases hminus : c = '-'
    · exact ⟨.minus, u, by rw [hminus]; rfl, fun h => by cases h⟩
    · by_cases hplus : c = '+'
      · exact ⟨.plus, u, by rw [hplus]; rfl, fun h => by cases h⟩
      · refine ⟨.unsigned, c :: u, rfl, fun _ d hd => ?_⟩
        cases hd
        exact ⟨hplus, hminus⟩

/-- The sign that a text starts with, and what is behind it. -/
def splitSign : Text → Sign × Text
  | '-' :: t => (.minus, t)
  | '+' :: t => (.plus, t)
  | t => (.unsigned, t)

theorem splitSign_append {sign : Sign} {u : Text} (h : IsSignedBy sign u) :
    splitSign (sign.text ++ u) = (sign, u) := by
  cases sign with
  | plus => rfl
  | minus => rfl
  | unsigned =>
    cases u with
    | nil => rfl
    | cons c u =>
      obtain ⟨hplus, hminus⟩ := h rfl c rfl
      simp [Sign.text, splitSign, hplus, hminus]

namespace StartParts
variable {p q : StartParts} {given : Text}

theorem Reads.trimStart_eq (h : p.Reads given) : given.trimStart = p.signed := by
  rw [← h.text_eq]
  exact Text.dropWhile_run h.blanks h.signed

theorem exists_reads (given : Text) : ∃ p : StartParts, p.Reads given := by
  obtain ⟨sign, u, hu, hsign⟩ := exists_sign given.trimStart
  have hdigits : u.takeWhile Char.isDigit ++ u.dropWhile Char.isDigit = u :=
    List.takeWhile_append_dropWhile
  refine ⟨⟨given.takeWhile isBlank, sign, u.takeWhile Char.isDigit, u.dropWhile Char.isDigit⟩, ?_⟩
  constructor
  · rw [signed, hdigits, ← hu]
    exact List.takeWhile_append_dropWhile
  · intro c hc
    exact List.mem_takeWhile_imp hc
  · intro c hc
    have hnot := List.head?_dropWhile_not isBlank given
    rw [signed, hdigits, ← hu, Text.trimStart] at hc
    rwa [hc] at hnot
  · rwa [hdigits]
  · intro c hc
    exact List.mem_takeWhile_imp hc
  · intro c hc
    have hnot := List.head?_dropWhile_not Char.isDigit u
    rwa [hc] at hnot

theorem Reads.unique (h : p.Reads given) (hq : q.Reads given) : p = q := by
  have hblanks : p.blanks = q.blanks := by
    rw [← Text.takeWhile_run h.blanks h.signed, h.text_eq, ← hq.text_eq,
      Text.takeWhile_run hq.blanks hq.signed]
  have hsigned : p.signed = q.signed := h.trimStart_eq.symm.trans hq.trimStart_eq
  have hsplit := splitSign_append h.unsigned
  rw [← StartParts.signed, hsigned, StartParts.signed, splitSign_append hq.unsigned] at hsplit
  obtain ⟨hsign, hrun⟩ := Prod.mk.inj hsplit
  have hdigits : p.digits = q.digits := by
    rw [← Text.takeWhile_run h.digits h.rest, ← hrun, Text.takeWhile_run hq.digits hq.rest]
  have hrest : p.rest = q.rest := by
    rw [← Text.dropWhile_run h.digits h.rest, ← hrun, Text.dropWhile_run hq.digits hq.rest]
  cases p
  cases q
  cases hblanks
  cases hsign
  cases hdigits
  cases hrest
  rfl

end StartParts

theorem startNumber_eq {given u : Text} {sign : Sign} (hu : given.trimStart = sign.text ++ u)
    (h : IsSignedBy sign u) :
    startNumber given = match digitsValue (u.takeWhile Char.isDigit) with
      | 0 => 1
      | value => sign.factor * min greatestNumber value := by
  unfold startNumber
  split
  next factor digits hparts =>
    rw [hu] at hparts
    obtain ⟨rfl, rfl⟩ : factor = sign.factor ∧ digits = u := by
      cases sign with
      | plus | minus => exact Prod.mk.inj hparts.symm
      | unsigned =>
        cases u with
        | nil => exact Prod.mk.inj hparts.symm
        | cons c u =>
          obtain ⟨hplus, hminus⟩ := h rfl c rfl
          split at hparts
          next heq => exact absurd (List.cons.inj heq).1 hminus
          next heq => exact absurd (List.cons.inj heq).1 hplus
          next => exact Prod.mk.inj hparts.symm
    rfl

/-- The sign is put on a number that is cut before, so the range has the same length on both sides
of 0. -/
theorem factor_mul_min (sign : Sign) {n : Nat} (hn : n ≠ 0) :
    sign.factor * min greatestNumber n = startValue (-(2 ^ 127 - 1)) (sign.factor * n) := by
  have hgreatest : greatestNumber = 2 ^ 127 - 1 := by decide
  unfold startValue
  cases sign <;> simp only [Sign.factor] <;> omega

theorem startNumber_of_reads {p : StartParts} {given : Text} (h : p.Reads given) :
    startNumber given = startValue (-(2 ^ 127 - 1)) p.number := by
  have hvalue : digitsValue p.digits = Nat.ofDigitChars 10 p.digits 0 :=
    Nat.ofDigitChars_eq_foldl.symm
  rw [startNumber_eq h.trimStart_eq h.unsigned, Text.takeWhile_run h.digits h.rest, hvalue,
    StartParts.number]
  cases Nat.ofDigitChars 10 p.digits 0 with
  | zero => rw [Int.natCast_zero, mul_zero]; rfl
  | succ n => exact factor_mul_min p.sign (Nat.succ_ne_zero n)

/-! Written numbers. -/

theorem not_isBlank_of_isDigit {c : Char} (h : c.isDigit = true) : isBlank c = false := by
  have hc : 48 ≤ c.toNat ∧ c.toNat ≤ 57 := by
    simpa [Char.isDigit, UInt32.le_iff_toNat_le] using h
  simp [isBlank]
  omega

theorem reads_decimal (sign : Sign) (n : Nat) :
    StartParts.Reads ⟨[], sign, decimal n, []⟩ (sign.text ++ decimal n) := by
  constructor
  · simp [StartParts.signed]
  · simp
  · intro c hc
    rcases List.mem_append.mp (List.mem_of_mem_head? hc) with hc | hc
    · cases sign <;> simp [Sign.text] at hc <;> subst hc <;> decide
    · exact not_isBlank_of_isDigit (isDigit_of_mem_decimal (by simpa using hc))
  · intro _ c hc
    have hdigit : c.isDigit = true :=
      isDigit_of_mem_decimal (by simpa using List.mem_of_mem_head? hc)
    constructor <;> rintro rfl <;> exact absurd hdigit (by decide)
  · intro c hc
    exact isDigit_of_mem_decimal hc
  · simp

theorem number_decimal (sign : Sign) (n : Nat) :
    StartParts.number ⟨[], sign, decimal n, []⟩ = sign.factor * n := by
  rw [StartParts.number, decimal, Nat.ofDigitChars_toDigits (by decide) (by decide)]

/-- Every integer is read back from its decimal. -/
theorem exists_reads_signedDecimal (z : Int) :
    ∃ p : StartParts, p.Reads (signedDecimal z) ∧ p.number = z := by
  by_cases hz : z < 0
  · refine ⟨⟨[], .minus, decimal z.natAbs, []⟩, ?_, ?_⟩
    · rw [signedDecimal, if_pos hz]
      exact reads_decimal .minus z.natAbs
    · rw [number_decimal, Sign.factor]
      omega
  · refine ⟨⟨[], .unsigned, decimal z.natAbs, []⟩, ?_, ?_⟩
    · rw [signedDecimal, if_neg hz]
      exact reads_decimal .unsigned z.natAbs
    · rw [number_decimal, Sign.factor]
      omega

theorem startValue_mono {least m n : Int} (hleast : least ≤ 1) (hm : m ≠ 0) (hn : n ≠ 0)
    (h : m ≤ n) : startValue least m ≤ startValue least n := by
  unfold startValue
  rw [if_neg hm, if_neg hn]
  omega

/-- Every text is read in one way, whatever it is, and starts a list at the number that is read,
kept in its range, or at 1 if that is 0. This is the range of 128 bits without the least number.
Decimals of all other numbers but 0 are read as these, and of two numbers but 0 the greater one does
not start a list earlier. -/
theorem startNumber_saturated (given : Text) :
    (∃! p : StartParts, p.Reads given) ∧
    (∀ p : StartParts, p.Reads given →
      startNumber given = startValue (-(2 ^ 127 - 1)) p.number ∧
      (startNumber given = startValue (-2 ^ 127) p.number ↔ -2 ^ 127 < p.number)) ∧
    (∀ z : Int, z ≠ 0 → -2 ^ 127 < z → z < 2 ^ 127 → startNumber (signedDecimal z) = z) ∧
    ∀ p given' p', StartParts.Reads p given → StartParts.Reads p' given' →
      p.number ≠ 0 → p'.number ≠ 0 → p.number ≤ p'.number →
        startNumber given ≤ startNumber given' := by
  refine ⟨?_, fun p h => ⟨startNumber_of_reads h, ?_⟩, ?_, ?_⟩
  · obtain ⟨p, h⟩ := StartParts.exists_reads given
    exact ⟨p, h, fun q hq => hq.unique h⟩
  · rw [startNumber_of_reads h]
    unfold startValue
    split <;> omega
  · intro z hz hlow hhigh
    obtain ⟨p, h, rfl⟩ := exists_reads_signedDecimal z
    rw [startNumber_of_reads h, startValue, if_neg hz]
    omega
  · intro p given' p' h h' hp hp' hle
    rw [startNumber_of_reads h, startNumber_of_reads h']
    exact startValue_mono (by decide) hp hp' hle

/-- The least number of 128 bits starts a list at the number behind it. -/
theorem startNumber_least :
    let least : Text := "-170141183460469231731687303715884105728"
    StartParts.Reads ⟨[], .minus, least.tail, []⟩ least ∧
      StartParts.number ⟨[], .minus, least.tail, []⟩ = -2 ^ 127 ∧
      startValue (-2 ^ 127) (-2 ^ 127) = -2 ^ 127 ∧ startNumber least = -2 ^ 127 + 1 := by
  refine ⟨⟨rfl, by decide, ?_, ?_, by decide, ?_⟩, by decide +kernel, by decide, by decide +kernel⟩
  · intro c hc
    cases hc
    decide
  · intro hsign
    cases hsign
  · intro c hc
    cases hc

end MarkdownExport.Markdown
