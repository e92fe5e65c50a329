import Mathlib.Tactic.SplitIfs
import MarkdownExport.Metadata.Value

/-! Compact JSON is on one line: numerals hold no newline and quoted texts escape theirs. -/
namespace MarkdownExport

theorem newline_notMem_signedDecimal (z : Int) : '\n' ∉ signedDecimal z :=
  notMem_signedDecimal rfl (by decide) z

namespace Binary64

theorem mem_of_mem_dropZeros {c : Char} {ds : Text} (h : c ∈ dropZeros ds) : c ∈ ds := by
  rw [dropZeros, List.mem_reverse] at h
  exact List.mem_reverse.mp ((List.dropWhile_sublist _).mem h)

theorem newline_notMem_toText (x : Binary64) : '\n' ∉ x.toText := by
  have hsign : '\n' ∉ (if x.negative then ("-" : Text) else []) := by split <;> decide
  have hdigits : '\n' ∉ dropZeros (decimal x.shortest.digits) := fun h =>
    notMem_decimal rfl _ (mem_of_mem_dropZeros h)
  have htake (n : Nat) : '\n' ∉ (dropZeros (decimal x.shortest.digits)).take n := fun h =>
    hdigits (List.mem_of_mem_take h)
  have hdrop (n : Nat) : '\n' ∉ (dropZeros (decimal x.shortest.digits)).drop n := fun h =>
    hdigits (List.mem_of_mem_drop h)
  have htail : '\n' ∉ (dropZeros (decimal x.shortest.digits)).tail := fun h =>
    hdigits (List.mem_of_mem_tail h)
  simp only [toText]
  split_ifs at hsign ⊢ <;>
    simp [hsign, hdigits, htake, hdrop, htail, newline_notMem_signedDecimal]

end Binary64

namespace Text

theorem hexDigit_ne_newline : ∀ n < 16, hexDigit n ≠ '\n' := by decide

theorem newline_notMem_jsonEscape (c : Char) : '\n' ∉ jsonEscape c := by
  by_cases hc : c = '\n'
  · rw [hc]
    decide
  · unfold jsonEscape
    split
    all_goals try decide
    split
    · have hhigh := hexDigit_ne_newline (c.toNat / 16) (by omega)
      have hlow := hexDigit_ne_newline (c.toNat % 16) (by omega)
      simp [hhigh.symm, hlow.symm]
    · simpa using Ne.symm hc

theorem newline_notMem_jsonQuoted (t : Text) : '\n' ∉ t.jsonQuoted := by
  simp [jsonQuoted, quoteWith, newline_notMem_jsonEscape]

end Text

namespace Value

mutual

theorem newline_notMem_toJson : ∀ v : Value, '\n' ∉ v.toJson
  | null => by decide
  | bool b => by cases b <;> decide
  | integer z => newline_notMem_signedDecimal z
  | float x => x.newline_notMem_toText
  | text t => t.newline_notMem_jsonQuoted
  | list items => by simp [toJson, newline_notMem_jsonItems items]
  | object fields => by simp [toJson, newline_notMem_jsonFields fields]

theorem newline_notMem_jsonItems : ∀ items : List Value, '\n' ∉ jsonItems items
  | [] => by decide
  | [v] => by simp [jsonItems, newline_notMem_toJson v]
  | v :: w :: vs => by
    simp [jsonItems, newline_notMem_toJson v, newline_notMem_jsonItems (w :: vs)]

theorem newline_notMem_jsonFields : ∀ fields : List (Text × Value), '\n' ∉ jsonFields fields
  | [] => by decide
  | [(k, v)] => by simp [jsonFields, k.newline_notMem_jsonQuoted, newline_notMem_toJson v]
  | (k, v) :: f :: fs => by
    simp [jsonFields, k.newline_notMem_jsonQuoted, newline_notMem_toJson v,
      newline_notMem_jsonFields (f :: fs)]

end

end Value
end MarkdownExport
