import Mathlib.Data.List.Basic
import Mathlib.Tactic.Common
import Substation.Text.Blank
import Substation.Text.Hexadecimal
import Substation.Text.Numeral

/-!
# Numerals

Numbers are written in decimal digits, with a minus sign if need be. Here they are read again
(`natural?_toString`, `integer?_toString`), and their characters are seen to be numeric, as are
hexadecimal digits.
-/

namespace Substation.Text

/-! ## Numeric characters -/

/-- The characters that numbers and bytes are written with. -/
def isNumeric (c : Char) : Bool := isHexDigit c || c == '-'

theorem isNumeric_of_isHexDigit {c : Char} (h : isHexDigit c = true) : isNumeric c = true := by
  rw [isNumeric, h, Bool.true_or]

theorem isNumeric_of_isDigit {c : Char} (h : c.isDigit = true) : isNumeric c = true := by
  simp [isNumeric, isHexDigit, h]

theorem isWhite_of_isNumeric {c : Char} (h : isNumeric c = true) : isWhite c = false := by
  simp only [isNumeric, isHexDigit, Bool.or_eq_true, Bool.and_eq_true, Char.isDigit_iff_toNat,
    decide_eq_true_eq, beq_iff_eq, Char.le_def, UInt32.le_iff_toNat_le] at h
  rcases h with ((h | h) | h) | rfl
  · simp [isWhite] at h ⊢
    omega
  · simp [isWhite] at h ⊢
    omega
  · simp [isWhite] at h ⊢
    omega
  · decide

/-! ## Decimal digits -/

theorem digitsValue_toDigits (n : Nat) : digitsValue (Nat.toDigits 10 n) = n :=
  Nat.ofDigitChars_ten_toDigits

theorem isDigit_of_mem_toDigits {n : Nat} {c : Char} (h : c ∈ Nat.toDigits 10 n) :
    c.isDigit = true :=
  Nat.isDigit_of_mem_toDigits (by decide) (by decide) h

theorem isDigits_toDigits (n : Nat) : isDigits (Nat.toDigits 10 n) = true := by
  rw [isDigits, Bool.and_eq_true, List.all_eq_true]
  refine ⟨?_, fun c hc => isDigit_of_mem_toDigits hc⟩
  cases h : Nat.toDigits 10 n with
  | nil => exact absurd h Nat.toDigits_ne_nil
  | cons _ _ => rfl

theorem toList_toString_nat (n : Nat) : (toString n).toList = Nat.toDigits 10 n := Nat.toList_repr

/-- The number that a text of digits denotes. -/
def natural? (s : String) : Option Nat :=
  if isDigits s.toList then some (digitsValue s.toList) else none

theorem natural?_toString (n : Nat) : natural? (toString n) = some n := by
  rw [natural?, toList_toString_nat, if_pos (isDigits_toDigits n), digitsValue_toDigits]

theorem isNumeric_toString_nat {n : Nat} {c : Char} (h : c ∈ (toString n).toList) :
    isNumeric c = true := by
  rw [toList_toString_nat] at h
  exact isNumeric_of_isDigit (isDigit_of_mem_toDigits h)

theorem toList_padded (width n : Nat) : (padded width n).toList =
    List.replicate (width - (Nat.toDigits 10 n).length) '0' ++ Nat.toDigits 10 n := by
  rw [padded, String.toList_ofList]

/-- Zeros in front do not count. -/
theorem digitsValue_padded (width n : Nat) : digitsValue (padded width n).toList = n := by
  have hzeros := Nat.ofDigitChars_append (b := 10)
    (l := List.replicate (width - (Nat.toDigits 10 n).length) '0') (m := Nat.toDigits 10 n) 0
  rw [Nat.ofDigitChars_replicate_zero, Nat.mul_zero] at hzeros
  rw [toList_padded]
  exact hzeros.trans (digitsValue_toDigits n)

theorem isDigit_padded {width n : Nat} {c : Char} (h : c ∈ (padded width n).toList) :
    c.isDigit = true := by
  rw [toList_padded, List.mem_append] at h
  rcases h with h | h
  · rw [List.eq_of_mem_replicate h]
    decide
  · exact isDigit_of_mem_toDigits h

theorem isNumeric_padded {width n : Nat} {c : Char} (h : c ∈ (padded width n).toList) :
    isNumeric c = true :=
  isNumeric_of_isDigit (isDigit_padded h)

/-! ## Integers -/

/-- The number that a text of digits denotes, with a sign or without one. -/
def integer? (s : String) : Option Int := (IntRange.signed 64).value? s.toList

theorem toList_toString_of_nonneg {n : Int} (h : 0 ≤ n) :
    (toString n).toList = Nat.toDigits 10 n.toNat := by
  change n.repr.toList = _
  rw [Int.repr_eq_if, if_pos h, Nat.toList_repr]

theorem toList_toString_of_neg {n : Int} (h : n < 0) :
    (toString n).toList = '-' :: Nat.toDigits 10 (-n).toNat := by
  change n.repr.toList = _
  rw [Int.repr_eq_if, if_neg (by omega), String.toList_append, Nat.toList_repr]
  rfl

theorem value?_of_isDigits (r : IntRange) {ds : List Char} (h : isDigits ds = true) :
    r.value? ds = some (digitsValue ds : Int) := by
  unfold IntRange.value?
  split
  · simp [isDigits] at h
  · simp [isDigits] at h
  · rw [if_pos h]

theorem integer?_toString (n : Int) : integer? (toString n) = some n := by
  rcases Int.lt_or_le n 0 with hn | hn
  · rw [integer?, toList_toString_of_neg hn, IntRange.value?, if_pos, digitsValue_toDigits]
    · congr 1
      omega
    · rw [isDigits_toDigits]
      rfl
  · rw [integer?, toList_toString_of_nonneg hn, value?_of_isDigits _ (isDigits_toDigits _),
      digitsValue_toDigits, Int.toNat_of_nonneg hn]

theorem isNumeric_toString_int {n : Int} {c : Char} (h : c ∈ (toString n).toList) :
    isNumeric c = true := by
  rcases Int.lt_or_le n 0 with hn | hn
  · rw [toList_toString_of_neg hn, List.mem_cons] at h
    rcases h with rfl | h
    · decide
    · exact isNumeric_of_isDigit (isDigit_of_mem_toDigits h)
  · rw [toList_toString_of_nonneg hn] at h
    exact isNumeric_of_isDigit (isDigit_of_mem_toDigits h)

end Substation.Text
