import Mathlib.Data.List.DropRight
import Mathlib.Data.Nat.Digits.Defs
import Mathlib.Tactic.Common
import Substation.Proofs.EnumValues
import Substation.Proofs.Numerals

/-!
# Integer literals

A value of an integer type is read in two steps: the white space around it is left out
(`strips_iff`), and what remains is an integer in decimal digits (`value?_eq_some_iff`), whose value
by the places of its digits has to lie in the range of the type. `integer_literals_decided` puts
this together for all types and says what follows for types of greater widths and for
floating-point numbers.

Results:
* `strips_iff`: what is left without the white space around a text;
* `value?_eq_some_iff`: integers in decimal digits;
* `integer_literals_decided` (`validate_numeric`): the values of the integer types.
-/

namespace Substation

open Substation.Template
open Substation.Text

namespace Text

/-! ## White space around a text -/

/-- `s` is what remains of `v` without the white space at its two ends. -/
structure Strips (v s : List Char) : Prop where
  /-- Around `s` there is nothing but white space. -/
  around : ∃ front back, v = front ++ s ++ back ∧ (∀ c ∈ front, isWhite c = true) ∧
    ∀ c ∈ back, isWhite c = true
  /-- `s` does not start with white space. -/
  starts : ∀ c ∈ s.head?, isWhite c = false
  /-- `s` does not end with white space. -/
  ends : ∀ c ∈ s.getLast?, isWhite c = false

theorem head?_of_dropWhile {p : Char → Bool} {s : List Char} (h : s.dropWhile p = s) :
    ∀ c ∈ s.head?, p c = false := by
  intro c hc
  have hnot := List.head?_dropWhile_not p s
  rw [h, Option.mem_def.mp hc] at hnot
  exact hnot

/-- Nothing is dropped from a text that starts with something else. -/
theorem dropWhile_append_of_head? {p : Char → Bool} {s : List Char} (back : List Char)
    (hs : s ≠ []) (h : ∀ c ∈ s.head?, p c = false) : (s ++ back).dropWhile p = s ++ back := by
  obtain ⟨c, rest, rfl⟩ := List.exists_cons_of_ne_nil hs
  rw [List.cons_append, List.dropWhile_cons_of_neg (by simp [h c rfl])]

theorem trimChars_of_strips {v s : List Char} (h : Strips v s) : trimChars v = s := by
  obtain ⟨⟨front, back, rfl, hfront, hback⟩, hstarts, hends⟩ := h
  rw [trimChars, dropWhileEnd, List.append_assoc, List.dropWhile_append_of_pos hfront]
  by_cases hs : s = []
  · have hnone : back.dropWhile isWhite = [] := List.dropWhile_eq_nil_iff.mpr hback
    rw [hs, List.nil_append, hnone]
    rfl
  · -- the same from the other end
    have hback' : ∀ c ∈ back.reverse, isWhite c = true := fun c hc =>
      hback c (List.mem_reverse.mp hc)
    have hends' : ∀ c ∈ s.reverse.head?, isWhite c = false := by rwa [List.head?_reverse]
    have hend := dropWhile_append_of_head? [] (mt List.reverse_eq_nil_iff.mp hs) hends'
    rw [List.append_nil] at hend
    rw [dropWhile_append_of_head? back hs hstarts, List.reverse_append,
      List.dropWhile_append_of_pos hback', hend, List.reverse_reverse]

theorem strips_trimChars (v : List Char) : Strips v (trimChars v) := by
  refine ⟨⟨v.takeWhile isWhite, (v.dropWhile isWhite).rtakeWhile isWhite, ?_,
    fun c hc => List.mem_takeWhile_imp hc, fun c hc => List.mem_rtakeWhile_imp hc⟩,
    head?_of_dropWhile (dropWhile_trimChars v), ?_⟩
  · have hend : trimChars v ++ (v.dropWhile isWhite).rtakeWhile isWhite = v.dropWhile isWhite :=
      List.rdropWhile_append_rtakeWhile
    rw [List.append_assoc, hend, List.takeWhile_append_dropWhile]
  · have hend : (trimChars v).reverse.dropWhile isWhite = (trimChars v).reverse := by
      rw [trimChars, dropWhileEnd, List.reverse_reverse, List.dropWhile_idempotent]
    rw [← List.head?_reverse]
    exact head?_of_dropWhile hend

/-- Trimming leaves what remains without the white space at the ends, and nothing else is that. -/
theorem strips_iff {v s : List Char} : Strips v s ↔ trimChars v = s :=
  ⟨trimChars_of_strips, fun h => h ▸ strips_trimChars v⟩

/-! ## Integers in decimal digits -/

/-- At least one decimal digit, and nothing else. -/
def IsNumeral (ds : List Char) : Prop := ds ≠ [] ∧ ∀ c ∈ ds, '0' ≤ c ∧ c ≤ '9'

/-- The number that decimal digits denote by their places. -/
def placeValue (ds : List Char) : Nat :=
  Nat.ofDigits 10 (ds.reverse.map fun c => c.toNat - '0'.toNat)

/-- An integer as it may be written: digits, with any number of zeros in front, behind a plus sign
or no sign, or behind a minus sign where there is one. -/
inductive IsInteger (signed : Bool) : List Char → Int → Prop
  | plain {ds : List Char} (h : IsNumeral ds) : IsInteger signed ds (placeValue ds)
  | plus {ds : List Char} (h : IsNumeral ds) : IsInteger signed ('+' :: ds) (placeValue ds)
  | minus {ds : List Char} (hsigned : signed = true) (h : IsNumeral ds) :
    IsInteger signed ('-' :: ds) (-placeValue ds)

theorem isDigits_iff {ds : List Char} : isDigits ds = true ↔ IsNumeral ds := by
  have hdigit (c : Char) : c.isDigit = true ↔ '0' ≤ c ∧ c ≤ '9' := by
    rw [Char.isDigit_iff_toNat, Char.le_def, Char.le_def, UInt32.le_iff_toNat_le,
      UInt32.le_iff_toNat_le]
    rfl
  simp [isDigits, IsNumeral, hdigit]

/-- The value that is computed digit by digit is the value by the places. -/
theorem digitsValue_eq (ds : List Char) : digitsValue ds = placeValue ds := by
  rw [placeValue, Nat.ofDigits_eq_foldr, List.foldr_map, List.foldr_reverse, digitsValue]
  simp only [Nat.cast_id, Nat.add_comm]

/-- A minus sign belongs to ranges that reach below zero. -/
theorem value?_eq_some_iff {r : IntRange} {s : List Char} {n : Int} :
    r.value? s = some n ↔ IsInteger (r.least < 0) s n := by
  constructor
  · intro h
    unfold IntRange.value? at h
    split at h
    · obtain ⟨hdigits, hn⟩ := Option.ite_none_right_eq_some.mp h
      rw [← Option.some.inj hn, digitsValue_eq]
      exact .plus (isDigits_iff.mp hdigits)
    · obtain ⟨hminus, hn⟩ := Option.ite_none_right_eq_some.mp h
      rw [Bool.and_eq_true] at hminus
      rw [← Option.some.inj hn, digitsValue_eq]
      exact .minus hminus.1 (isDigits_iff.mp hminus.2)
    · obtain ⟨hdigits, hn⟩ := Option.ite_none_right_eq_some.mp h
      rw [← Option.some.inj hn, digitsValue_eq]
      exact .plain (isDigits_iff.mp hdigits)
  · rintro (h | h | ⟨hsigned, h⟩)
    · rw [value?_of_isDigits r (isDigits_iff.mpr h), digitsValue_eq]
    · rw [IntRange.value?, if_pos (isDigits_iff.mpr h), digitsValue_eq]
    · rw [IntRange.value?, if_pos (by rw [hsigned, isDigits_iff.mpr h]; rfl), digitsValue_eq]

theorem IsInteger.mono {signed signed' : Bool} {s : List Char} {n : Int}
    (h : IsInteger signed s n) (hsigned : signed = true → signed' = true) :
    IsInteger signed' s n := by
  cases h with
  | plain h => exact .plain h
  | plus h => exact .plus h
  | minus hs h => exact .minus (hsigned hs) h

/-- Digits alone are a decimal number. -/
theorem isDecimal_of_isNumeral {ds : List Char} (h : IsNumeral ds) : isDecimal ds = true := by
  obtain ⟨hne, hall⟩ := Bool.and_eq_true_iff.mp (isDigits_iff.mpr h)
  rw [List.all_eq_true] at hall
  have hrest : ds.dropWhile Char.isDigit = [] := List.dropWhile_eq_nil_iff.mpr hall
  have hwhole : ds.takeWhile Char.isDigit = ds := List.takeWhile_eq_self_iff.mpr hall
  simp only [isDecimal, hrest, hwhole, hne, Bool.true_and]
  rfl

/-- An integer is a floating-point number. -/
theorem isFloatLiteral_of_isInteger {signed : Bool} {v : String} {n : Int}
    (h : IsInteger signed v.toList n) : isFloatLiteral v = true := by
  generalize hs : v.toList = s at h
  unfold isFloatLiteral
  rw [hs]
  cases h with
  | plain h =>
    have hdecimal := isDecimal_of_isNumeral h
    split
    · exact absurd (h.2 _ List.mem_cons_self).1 (by decide)
    · exact absurd (h.2 _ List.mem_cons_self).1 (by decide)
    · rw [hdecimal, Bool.true_or]
  | @plus ds h =>
    show (isDecimal ds || isSpecialWord ds) = true
    rw [isDecimal_of_isNumeral h, Bool.true_or]
  | @minus ds _ h =>
    show (isDecimal ds || isSpecialWord ds) = true
    rw [isDecimal_of_isNumeral h, Bool.true_or]

end Text

namespace Template.BasicType

/-! ## Values of integer types -/

variable {t t' : BasicType} {r r' : IntRange} {v : String}

theorem isNumericLiteral_iff (ht : t.range? = some r) : t.isNumericLiteral v = true ↔
    ∃ s n, Strips v.toList s ∧ IsInteger (r.least < 0) s n ∧ r.least ≤ n ∧ n ≤ r.greatest := by
  have hread : t.isNumericLiteral v = true ↔ ∃ n, IsInteger (r.least < 0) (trimChars v.toList) n ∧
      r.least ≤ n ∧ n ≤ r.greatest := by
    simp only [isNumericLiteral, ht, IntRange.parse?, trim, String.toList_ofList,
      Option.isSome_filter, Option.any_eq_true, value?_eq_some_iff, IntRange.holds,
      Bool.and_eq_true, decide_eq_true_eq]
  rw [hread]
  constructor
  · rintro ⟨n, hn⟩
    exact ⟨_, n, strips_trimChars v.toList, hn⟩
  · rintro ⟨s, n, hs, hn⟩
    exact ⟨n, strips_iff.mp hs ▸ hn⟩

/-- A literal of a range is one of every range around it. -/
theorem isNumericLiteral_mono (ht : t.range? = some r) (ht' : t'.range? = some r')
    (hleast : r'.least ≤ r.least) (hgreatest : r.greatest ≤ r'.greatest)
    (h : t.isNumericLiteral v = true) : t'.isNumericLiteral v = true := by
  obtain ⟨s, n, hs, hn, hlow, hhigh⟩ := (isNumericLiteral_iff ht).mp h
  refine (isNumericLiteral_iff ht').mpr ⟨s, n, hs, hn.mono fun hsigned => ?_, by omega, by omega⟩
  rw [decide_eq_true_eq] at hsigned ⊢
  omega

/-- A literal of a range is one of a floating-point number. -/
theorem isNumericLiteral_of_isFloat (ht : t.range? = some r) (hfloat : t'.isFloat = true)
    (h : t.isNumericLiteral v = true) : t'.isNumericLiteral v = true := by
  obtain ⟨s, n, hs, hn, -⟩ := (isNumericLiteral_iff ht).mp h
  have hnone : t'.range? = none := by
    cases t' <;> first | rfl | exact absurd hfloat Bool.false_ne_true
  have htrim : (trim v).toList = s := by rw [trim, String.toList_ofList, strips_iff.mp hs]
  rw [isNumericLiteral, hnone, hfloat, Bool.true_and]
  exact isFloatLiteral_of_isInteger (htrim ▸ hn)

/-- The types of integers with a sign, and their widths in bits. -/
def signedTypes : List (BasicType × Nat) := [(int8, 8), (int16, 16), (int32, 32), (int64, 64)]

/-- The types of integers without a sign, and their widths in bits. -/
def unsignedTypes : List (BasicType × Nat) :=
  [(int8u, 8), (int16u, 16), (int24u, 24), (int32u, 32)]

variable {w w' : Nat}

theorem range?_of_signed (h : (t, w) ∈ signedTypes) : t.range? = some (.signed w) := by
  simp only [signedTypes, List.mem_cons, Prod.mk.injEq, List.not_mem_nil, or_false] at h
  rcases h with ⟨rfl, rfl⟩ | ⟨rfl, rfl⟩ | ⟨rfl, rfl⟩ | ⟨rfl, rfl⟩ <;> rfl

theorem range?_of_unsigned (h : (t, w) ∈ unsignedTypes) : t.range? = some (.unsigned w) := by
  simp only [unsignedTypes, List.mem_cons, Prod.mk.injEq, List.not_mem_nil, or_false] at h
  rcases h with ⟨rfl, rfl⟩ | ⟨rfl, rfl⟩ | ⟨rfl, rfl⟩ | ⟨rfl, rfl⟩ <;> rfl

/-! ### Ranges by their widths -/

theorem least_signed (w : Nat) : (IntRange.signed w).least = -2 ^ (w - 1) := by
  show -((2 ^ (w - 1) : Nat) : Int) = _
  rw [Nat.cast_pow, Nat.cast_ofNat]

theorem greatest_signed (w : Nat) : (IntRange.signed w).greatest = 2 ^ (w - 1) - 1 := by
  show ((2 ^ (w - 1) : Nat) : Int) - 1 = _
  rw [Nat.cast_pow, Nat.cast_ofNat]

theorem greatest_unsigned (w : Nat) : (IntRange.unsigned w).greatest = 2 ^ w - 1 := by
  show ((2 ^ w : Nat) : Int) - 1 = _
  rw [Nat.cast_pow, Nat.cast_ofNat]

theorem isNumericLiteral_signed_iff (h : (t, w) ∈ signedTypes) : t.isNumericLiteral v = true ↔
    ∃ s n, Strips v.toList s ∧ IsInteger true s n ∧ -2 ^ (w - 1) ≤ n ∧ n ≤ 2 ^ (w - 1) - 1 := by
  have hneg : (IntRange.signed w).least < 0 := by
    rw [least_signed, neg_neg_iff_pos]
    exact pow_pos (by decide) _
  rw [isNumericLiteral_iff (range?_of_signed h), decide_eq_true hneg, least_signed,
    greatest_signed]

theorem isNumericLiteral_unsigned_iff (h : (t, w) ∈ unsignedTypes) :
    t.isNumericLiteral v = true ↔
      ∃ s n, Strips v.toList s ∧ IsInteger false s n ∧ 0 ≤ n ∧ n ≤ 2 ^ w - 1 := by
  rw [isNumericLiteral_iff (range?_of_unsigned h), greatest_unsigned]
  rfl

theorem isNumericLiteral_signed_mono (h : (t, w) ∈ signedTypes) (h' : (t', w') ∈ signedTypes)
    (hle : w ≤ w') (hv : t.isNumericLiteral v = true) : t'.isNumericLiteral v = true := by
  have hpow : (2 : Int) ^ (w - 1) ≤ 2 ^ (w' - 1) :=
    pow_le_pow_right₀ (by decide) (Nat.sub_le_sub_right hle 1)
  refine isNumericLiteral_mono (range?_of_signed h) (range?_of_signed h') ?_ ?_ hv
  · rw [least_signed, least_signed]
    omega
  · rw [greatest_signed, greatest_signed]
    omega

theorem isNumericLiteral_unsigned_mono (h : (t, w) ∈ unsignedTypes)
    (h' : (t', w') ∈ unsignedTypes) (hle : w ≤ w') (hv : t.isNumericLiteral v = true) :
    t'.isNumericLiteral v = true := by
  have hpow : (2 : Int) ^ w ≤ 2 ^ w' := pow_le_pow_right₀ (by decide) hle
  refine isNumericLiteral_mono (range?_of_unsigned h) (range?_of_unsigned h') (le_refl 0) ?_ hv
  rw [greatest_unsigned, greatest_unsigned]
  omega

end Template.BasicType

open BasicType

/-- **The values of an integer type are the integers in its range.** A value passes the check for a
type of `w` bits if and only if what remains of it without the white space around it is an integer
in decimal digits, with any number of zeros in front, and the number that it denotes lies in the
range of the type. A minus sign is for types with a sign, also in front of zero. So a value that
passes for a type passes for every wider type of its kind, and for floating-point numbers. -/
theorem integer_literals_decided :
    (∀ t w, (t, w) ∈ signedTypes → ∀ v, t.isNumericLiteral v = true ↔
      ∃ s n, Strips v.toList s ∧ IsInteger true s n ∧ -2 ^ (w - 1) ≤ n ∧ n ≤ 2 ^ (w - 1) - 1) ∧
    (∀ t w, (t, w) ∈ unsignedTypes → ∀ v, t.isNumericLiteral v = true ↔
      ∃ s n, Strips v.toList s ∧ IsInteger false s n ∧ 0 ≤ n ∧ n ≤ 2 ^ w - 1) ∧
    (∀ ts ∈ [signedTypes, unsignedTypes], ∀ t w t' w', (t, w) ∈ ts → (t', w') ∈ ts → w ≤ w' →
      ∀ v, t.isNumericLiteral v = true → t'.isNumericLiteral v = true) ∧
    ∀ t w, (t, w) ∈ signedTypes ++ unsignedTypes → ∀ v, t.isNumericLiteral v = true →
      float32.isNumericLiteral v = true ∧ float64.isNumericLiteral v = true := by
  refine ⟨fun t w h v => isNumericLiteral_signed_iff h,
    fun t w h v => isNumericLiteral_unsigned_iff h, ?_, fun t w h v hv => ?_⟩
  · simp only [List.forall_mem_cons, List.not_mem_nil, false_imp_iff, implies_true, and_true]
    exact ⟨fun t w t' w' h h' hle v => isNumericLiteral_signed_mono h h' hle,
      fun t w t' w' h h' hle v => isNumericLiteral_unsigned_mono h h' hle⟩
  · obtain ⟨r, hr⟩ : ∃ r, t.range? = some r := by
      rcases List.mem_append.mp h with h | h
      · exact ⟨_, range?_of_signed h⟩
      · exact ⟨_, range?_of_unsigned h⟩
    exact ⟨isNumericLiteral_of_isFloat hr rfl hv, isNumericLiteral_of_isFloat hr rfl hv⟩

/-- The least number of 8 bits with zeros in front, between blanks of two kinds, is a value of 8
bits, hence one of 64 bits and a floating-point number; the next one below is not. -/
theorem integer_literals_decided_least :
    (int8, 8) ∈ signedTypes ∧ (int64, 64) ∈ signedTypes ∧
    int8.isNumericLiteral "\u2003-00128\n" = true ∧ int64.isNumericLiteral "\u2003-00128\n" = true ∧
    float32.isNumericLiteral "\u2003-00128\n" = true ∧ int8.isNumericLiteral "-129" = false := by
  obtain ⟨hsigned, -, hwider, hfloat⟩ := integer_literals_decided
  have hstrips : Strips "\u2003-00128\n".toList "-00128".toList :=
    strips_iff.mpr (by decide +kernel)
  have hnumeral : IsNumeral "00128".toList := isDigits_iff.mp (by decide)
  have hleast : int8.isNumericLiteral "\u2003-00128\n" = true :=
    (hsigned int8 8 (by decide) _).mpr
      ⟨_, -128, hstrips, .minus rfl hnumeral, by decide, by decide⟩
  refine ⟨by decide, by decide, hleast, ?_, (hfloat int8 8 (by decide) _ hleast).1,
    by decide +kernel⟩
  exact hwider signedTypes List.mem_cons_self int8 8 int64 64 (by decide) (by decide) (by decide)
    _ hleast

end Substation
