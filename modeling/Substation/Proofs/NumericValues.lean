import Mathlib.Data.List.TakeWhile
import Mathlib.Tactic.Common
import Mathlib.Tactic.FinCases
import Substation.Emission.Literal
import Substation.Proofs.EnumValues
import Substation.Proofs.Numerals

/-!
# Values of numeric attributes

A number is written as it is configured. The check looks at the value without the white space around
it, so a value that passes is a literal of its type that may have white space at its two ends, and
has none in between (`number_written`). Numbers of 24 bits are written like the others but are not
checked at all.

Results:
* `number_written` (`validate_numeric`, `encode_value`): which numbers pass, and how they are
  written;
* `number_written_unchecked`: a number that passes and is no literal.
-/

namespace Substation

open Substation.Emission
open Substation.Model
open Substation.Template
open Substation.Text

/-! ## Literals have no white space in them -/

namespace Text

/-- No character is white space. -/
def Solid (s : List Char) : Prop := ∀ c ∈ s, isWhite c = false

instance : DecidablePred Solid := List.decidableBAll fun c => isWhite c = false

theorem Solid.append {s t : List Char} (hs : Solid s) (ht : Solid t) : Solid (s ++ t) :=
  fun c hc => (List.mem_append.mp hc).elim (hs c) (ht c)

theorem Solid.cons {c : Char} {s : List Char} (hc : isWhite c = false) (hs : Solid s) :
    Solid (c :: s) :=
  List.forall_mem_cons.mpr ⟨hc, hs⟩

theorem solid_of_isDigit {s : List Char} (h : ∀ c ∈ s, c.isDigit = true) : Solid s :=
  fun c hc => isWhite_of_isNumeric (isNumeric_of_isDigit (h c hc))

theorem solid_of_isDigits {s : List Char} (h : isDigits s = true) : Solid s := by
  rw [isDigits, Bool.and_eq_true, List.all_eq_true] at h
  exact solid_of_isDigit h.2

theorem solid_takeWhile_isDigit (s : List Char) : Solid (s.takeWhile Char.isDigit) :=
  solid_of_isDigit fun _ hc => List.mem_takeWhile_imp hc

theorem solid_of_value? {r : IntRange} {s : List Char} {n : Int} (h : r.value? s = some n) :
    Solid s := by
  unfold IntRange.value? at h
  split at h
  · exact .cons (by decide) (solid_of_isDigits (Option.ite_none_right_eq_some.mp h).1)
  · have hdigits := (Option.ite_none_right_eq_some.mp h).1
    rw [Bool.and_eq_true] at hdigits
    exact .cons (by decide) (solid_of_isDigits hdigits.2)
  · exact solid_of_isDigits (Option.ite_none_right_eq_some.mp h).1

theorem solid_of_isExponent {s : List Char} (h : isDecimal.isExponent s = true) : Solid s := by
  unfold isDecimal.isExponent at h
  split at h
  · exact fun c hc => absurd hc List.not_mem_nil
  · next c rest =>
    rw [Bool.and_eq_true, Bool.or_eq_true, beq_iff_eq, beq_iff_eq] at h
    obtain ⟨hc, hrest⟩ := h
    refine .cons (by rcases hc with rfl | rfl <;> decide) ?_
    split at hrest
    · exact .cons (by decide) (solid_of_isDigits hrest)
    · exact .cons (by decide) (solid_of_isDigits hrest)
    · exact solid_of_isDigits hrest

theorem solid_of_isDecimal {s : List Char} (h : isDecimal s = true) : Solid s := by
  rw [← List.takeWhile_append_dropWhile (p := Char.isDigit) (l := s)]
  refine (solid_takeWhile_isDigit s).append ?_
  unfold isDecimal at h
  simp only at h
  split at h
  · next more hmore =>
    rw [hmore, ← List.takeWhile_append_dropWhile (p := Char.isDigit) (l := more)]
    rw [Bool.and_eq_true] at h
    exact .cons (by decide) ((solid_takeWhile_isDigit more).append (solid_of_isExponent h.2))
  · rw [Bool.and_eq_true] at h
    exact solid_of_isExponent h.2

/-- White space is the same in both letter cases. -/
theorem toLower_of_isWhite {c : Char} (h : isWhite c = true) : c.toLower = c := by
  have hval : c.val.toNat = c.toNat := rfl
  simp only [isWhite, Bool.or_eq_true, Bool.and_eq_true, decide_eq_true_eq, beq_iff_eq] at h
  refine dif_neg ?_
  simp only [ge_iff_le, UInt32.le_iff_toNat_le, hval, Char.reduceVal, UInt32.reduceToNat]
  omega

theorem solid_of_isSpecialWord {s : List Char} (h : isSpecialWord s = true) : Solid s := by
  have hwords : ∀ w ∈ ["inf".toList, "infinity".toList, "nan".toList], Solid w := by decide
  have hword : s.map Char.toLower ∈ ["inf".toList, "infinity".toList, "nan".toList] := by
    simpa [isSpecialWord, or_assoc] using h
  intro c hc
  by_contra hwhite
  rw [Bool.not_eq_false] at hwhite
  have hlower := hwords _ hword c.toLower (List.mem_map_of_mem hc)
  rw [toLower_of_isWhite hwhite, hwhite] at hlower
  exact Bool.noConfusion hlower

theorem solid_of_isFloatLiteral {v : String} (h : isFloatLiteral v = true) : Solid v.toList := by
  have hplain : ∀ s : List Char, (isDecimal s || isSpecialWord s) = true → Solid s := fun s hs =>
    (Bool.or_eq_true _ _ ▸ hs).elim solid_of_isDecimal solid_of_isSpecialWord
  unfold isFloatLiteral at h
  split at h
  · next r hr => exact hr ▸ .cons (by decide) (hplain r h)
  · next r hr => exact hr ▸ .cons (by decide) (hplain r h)
  · exact hplain _ h

/-- What has no white space is not changed by trimming. -/
theorem Solid.trim_eq {v : String} (h : Solid v.toList) : trim v = v := by
  have hstart : v.toList.dropWhile isWhite = v.toList :=
    List.dropWhile_eq_self_iff.mpr fun hpos => by simp [h _ (List.getElem_mem hpos)]
  have hend : v.toList.rdropWhile isWhite = v.toList :=
    List.rdropWhile_eq_self_iff.mpr fun hne => by simp [h _ (List.getLast_mem hne)]
  rw [trim, trimChars, hstart]
  exact (congrArg String.ofList hend).trans String.ofList_toList

end Text

namespace Template

/-- A literal of a numeric type has no white space but at its ends. -/
theorem BasicType.solid_trim {t : BasicType} {v : String} (h : t.isNumericLiteral v = true) :
    Solid (trim v).toList := by
  unfold isNumericLiteral at h
  split at h
  · obtain ⟨n, hn⟩ := Option.isSome_iff_exists.mp h
    exact solid_of_value? (Option.filter_eq_some_iff.mp hn).1
  · rw [Bool.and_eq_true] at h
    exact solid_of_isFloatLiteral h.2

theorem BasicType.isNumericLiteral_trim (t : BasicType) (v : String) :
    t.isNumericLiteral (trim v) = t.isNumericLiteral v := by
  unfold isNumericLiteral
  rw [trim_trim]

end Template

/-! ## Checked values and written values -/

/-- The types whose values are written as they are configured. -/
def Template.BasicType.numbers : List BasicType :=
  [.int8, .int16, .int32, .int64, .int8u, .int16u, .int24u, .int32u, .float32, .float64]

variable {a : AttributeDef}

theorem literal?_of_number (ha : a.type ∈ BasicType.numbers) (r : Registry) (v : String) :
    literal? r a v = some v := by
  unfold literal?
  generalize a.type = t at ha ⊢
  fin_cases ha <;> rfl

/-- A number passes the check if it is a literal of its type, or if it is one of 24 bits. -/
theorem valueFault?_eq_none_iff_of_number (ha : a.type ∈ BasicType.numbers) (r : Registry)
    (v : String) :
    valueFault? r a v = none ↔ a.type = .int24u ∨ a.type.isNumericLiteral v = true := by
  have hform : a.type.hasForm v = true ↔ a.type = .int24u ∨ a.type.isNumericLiteral v = true := by
    generalize a.type = t at ha ⊢
    fin_cases ha <;> simp [BasicType.hasForm]
  have hnumber : a.type ≠ .enumerated := fun henum => by
    rw [henum] at ha
    exact absurd ha (by decide)
  rw [← hform, valueFault?, if_neg hnumber]
  by_cases hv : a.type.hasForm v = true <;> simp [hv]

/-- **A number is written as it is configured, and one that passes the check has no white space but
at its ends.** The findings about a number of more or fewer than 24 bits are empty exactly if all
its values are literals of the type. Such a literal is still one without the white space at its
ends, and no white space is left in it then; a number of 24 bits is not checked. -/
theorem number_written {leaf : Branch} {fc : Constraint} (hkind : leaf.node.kind = .leaf fc a)
    (ha : a.type ∈ BasicType.numbers) (r : Registry) :
    (∀ v, literal? r a v = some v) ∧
    (∀ dai, valueFindings r leaf dai = [] ↔
      a.type = .int24u ∨ ∀ v ∈ dai.values, a.type.isNumericLiteral v.text = true) ∧
    ∀ v, a.type.isNumericLiteral v = true →
      a.type.isNumericLiteral (trim v) = true ∧ Solid (trim v).toList ∧
        (Solid v.toList ↔ trim v = v) := by
  refine ⟨literal?_of_number ha r, fun dai => ?_, fun v hv => ?_⟩
  · simp only [valueFindings_eq_nil_iff hkind, valueFault?_eq_none_iff_of_number ha, forall_or_left]
  · have hsolid : Solid (trim v).toList := BasicType.solid_trim hv
    refine ⟨(a.type.isNumericLiteral_trim v).trans hv, hsolid, Solid.trim_eq, fun htrim => ?_⟩
    rwa [htrim] at hsolid

/-- An attribute with a number of 32 bits. -/
def countDef : AttributeDef := ⟨"actVal", .st, .int32, none, 0, {}, none, []⟩

/-- An attribute with a number of 24 bits. -/
def fractionDef : AttributeDef := ⟨"fraction", .st, .int24u, none, 0, {}, none, []⟩

/-- A node for the first of them. -/
def countLeaf : Branch :=
  .mk 3 ⟨"actVal", "ELD/GGIO1.Cnt.actVal", some 2, [], .leaf .st countDef⟩ []

/-- Of three numbers the check reports the one that does not fit into 32 bits. A number between
blanks passes it, is written with the blanks, and is one without them. -/
theorem number_written_between_blanks :
    countLeaf.node.kind = .leaf .st countDef ∧ countDef.type ∈ BasicType.numbers ∧
    literal? {} countDef " 42 " = some " 42 " ∧
    valueFindings {} countLeaf ⟨"actVal", none, none, [⟨none, " 42 "⟩, ⟨none, "-7"⟩]⟩ = [] ∧
    valueFindings {} countLeaf ⟨"actVal", none, none, [⟨none, "7"⟩, ⟨none, "2147483648"⟩]⟩ ≠ [] ∧
    Solid (trim " 42 ").toList ∧ ¬ Solid " 42 ".toList := by
  obtain ⟨hwritten, hfindings, hsolid⟩ :=
    @number_written countDef countLeaf .st rfl (by decide) {}
  have hblanks := hsolid " 42 " (by decide +kernel)
  refine ⟨rfl, by decide, hwritten _, (hfindings _).mpr (.inr (by decide +kernel)), fun h => ?_,
    hblanks.2.1, fun h => ?_⟩
  · exact absurd ((hfindings _).mp h) (by decide +kernel)
  · exact absurd (hblanks.2.2.mp h) (by decide +kernel)

/-- What passes the check need not be a literal of its type when it is written, since a number of 24
bits is not looked at, and a literal that passes may be written with white space. -/
theorem number_written_unchecked :
    (¬ ∀ (r : Registry) (a : AttributeDef), a.type ∈ BasicType.numbers → ∀ v,
      valueFault? r a v = none → ∀ w, literal? r a v = some w → a.type.isNumericLiteral w = true) ∧
    ¬ ∀ (r : Registry) (a : AttributeDef), a.type ∈ BasicType.numbers → ∀ v,
      valueFault? r a v = none → ∀ w, literal? r a v = some w → Solid w.toList := by
  constructor
  · intro h
    have hword := h {} fractionDef (by decide) "abc" (by decide +kernel) "abc" rfl
    exact absurd hword (by decide +kernel)
  · intro h
    have hblanks := h {} countDef (by decide) " 42 " (by decide +kernel) " 42 " rfl
    exact absurd hblanks (by decide +kernel)

end Substation
