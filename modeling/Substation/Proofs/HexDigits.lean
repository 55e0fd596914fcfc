import Mathlib.Data.List.Basic
import Mathlib.Data.List.Induction
import Mathlib.Tactic.Common
import Substation.Text.HexCodec

/-!
# Hexadecimal digits

Characters are told to be digits one by one, and bytes are read two by two. Here the two are said in
terms of one alphabet: the bytes of a text are those of digits iff its characters are digits
(`forall_isHexByte_utf8Bytes`). A codec that reads an even number of bytes fails at the first one
that is not that of a digit (`HexCodec.decode_eq_badDigit_iff`), and otherwise gives what it writes
as the digits in upper case (`HexCodec.exists_decode`). What it writes, it reads again
(`HexCodec.decode_encodeUpper`).
-/

namespace Substation.Text

/-! ## Characters -/

/-- The hexadecimal digits, in both letter cases. -/
def hexAlphabet : List Char := "0123456789abcdefABCDEF".toList

/-- What holds of all ASCII characters holds of a character below 128. -/
theorem of_ascii {p : Char → Prop} (h : ∀ n < 128, p (Char.ofNat n)) {c : Char}
    (hc : c.toNat < 128) : p c := by
  rw [← Char.ofNat_toNat c]
  exact h c.toNat hc

theorem lt_of_isHexDigit {c : Char} (h : isHexDigit c = true) : c.toNat < 128 := by
  simp only [isHexDigit, Bool.or_eq_true, Bool.and_eq_true, Char.isDigit_iff_toNat,
    decide_eq_true_eq, Char.le_def, UInt32.le_iff_toNat_le] at h
  have hval : c.val.toNat = c.toNat := rfl
  simp only [hval] at h
  rcases h with (h | h) | h <;> simp at h <;> omega

theorem isHexDigit_iff {c : Char} : isHexDigit c = true ↔ c ∈ hexAlphabet := by
  constructor
  · intro h
    have hall : ∀ n < 128, isHexDigit (Char.ofNat n) = true → Char.ofNat n ∈ hexAlphabet := by
      decide +kernel
    exact of_ascii (p := fun c => isHexDigit c = true → c ∈ hexAlphabet) hall
      (lt_of_isHexDigit h) h
  · have hall : hexAlphabet.all isHexDigit = true := by decide +kernel
    exact List.all_eq_true.mp hall c

theorem lt_of_mem_hexAlphabet {c : Char} (h : c ∈ hexAlphabet) : c.toNat < 128 :=
  lt_of_isHexDigit (isHexDigit_iff.mpr h)

theorem toUpper_of_le {c : Char} (h : 128 ≤ c.toNat) : c.toUpper = c := by
  have hval : c.val.toNat = c.toNat := rfl
  refine dif_neg ?_
  rintro ⟨-, hle⟩
  rw [UInt32.le_iff_toNat_le, hval] at hle
  simp at hle
  omega

/-- No other characters become digits in upper case. -/
theorem mem_hexAlphabet_of_toUpper {c : Char} (h : c.toUpper ∈ hexAlphabet) : c ∈ hexAlphabet := by
  rcases Nat.lt_or_ge c.toNat 128 with hc | hc
  · have hall : ∀ n < 128, isHexDigit (Char.ofNat n).toUpper = true →
        isHexDigit (Char.ofNat n) = true := by
      decide +kernel
    rw [← isHexDigit_iff] at h ⊢
    exact of_ascii (p := fun c => isHexDigit c.toUpper = true → isHexDigit c = true) hall hc h
  · rwa [toUpper_of_le hc] at h

theorem toUpper_eq_dash_iff {c : Char} : c.toUpper = '-' ↔ c = '-' := by
  rcases Nat.lt_or_ge c.toNat 128 with hc | hc
  · have hall : ∀ n < 128, (Char.ofNat n).toUpper = '-' ↔ Char.ofNat n = '-' := by decide +kernel
    exact of_ascii (p := fun c => c.toUpper = '-' ↔ c = '-') hall hc
  · rw [toUpper_of_le hc]

/-! ## Bytes -/

/-- The byte is that of a hexadecimal digit. -/
def IsHexByte (b : UInt8) : Prop := Char.ofNat b.toNat ∈ hexAlphabet

instance : DecidablePred IsHexByte := fun _ => inferInstanceAs (Decidable (_ ∈ hexAlphabet))

/-- What holds of the first 256 numbers holds of a byte. -/
theorem of_byte {p : UInt8 → Prop} (h : ∀ n < 256, p (UInt8.ofNat n)) (b : UInt8) : p b := by
  rw [← UInt8.ofNat_toNat (x := b)]
  exact h b.toNat b.toNat_lt

theorem isHexByte_iff {b : UInt8} : IsHexByte b ↔ isHexDigit (Char.ofNat b.toNat) = true :=
  isHexDigit_iff.symm

theorem hexValue?_eq_none {b : UInt8} (h : ¬ IsHexByte b) : hexValue? b = none := by
  have hall : ∀ n < 256, ¬ isHexDigit (Char.ofNat (UInt8.ofNat n).toNat) = true →
      hexValue? (UInt8.ofNat n) = none := by
    decide +kernel
  rw [isHexByte_iff] at h
  exact of_byte (p := fun b => ¬ isHexDigit (Char.ofNat b.toNat) = true → hexValue? b = none)
    hall b h

/-- A digit has a value, and is written in upper case as that value. -/
theorem exists_hexValue? {b : UInt8} (h : IsHexByte b) :
    ∃ x < 16, hexValue? b = some x ∧ hexDigit x = (Char.ofNat b.toNat).toUpper := by
  have hall : ∀ n < 256, isHexDigit (Char.ofNat (UInt8.ofNat n).toNat) = true →
      ∃ x < 16, hexValue? (UInt8.ofNat n) = some x ∧
        hexDigit x = (Char.ofNat (UInt8.ofNat n).toNat).toUpper := by
    decide +kernel
  exact of_byte (p := fun b => isHexDigit (Char.ofNat b.toNat) = true →
    ∃ x < 16, hexValue? b = some x ∧ hexDigit x = (Char.ofNat b.toNat).toUpper) hall b
    (isHexByte_iff.mp h)

theorem utf8EncodeChar_of_lt {c : Char} (h : c.toNat < 128) :
    String.utf8EncodeChar c = [UInt8.ofNat c.toNat] := by
  have hval : c.val.toNat = c.toNat := rfl
  rw [String.utf8EncodeChar, hval]
  exact if_pos (by omega)

/-- The first byte of another character is none of an ASCII character. -/
theorem exists_high_byte {c : Char} (h : 128 ≤ c.toNat) :
    ∃ b ∈ String.utf8EncodeChar c, 128 ≤ b.toNat := by
  have hval : c.val.toNat = c.toNat := rfl
  simp only [String.utf8EncodeChar, hval]
  rw [if_neg (by omega)]
  split
  · exact ⟨_, List.mem_cons_self, by simp; omega⟩
  · split
    · exact ⟨_, List.mem_cons_self, by simp; omega⟩
    · exact ⟨_, List.mem_cons_self, by simp; omega⟩

theorem ofNat_toNat_byte {c : Char} (h : c.toNat < 128) :
    Char.ofNat (UInt8.ofNat c.toNat).toNat = c := by
  rw [UInt8.toNat_ofNat_of_lt' (by simp [UInt8.size]; omega), Char.ofNat_toNat]

theorem lt_of_isHexByte {b : UInt8} (h : IsHexByte b) : b.toNat < 128 := by
  have hall : ∀ n < 256, isHexDigit (Char.ofNat (UInt8.ofNat n).toNat) = true →
      (UInt8.ofNat n).toNat < 128 := by
    decide +kernel
  exact of_byte (p := fun b => isHexDigit (Char.ofNat b.toNat) = true → b.toNat < 128) hall b
    (isHexByte_iff.mp h)

theorem forall_isHexByte_utf8EncodeChar {c : Char} :
    (∀ b ∈ String.utf8EncodeChar c, IsHexByte b) ↔ c ∈ hexAlphabet := by
  rcases Nat.lt_or_ge c.toNat 128 with hc | hc
  · rw [utf8EncodeChar_of_lt hc, List.forall_mem_singleton, IsHexByte, ofNat_toNat_byte hc]
  · constructor
    · intro h
      obtain ⟨b, hb, hhigh⟩ := exists_high_byte hc
      exact absurd (lt_of_isHexByte (h b hb)) (Nat.not_lt.mpr hhigh)
    · exact fun h => absurd (lt_of_mem_hexAlphabet h) (Nat.not_lt.mpr hc)

/-- The bytes of a text are those of digits iff its characters are digits. -/
theorem forall_isHexByte_utf8Bytes {s : List Char} :
    (∀ b ∈ utf8Bytes s, IsHexByte b) ↔ ∀ c ∈ s, c ∈ hexAlphabet := by
  simp only [utf8Bytes, List.mem_flatMap, forall_exists_index, and_imp,
    ← forall_isHexByte_utf8EncodeChar]
  exact ⟨fun h c hc b hb => h b c hc hb, fun h b c hc hb => h c hc b hb⟩

theorem map_utf8Bytes {s : List Char} (h : ∀ c ∈ s, c ∈ hexAlphabet) :
    (utf8Bytes s).map (fun b => Char.ofNat b.toNat) = s := by
  induction s with
  | nil => rfl
  | cons c s ih =>
    obtain ⟨hc, hs⟩ := List.forall_mem_cons.mp h
    have hlt := lt_of_mem_hexAlphabet hc
    rw [utf8Bytes, List.flatMap_cons, utf8EncodeChar_of_lt hlt, List.map_append, List.map_singleton,
      ofNat_toNat_byte hlt]
    exact congrArg (c :: ·) (ih hs)

theorem utf8ByteSize_eq (s : String) : s.utf8ByteSize = (utf8Bytes s.toList).length := by
  rw [← String.size_toByteArray]
  conv_lhs => rw [← String.ofList_toList (s := s)]
  rw [String.toByteArray_ofList, List.utf8Encode, List.size_toByteArray]
  rfl

/-- Digits have one byte each. -/
theorem length_utf8Bytes {s : List Char} (h : ∀ c ∈ s, c ∈ hexAlphabet) :
    (utf8Bytes s).length = s.length := by
  conv_rhs => rw [← map_utf8Bytes h]
  rw [List.length_map]

/-! ## Bad bytes -/

/-- The first byte that is not that of a digit, and how many bytes stand before it. -/
def IsFirstBad (l : List UInt8) (bad : BadDigit) : Prop :=
  ∃ good rest, l = good ++ bad.byte :: rest ∧ good.length = bad.position ∧
    (∀ b ∈ good, IsHexByte b) ∧ ¬ IsHexByte bad.byte

theorem IsFirstBad.cons {l : List UInt8} {bad : BadDigit} {b : UInt8} (hb : IsHexByte b)
    (h : IsFirstBad l bad) : IsFirstBad (b :: l) ⟨bad.byte, bad.position + 1⟩ := by
  obtain ⟨good, rest, rfl, hposition, hgood, hbad⟩ := h
  refine ⟨b :: good, rest, rfl, ?_, List.forall_mem_cons.mpr ⟨hb, hgood⟩, hbad⟩
  rw [List.length_cons, hposition]

theorem exists_isFirstBad_iff {l : List UInt8} :
    (∃ bad, IsFirstBad l bad) ↔ ∃ b ∈ l, ¬ IsHexByte b := by
  constructor
  · rintro ⟨bad, good, rest, rfl, -, -, hbad⟩
    exact ⟨bad.byte, List.mem_append_right _ List.mem_cons_self, hbad⟩
  · rintro ⟨b, hb, hbad⟩
    induction l with
    | nil => cases hb
    | cons c l ih =>
      by_cases hc : IsHexByte c
      · have hne : b ≠ c := fun h => hbad (h ▸ hc)
        obtain ⟨bad, hfirst⟩ := ih (List.mem_of_ne_of_mem hne hb)
        exact ⟨_, hfirst.cons hc⟩
      · exact ⟨⟨c, 0⟩, [], l, rfl, rfl, List.forall_mem_nil _, hc⟩

/-! ## Pairs of digits -/

theorem map_hexValue?_utf8Bytes {ns : List Nat} (h : ∀ n ∈ ns, n < 16) :
    (utf8Bytes (ns.map hexDigit)).map hexValue? = ns.map some := by
  have hdigit : ∀ n < 16, (String.utf8EncodeChar (hexDigit n)).map hexValue? = [some n] := by
    decide +kernel
  rw [utf8Bytes, List.flatMap_map, List.map_flatMap, List.map_eq_flatMap]
  exact List.flatMap_congr fun n hn => hdigit n (h n hn)

/-- An even number of digits stands for the halves of some bytes. In upper case they are the digits
of these halves. -/
theorem exists_halves {l : List UInt8} (heven : l.length % 2 = 0) (h : ∀ b ∈ l, IsHexByte b) :
    ∃ bytes : List UInt8, l.map hexValue? = (bytes.flatMap halves).map some ∧
      (bytes.flatMap halves).map hexDigit = l.map fun b => (Char.ofNat b.toNat).toUpper := by
  induction l using List.twoStepInduction with
  | nil => exact ⟨[], rfl, rfl⟩
  | singleton x => simp at heven
  | cons_cons x y l ih _ =>
    obtain ⟨hx, hrest⟩ := List.forall_mem_cons.mp h
    obtain ⟨hy, hl⟩ := List.forall_mem_cons.mp hrest
    obtain ⟨v, hv16, hv, hupper⟩ := exists_hexValue? hx
    obtain ⟨w, hw16, hw, hupper'⟩ := exists_hexValue? hy
    simp only [List.length_cons] at heven
    obtain ⟨bytes, hvalues, htext⟩ := ih (by omega) hl
    have hnat : (UInt8.ofNat (16 * v + w)).toNat = 16 * v + w :=
      UInt8.toNat_ofNat_of_lt' (by simp [UInt8.size]; omega)
    have hhalves : halves (UInt8.ofNat (16 * v + w)) = [v, w] := by
      rw [halves, hnat, Nat.mul_add_div (by decide), Nat.div_eq_of_lt hw16, Nat.mul_add_mod,
        Nat.mod_eq_of_lt hw16, Nat.add_zero]
    refine ⟨UInt8.ofNat (16 * v + w) :: bytes, ?_, ?_⟩
    · rw [List.flatMap_cons, hhalves, List.map_cons, List.map_cons, hv, hw, hvalues]
      rfl
    · rw [List.flatMap_cons, hhalves, List.map_append, htext, List.map_cons, List.map_cons,
        hupper, hupper']
      rfl

/-! ## What a codec reads -/

namespace HexCodec

variable {codec : HexCodec} {s : String} {bytes : List UInt8}

/-- Reading fails at the first bad byte. -/
theorem decode_of_isFirstBad {bad : BadDigit} (heven : (utf8Bytes s.toList).length % 2 = 0)
    (h : IsFirstBad (utf8Bytes s.toList) bad) : codec.decode s = .error (.badDigit bad) := by
  obtain ⟨good, rest, hbytes, hposition, hgood, hbad⟩ := h
  rw [codec.decode_of_bad s good bad.byte rest heven hbytes (fun x hx => ?_)
    (hexValue?_eq_none hbad), hposition]
  obtain ⟨v, -, hv, -⟩ := exists_hexValue? (hgood x hx)
  rw [hv]
  rfl

/-- Reading an even number of digits gives what is written as these digits in upper case. -/
theorem exists_decode (heven : (utf8Bytes s.toList).length % 2 = 0)
    (h : ∀ c ∈ s.toList, c ∈ hexAlphabet) : ∃ bytes, codec.decode s = .ok bytes ∧
      (codec.encodeUpper bytes).toList = s.toList.map Char.toUpper := by
  obtain ⟨bytes, hvalues, htext⟩ := exists_halves heven (forall_isHexByte_utf8Bytes.mpr h)
  refine ⟨bytes, codec.decode_of_pairs s bytes hvalues, ?_⟩
  rw [codec.encodeUpper_eq, String.toList_ofList, htext]
  conv_rhs => rw [← map_utf8Bytes h]
  rw [List.map_map]
  rfl

/-- An even number of bytes is read, or one of them is bad. -/
theorem exists_decode_or (codec : HexCodec) (heven : (utf8Bytes s.toList).length % 2 = 0) :
    (∃ bytes, codec.decode s = .ok bytes ∧
      (codec.encodeUpper bytes).toList = s.toList.map Char.toUpper ∧
      ∀ b ∈ utf8Bytes s.toList, IsHexByte b) ∨
    ∃ bad, codec.decode s = .error (.badDigit bad) ∧ IsFirstBad (utf8Bytes s.toList) bad := by
  by_cases hall : ∀ b ∈ utf8Bytes s.toList, IsHexByte b
  · obtain ⟨bytes, hbytes, htext⟩ := exists_decode heven (forall_isHexByte_utf8Bytes.mp hall)
    exact Or.inl ⟨bytes, hbytes, htext, hall⟩
  · obtain ⟨bad, hbad⟩ := exists_isFirstBad_iff.mpr (by push Not at hall; exact hall)
    exact Or.inr ⟨bad, decode_of_isFirstBad heven hbad, hbad⟩

theorem decode_eq_badDigit_iff {bad : BadDigit} (heven : (utf8Bytes s.toList).length % 2 = 0) :
    codec.decode s = .error (.badDigit bad) ↔ IsFirstBad (utf8Bytes s.toList) bad := by
  refine ⟨fun h => ?_, decode_of_isFirstBad heven⟩
  rcases codec.exists_decode_or heven with ⟨bytes, hbytes, -⟩ | ⟨bad', hbad', hfirst⟩
  · exact nomatch hbytes.symm.trans h
  · cases hbad'.symm.trans h
    exact hfirst

/-- Only digits are read, and written as they are in upper case. -/
theorem of_decode (heven : (utf8Bytes s.toList).length % 2 = 0) (h : codec.decode s = .ok bytes) :
    (codec.encodeUpper bytes).toList = s.toList.map Char.toUpper ∧
      ∀ b ∈ utf8Bytes s.toList, IsHexByte b := by
  rcases codec.exists_decode_or heven with ⟨bytes', hbytes', htext, hall⟩ | ⟨bad, hbad, -⟩
  · cases hbytes'.symm.trans h
    exact ⟨htext, hall⟩
  · exact nomatch hbad.symm.trans h

/-! ## What a codec writes -/

theorem length_encodeUpper (codec : HexCodec) (bytes : List UInt8) :
    (codec.encodeUpper bytes).toList.length = 2 * bytes.length := by
  rw [codec.encodeUpper_eq, String.toList_ofList, List.length_map, length_flatMap_halves]

/-- What is written is read again. -/
theorem decode_encodeUpper (codec : HexCodec) (bytes : List UInt8) :
    codec.decode (codec.encodeUpper bytes) = .ok bytes := by
  refine codec.decode_of_pairs _ _ ?_
  rw [codec.encodeUpper_eq, String.toList_ofList]
  exact map_hexValue?_utf8Bytes fun _ => lt_of_mem_flatMap_halves

theorem encodeUpper_injective (codec : HexCodec) : Function.Injective codec.encodeUpper := by
  intro bytes bytes' h
  have hread := codec.decode_encodeUpper bytes
  rw [h, codec.decode_encodeUpper bytes'] at hread
  cases hread
  rfl

end HexCodec

end Substation.Text
