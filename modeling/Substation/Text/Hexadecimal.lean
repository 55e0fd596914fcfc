/-!
# Hexadecimal digits

The digits, as characters (`is_hex`) and as the bytes of a text, and the two digits of a byte.
-/

namespace Substation.Text

/-- The bytes of a text in UTF-8. -/
def utf8Bytes (s : List Char) : List UInt8 :=
  s.flatMap String.utf8EncodeChar

/-- The value of a hexadecimal digit, given as the byte of its character. -/
def hexValue? (b : UInt8) : Option Nat :=
  let n := b.toNat
  if 0x30 ≤ n ∧ n ≤ 0x39 then some (n - 0x30)
  else if 0x41 ≤ n ∧ n ≤ 0x46 then some (n - 0x41 + 10)
  else if 0x61 ≤ n ∧ n ≤ 0x66 then some (n - 0x61 + 10)
  else none

/-- Whether a character is a hexadecimal digit. -/
def isHexDigit (c : Char) : Bool :=
  c.isDigit || ('a' ≤ c && c ≤ 'f') || ('A' ≤ c && c ≤ 'F')

/-- At least one hexadecimal digit, and nothing else (`is_hex`). -/
def isHex (s : String) : Bool :=
  !s.toList.isEmpty && s.toList.all isHexDigit

/-- The upper-case digit of a number below sixteen. -/
def hexDigit (n : Nat) : Char :=
  if n < 10 then Char.ofNat (0x30 + n) else Char.ofNat (0x41 + (n - 10))

/-- The numbers that the two digits of a byte stand for. -/
def halves (b : UInt8) : List Nat := [b.toNat / 16, b.toNat % 16]

theorem isHexDigit_hexDigit {n : Nat} (h : n < 16) : isHexDigit (hexDigit n) = true := by
  revert n
  decide +kernel

theorem lt_of_mem_halves {b : UInt8} {n : Nat} (h : n ∈ halves b) : n < 16 := by
  have hb : b.toNat < 256 := b.toNat_lt
  simp only [halves, List.mem_cons, List.not_mem_nil, or_false] at h
  omega

theorem lt_of_mem_flatMap_halves {bytes : List UInt8} {n : Nat} (h : n ∈ bytes.flatMap halves) :
    n < 16 := by
  obtain ⟨b, -, hn⟩ := List.mem_flatMap.mp h
  exact lt_of_mem_halves hn

theorem length_flatMap_halves (bytes : List UInt8) :
    (bytes.flatMap halves).length = 2 * bytes.length := by
  induction bytes with
  | nil => rfl
  | cons b bytes ih =>
    rw [List.flatMap_cons, List.length_append, ih, List.length_cons, halves]
    simp
    omega

end Substation.Text
