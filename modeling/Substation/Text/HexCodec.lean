import Substation.Text.Hexadecimal
import Substation.Text.Quoted

/-!
# Codecs for pairs of hexadecimal digits

How bytes are read from pairs of digits, and written as such, is left to a codec. `HexCodec` holds
its two functions and what is documented of them: an odd number of bytes is refused, and so is the
first byte that is not that of a digit; pairs of digits in any letter case are read; and what is
written are pairs of digits in upper case. `HexCodec.standard` is a codec that computes.
-/

namespace Substation.Text

/-- A byte that is no hexadecimal digit, and its place. -/
structure BadDigit where
  /-- The byte. -/
  byte : UInt8
  /-- How many bytes come before it. -/
  position : Nat
deriving DecidableEq, Repr

/-- Why a text does not consist of pairs of digits. -/
inductive HexFault where
  /-- The number of bytes is odd. -/
  | oddLength
  /-- A byte is no digit. -/
  | badDigit (bad : BadDigit)
deriving DecidableEq, Repr

/-- The explanation. -/
def HexFault.message : HexFault → String
  | oddLength => "Odd number of digits"
  | badDigit bad =>
    "Invalid character " ++ quotedAlone (Char.ofNat bad.byte.toNat) ++ " at position " ++
      toString bad.position

/-- A codec for pairs of digits, with what is documented of it. -/
structure HexCodec where
  /-- Reads the bytes that pairs of digits stand for (`decode`). -/
  decode : String → Except HexFault (List UInt8)
  /-- Writes bytes as pairs of digits (`encode_upper`). -/
  encodeUpper : List UInt8 → String
  /-- Two digits correspond to one byte, so an odd number of bytes is refused. -/
  decode_of_odd : ∀ s, (utf8Bytes s.toList).length % 2 = 1 → decode s = .error .oddLength
  /-- Of an even number of bytes, the first one that is no digit is refused. -/
  decode_of_bad : ∀ s good b rest, (utf8Bytes s.toList).length % 2 = 0 →
    utf8Bytes s.toList = good ++ b :: rest → (∀ x ∈ good, (hexValue? x).isSome) →
    hexValue? b = none → decode s = .error (.badDigit ⟨b, good.length⟩)
  /-- Pairs of digits in any letter case stand for the bytes of which they are the two halves. -/
  decode_of_pairs : ∀ s bytes,
    (utf8Bytes s.toList).map hexValue? = (bytes.flatMap halves).map some → decode s = .ok bytes
  /-- Each byte is written as two upper-case digits. -/
  encodeUpper_eq : ∀ bytes,
    encodeUpper bytes = String.ofList ((bytes.flatMap halves).map hexDigit)

/-- A text of hexadecimal digits. -/
@[ext] structure HexString where
  /-- The text. -/
  text : String
  /-- It holds digits only. -/
  isHexDigit_of_mem : ∀ c ∈ text.toList, isHexDigit c = true
deriving DecidableEq, Repr

/-- The text, if it holds digits only. -/
def HexString.ofText? (s : String) : Option HexString :=
  if h : s.toList.all isHexDigit = true then some ⟨s, List.all_eq_true.mp h⟩ else none

@[simp] theorem HexString.ofText?_text (s : HexString) : ofText? s.text = some s :=
  dif_pos (List.all_eq_true.mpr s.isHexDigit_of_mem)

namespace HexCodec

theorem isHexDigit_of_mem_encodeUpper (codec : HexCodec) {bytes : List UInt8} {c : Char}
    (h : c ∈ (codec.encodeUpper bytes).toList) : isHexDigit c = true := by
  rw [encodeUpper_eq, String.toList_ofList, List.mem_map] at h
  obtain ⟨n, hn, rfl⟩ := h
  exact isHexDigit_hexDigit (lt_of_mem_flatMap_halves hn)

/-- Bytes as a text of upper-case digits. -/
def encoded (codec : HexCodec) (bytes : List UInt8) : HexString :=
  ⟨codec.encodeUpper bytes, fun _ => codec.isHexDigit_of_mem_encodeUpper⟩

/-! ## A codec that computes -/

/-- The bytes of which numbers are the two halves; a last number without another one is left out. -/
def joinPairs : List Nat → List UInt8
  | x :: y :: rest => UInt8.ofNat (16 * x + y) :: joinPairs rest
  | _ => []

theorem joinPairs_flatMap_halves (bytes : List UInt8) :
    joinPairs (bytes.flatMap halves) = bytes := by
  induction bytes with
  | nil => rfl
  | cons b bytes ih =>
    rw [List.flatMap_cons, halves, List.cons_append, List.cons_append, List.nil_append, joinPairs,
      ih, Nat.div_add_mod, UInt8.ofNat_toNat]

/-- The first byte that is no digit. -/
def firstBad? (bytes : List UInt8) : Option BadDigit :=
  (bytes.zipIdx.find? fun (b, _) => (hexValue? b).isNone).map fun (b, position) => ⟨b, position⟩

/-- Reads the digits of a text one by one and joins them in pairs. -/
def standardDecode (s : String) : Except HexFault (List UInt8) :=
  let bytes := utf8Bytes s.toList
  if bytes.length % 2 = 1 then .error .oddLength
  else match firstBad? bytes with
    | some bad => .error (.badDigit bad)
    | none => .ok (joinPairs (bytes.filterMap hexValue?))

theorem firstBad?_append {good rest : List UInt8} {b : UInt8}
    (hgood : ∀ x ∈ good, (hexValue? x).isSome) (hb : hexValue? b = none) :
    firstBad? (good ++ b :: rest) = some ⟨b, good.length⟩ := by
  have hnone : good.zipIdx.find? (fun (x, _) => (hexValue? x).isNone) = none := by
    refine List.find?_eq_none.mpr fun p hp => ?_
    simp [Option.isSome_iff_ne_none.mp (hgood p.1 (List.fst_mem_of_mem_zipIdx hp))]
  rw [firstBad?, List.zipIdx_append, List.find?_append, hnone, List.zipIdx_cons]
  simp [hb]

theorem firstBad?_eq_none {bytes : List UInt8} (h : ∀ x ∈ bytes, (hexValue? x).isSome) :
    firstBad? bytes = none := by
  rw [firstBad?, Option.map_eq_none_iff]
  refine List.find?_eq_none.mpr fun p hp => ?_
  simp [Option.isSome_iff_ne_none.mp (h p.1 (List.fst_mem_of_mem_zipIdx hp))]

theorem filterMap_hexValue? {bytes : List UInt8} {ns : List Nat}
    (h : bytes.map hexValue? = ns.map some) : bytes.filterMap hexValue? = ns := by
  have hvalues : (bytes.map hexValue?).filterMap id = bytes.filterMap hexValue? := by
    rw [List.filterMap_map]
    rfl
  rw [← hvalues, h, List.filterMap_map]
  exact List.filterMap_some

theorem isSome_hexValue? {bytes : List UInt8} {ns : List Nat}
    (h : bytes.map hexValue? = ns.map some) : ∀ x ∈ bytes, (hexValue? x).isSome := by
  intro x hx
  have hmem : hexValue? x ∈ ns.map some := h ▸ List.mem_map_of_mem hx
  obtain ⟨n, -, hn⟩ := List.mem_map.mp hmem
  rw [← hn]
  rfl

theorem standardDecode_of_pairs {s : String} {bytes : List UInt8}
    (h : (utf8Bytes s.toList).map hexValue? = (bytes.flatMap halves).map some) :
    standardDecode s = .ok bytes := by
  have hlength := congrArg List.length h
  rw [List.length_map, List.length_map, length_flatMap_halves] at hlength
  rw [standardDecode, if_neg (by omega), firstBad?_eq_none (isSome_hexValue? h),
    filterMap_hexValue? h, joinPairs_flatMap_halves]

/-- The codec that computes. -/
def standard : HexCodec where
  decode := standardDecode
  encodeUpper := fun bytes => String.ofList ((bytes.flatMap halves).map hexDigit)
  decode_of_odd := fun _ h => if_pos h
  decode_of_bad := fun _ _ _ _ heven hbytes hgood hb => by
    rw [standardDecode, if_neg (by omega), hbytes, firstBad?_append hgood hb]
  decode_of_pairs := fun _ _ => standardDecode_of_pairs
  encodeUpper_eq := fun _ => rfl

end HexCodec

end Substation.Text
