import Mathlib.Data.List.Basic
import Mathlib.Tactic.Common
import Substation.Emission.Controls
import Substation.Proofs.AddressForms
import Substation.Proofs.NumericValues

/-!
# Hardware addresses

Hardware addresses are checked digit by digit, read byte by byte, and written as what was read. The
three agree on every text (`hardware_addresses_agree`): what passes the check is what can be read,
what is read is written as the text in upper case without its dashes, and whatever is written as six
pairs of digits is read as their bytes. What cannot be read has not six groups of two bytes, or has
a byte that is no digit, the first of which is named. A control block has a frame iff the first
hardware address of its address can be read. All this is so with every codec for the digits.

Results:
* `hardware_addresses_agree` (`check_mac`, `parse_mac`, `mac_hex`, `write_physical_address`):
  checking, reading and writing agree on every text, with every codec.
-/

namespace Substation

open Substation.Address
open Substation.Config
open Substation.Emission
open Substation.Text

namespace Address

/-! ## Shape -/

/-- The text consists of six groups of two bytes, with dashes between them. -/
def IsSixPairs (s : String) : Prop :=
  ∃ groups : List String, groups.length = 6 ∧
    (∀ g ∈ groups, '-' ∉ g.toList ∧ g.utf8ByteSize = 2) ∧ s = "-".intercalate groups

/-- What is left of a text without its dashes. -/
def undashed (s : String) : List Char := s.toList.filter (· ≠ '-')

theorem flatMap_segments (s : String) : (segments '-' s).flatMap String.toList = undashed s := by
  rw [List.flatMap_def, map_toList_segments, flatten_split]
  rfl

theorem Mac.hasShape_iff {groups : List String} : hasShape groups = true ↔
    groups.length = 6 ∧ ∀ g ∈ groups, g.utf8ByteSize = 2 := by
  rw [hasShape, Bool.and_eq_true, beq_iff_eq, List.all_eq_true]
  simp only [beq_iff_eq]

theorem isSixPairs_iff {s : String} : IsSixPairs s ↔ Mac.hasShape (segments '-' s) = true := by
  rw [Mac.hasShape_iff]
  exact exists_groups_iff (by decide)

/-- Six groups of two bytes have twelve bytes. -/
theorem length_utf8Bytes_undashed {s : String} (h : IsSixPairs s) :
    (utf8Bytes (undashed s)).length = 12 := by
  obtain ⟨hlength, hgroups⟩ := Mac.hasShape_iff.mp (isSixPairs_iff.mp h)
  have hsizes : (segments '-' s).map (fun g => (utf8Bytes g.toList).length) =
      List.replicate (segments '-' s).length 2 := by
    refine List.eq_replicate_iff.mpr ⟨List.length_map _, List.forall_mem_map.mpr fun g hg => ?_⟩
    rw [← utf8ByteSize_eq, hgroups g hg]
  rw [← flatMap_segments, utf8Bytes, List.flatMap_assoc, List.length_flatMap]
  exact (congrArg List.sum hsizes).trans (by rw [hlength]; rfl)

/-! ## Reading -/

section Reading

variable {codec : HexCodec} {text : String}

/-- What the codec is asked to read. -/
def digitsOf (text : String) : String := String.ofList (undashed (trim text))

theorem toList_digitsOf (text : String) : (digitsOf text).toList = undashed (trim text) :=
  String.toList_ofList

theorem even_digitsOf (h : IsSixPairs (trim text)) :
    (utf8Bytes (digitsOf text).toList).length % 2 = 0 := by
  rw [toList_digitsOf, length_utf8Bytes_undashed h]

theorem parse_of_not_isSixPairs (h : ¬ IsSixPairs (trim text)) :
    Mac.parse codec text = .error (.badForm "MAC-Address" text) := by
  rw [Mac.parse, Mac.groups, if_neg (mt isSixPairs_iff.mpr h)]

/-- What a text of the shape is read as: the codec decides, and gives six bytes. -/
theorem parse_of_isSixPairs (codec : HexCodec) (h : IsSixPairs (trim text)) :
    (∃ m : Mac, Mac.parse codec text = .ok m ∧
      codec.decode (digitsOf text) = .ok m.octets.toList) ∨
    ∃ fault, Mac.parse codec text = .error (.badHex fault) ∧
      codec.decode (digitsOf text) = .error fault := by
  have hshape : Mac.hasShape (Mac.groups text) = true := isSixPairs_iff.mp h
  have hgroups : String.ofList ((Mac.groups text).flatMap String.toList) = digitsOf text := by
    rw [Mac.groups, flatMap_segments]
    rfl
  cases hdecode : codec.decode (digitsOf text) with
  | error fault =>
    refine Or.inr ⟨fault, ?_, rfl⟩
    rw [Mac.parse, if_pos hshape, hgroups, hdecode]
  | ok bytes =>
    -- the twelve digits that the codec has read are two for each byte
    obtain ⟨hhex, hdigits⟩ := HexCodec.of_decode (even_digitsOf h) hdecode
    rw [forall_isHexByte_utf8Bytes] at hdigits
    have htwice := codec.length_encodeUpper bytes
    rw [hhex, List.length_map, ← length_utf8Bytes hdigits, toList_digitsOf,
      length_utf8Bytes_undashed h] at htwice
    have hsix : bytes.length = 6 := by omega
    refine Or.inl ⟨⟨⟨bytes.toArray, hsix⟩⟩, ?_, rfl⟩
    rw [Mac.parse, if_pos hshape, hgroups, hdecode]
    exact dif_pos hsix

theorem parse_eq_badForm_iff :
    Mac.parse codec text = .error (.badForm "MAC-Address" text) ↔ ¬ IsSixPairs (trim text) := by
  refine ⟨fun h hpairs => ?_, parse_of_not_isSixPairs⟩
  rcases parse_of_isSixPairs codec hpairs with ⟨m, hm, -⟩ | ⟨fault, hfault, -⟩
  · exact nomatch hm.symm.trans h
  · exact nomatch hfault.symm.trans h

theorem parse_eq_badHex_iff {fault : HexFault} :
    Mac.parse codec text = .error (.badHex fault) ↔
      IsSixPairs (trim text) ∧ codec.decode (digitsOf text) = .error fault := by
  by_cases hpairs : IsSixPairs (trim text)
  · rcases parse_of_isSixPairs codec hpairs with ⟨m, hm, hd⟩ | ⟨fault', hfault, hd⟩
    · simp [hm, hd]
    · simp [hfault, hd, hpairs]
  · simp [parse_of_not_isSixPairs hpairs, hpairs]

/-- The codec names the first bad byte. -/
theorem parse_eq_badDigit_iff {bad : BadDigit} :
    Mac.parse codec text = .error (.badHex (.badDigit bad)) ↔
      IsSixPairs (trim text) ∧ IsFirstBad (utf8Bytes (undashed (trim text))) bad := by
  rw [parse_eq_badHex_iff, ← toList_digitsOf]
  exact and_congr_right fun h => HexCodec.decode_eq_badDigit_iff (even_digitsOf h)

/-- A fault of the digits is always a bad one, since their number is even. -/
theorem exists_parse_eq_badHex_iff : (∃ fault, Mac.parse codec text = .error (.badHex fault)) ↔
    IsSixPairs (trim text) ∧ ∃ b ∈ utf8Bytes (undashed (trim text)), ¬ IsHexByte b := by
  rw [← exists_isFirstBad_iff, ← exists_and_left]
  constructor
  · rintro ⟨fault, h⟩
    obtain ⟨hpairs, hdecode⟩ := parse_eq_badHex_iff.mp h
    rcases codec.exists_decode_or (even_digitsOf hpairs) with ⟨_, hbytes, -⟩ | ⟨bad, -, hbad⟩
    · exact nomatch hbytes.symm.trans hdecode
    · exact ⟨bad, hpairs, toList_digitsOf text ▸ hbad⟩
  · rintro ⟨bad, h⟩
    exact ⟨_, parse_eq_badDigit_iff.mpr h⟩

theorem parse_eq_ok_iff {m : Mac} : Mac.parse codec text = .ok m ↔
    IsSixPairs (trim text) ∧ codec.decode (digitsOf text) = .ok m.octets.toList := by
  by_cases hpairs : IsSixPairs (trim text)
  · rcases parse_of_isSixPairs codec hpairs with ⟨m', hm, hd⟩ | ⟨fault, hfault, hd⟩
    · obtain ⟨octets⟩ := m
      obtain ⟨octets'⟩ := m'
      simp [hm, hd, hpairs, Vector.toList_inj]
    · simp [hfault, hd]
  · simp [parse_of_not_isSixPairs hpairs, hpairs]

/-- What is read is written as the text in upper case without its dashes. -/
theorem hex_of_parse {m : Mac} (h : Mac.parse codec text = .ok m) :
    (m.hex codec).text.toList = (undashed (trim text)).map Char.toUpper := by
  obtain ⟨hpairs, hbytes⟩ := parse_eq_ok_iff.mp h
  rw [← toList_digitsOf]
  exact (HexCodec.of_decode (even_digitsOf hpairs) hbytes).1

/-- White space around an address does not matter. -/
theorem parse_trim {m : Mac} (text : String) :
    Mac.parse codec (trim text) = .ok m ↔ Mac.parse codec text = .ok m := by
  rw [parse_eq_ok_iff, parse_eq_ok_iff, digitsOf, digitsOf, trim_trim]

end Reading

/-! ## The check -/

theorem isHexNumber_iff_utf8ByteSize {n : Nat} {s : String} :
    IsHexNumber n s ↔ s.utf8ByteSize = n ∧ ∀ c ∈ s.toList, c ∈ hexAlphabet := by
  refine and_congr_left fun h => ?_
  rw [utf8ByteSize_eq, length_utf8Bytes h, String.length_toList]

theorem isHardwareAddress_iff_isSixPairs {s : String} :
    IsHardwareAddress s ↔ IsSixPairs s ∧ ∀ b ∈ utf8Bytes (undashed s), IsHexByte b := by
  rw [isHardwareAddress_iff, isSixPairs_iff, Mac.hasShape_iff, forall_isHexByte_utf8Bytes,
    ← flatMap_segments, and_assoc]
  simp only [isHexNumber_iff_utf8ByteSize, List.mem_flatMap, forall_exists_index, and_imp]
  refine and_congr_right fun _ => ⟨fun h => ?_, fun h g hg => ?_⟩
  · exact ⟨fun g hg => (h g hg).1, fun c g hg hc => (h g hg).2 c hc⟩
  · exact ⟨h.1 g hg, fun c hc => h.2 c g hg hc⟩

/-- What passes the check can be read, and nothing else. -/
theorem macFaults_eq_nil_iff_parse {codec : HexCodec} {text : String} :
    macFaults (trim text) = [] ↔ ∃ m, Mac.parse codec text = .ok m := by
  rw [macFaults_eq_nil_iff, isHardwareAddress_iff_isSixPairs]
  constructor
  · rintro ⟨hpairs, hbytes⟩
    rcases parse_of_isSixPairs codec hpairs with ⟨m, hm, -⟩ | ⟨fault, hfault, -⟩
    · exact ⟨m, hm⟩
    · obtain ⟨-, b, hb, hbad⟩ := exists_parse_eq_badHex_iff.mp ⟨fault, hfault⟩
      exact absurd (hbytes b hb) hbad
  · rintro ⟨m, h⟩
    obtain ⟨hpairs, hdecode⟩ := parse_eq_ok_iff.mp h
    have hbytes := (HexCodec.of_decode (even_digitsOf hpairs) hdecode).2
    rw [toList_digitsOf] at hbytes
    exact ⟨hpairs, hbytes⟩

/-! ## Writing -/

/-- A byte as two upper-case digits. -/
def digitPair (b : UInt8) : List Char := (halves b).map hexDigit

/-- The bytes as pairs of upper-case digits, with dashes between them. -/
def Mac.dashed (m : Mac) : String :=
  "-".intercalate (m.octets.toList.map fun b => String.ofList (digitPair b))

theorem isHexDigit_of_mem_digitPair {b : UInt8} {c : Char} (h : c ∈ digitPair b) :
    isHexDigit c = true := by
  obtain ⟨n, hn, rfl⟩ := List.mem_map.mp h
  exact isHexDigit_hexDigit (lt_of_mem_halves hn)

theorem Mac.hex_toList (codec : HexCodec) (m : Mac) :
    (m.hex codec).text.toList = (m.octets.toList.map digitPair).flatten := by
  show (codec.encodeUpper m.octets.toList).toList = _
  rw [codec.encodeUpper_eq, String.toList_ofList, List.map_flatMap, List.flatMap_def]
  rfl

/-- A text that is a written address in some letter case falls apart into the written bytes. -/
theorem split_of_toUpper {m : Mac} {text : String}
    (h : text.toList.map Char.toUpper = m.dashed.toList) :
    (split '-' text.toList).map (List.map Char.toUpper) = m.octets.toList.map digitPair := by
  have hne : m.octets.toList ≠ [] := by simp
  have hsegments : segments '-' m.dashed =
      m.octets.toList.map fun b => String.ofList (digitPair b) := by
    refine segments_intercalate (mt List.map_eq_nil_iff.mp hne)
      (List.forall_mem_map.mpr fun b _ hdash => ?_)
    rw [String.toList_ofList] at hdash
    exact absurd (isHexDigit_of_mem_digitPair hdash) (by decide)
  rw [← split_map (fun c => toUpper_eq_dash_iff), h, ← map_toList_segments, hsegments, List.map_map]
  exact List.map_congr_left fun b _ => String.toList_ofList

theorem isHardwareAddress_of_toUpper {m : Mac} {text : String}
    (h : text.toList.map Char.toUpper = m.dashed.toList) : IsHardwareAddress text := by
  have hsplit := split_of_toUpper h
  rw [isHardwareAddress_iff]
  constructor
  · have hlength := congrArg List.length hsplit
    rwa [List.length_map, List.length_map, Vector.length_toList, ← map_toList_segments,
      List.length_map] at hlength
  · intro g hg
    have hmem : g.toList.map Char.toUpper ∈ m.octets.toList.map digitPair := by
      rw [← hsplit, ← map_toList_segments]
      exact List.mem_map_of_mem (List.mem_map_of_mem hg)
    obtain ⟨b, -, hb⟩ := List.mem_map.mp hmem
    constructor
    · have hlength := congrArg List.length hb
      rw [List.length_map, String.length_toList] at hlength
      exact hlength.symm
    · intro c hc
      have hupper : c.toUpper ∈ digitPair b := by
        rw [hb]
        exact List.mem_map_of_mem hc
      exact mem_hexAlphabet_of_toUpper (isHexDigit_iff.mp (isHexDigit_of_mem_digitPair hupper))

theorem solid_of_isHardwareAddress {s : String} (h : IsHardwareAddress s) : Solid s.toList := by
  intro c hc
  by_cases hdash : c = '-'
  · rw [hdash]
    decide
  · have hmem : c ∈ undashed s := List.mem_filter.mpr ⟨hc, decide_eq_true hdash⟩
    have hdigits := forall_isHexByte_utf8Bytes.mp (isHardwareAddress_iff_isSixPairs.mp h).2
    have hdigit := isHexDigit_iff.mpr (hdigits c hmem)
    exact isWhite_of_isNumeric (by rw [isNumeric, hdigit, Bool.true_or])

theorem Mac.hex_injective (codec : HexCodec) : Function.Injective (Mac.hex codec) := by
  rintro ⟨octets⟩ ⟨octets'⟩ h
  exact congrArg Mac.mk (Vector.toList_inj.mp
    (codec.encodeUpper_injective (congrArg HexString.text h)))

/-- What is written as six pairs of digits, in whatever letter case, is read as their bytes. -/
theorem parse_of_toUpper {codec : HexCodec} {m : Mac} {text : String}
    (h : text.toList.map Char.toUpper = m.dashed.toList) : Mac.parse codec text = .ok m := by
  have haddress := isHardwareAddress_of_toUpper h
  have htrim : trim text = text := (solid_of_isHardwareAddress haddress).trim_eq
  obtain ⟨m', hm'⟩ := macFaults_eq_nil_iff_parse.mp
    (macFaults_eq_nil_iff.mpr (htrim.symm ▸ haddress))
  have hundashed : undashed text = (split '-' text.toList).flatten := (flatten_split _ _).symm
  have hhex := hex_of_parse hm'
  rw [htrim, hundashed, List.map_flatten, split_of_toUpper h, ← Mac.hex_toList codec,
    String.toList_inj] at hhex
  have hsame : m' = m := Mac.hex_injective codec (HexString.ext hhex)
  exact hsame ▸ hm'

/-! ## Frames -/

variable {codec : HexCodec}

/-- The first part of the address that is for a hardware address can be read. -/
def HasMac (codec : HexCodec) (address : Option Config.Address) (m : Mac) : Prop :=
  ∃ a p, address = some a ∧ a.parts.find? (·.type = "MAC-Address") = some p ∧
    Mac.parse codec p.text = .ok m

theorem mac_ofAddress_eq_some_iff {a : Config.Address} {m : Mac} :
    (Physical.ofAddress codec a).mac = some m ↔ HasMac codec (some a) m := by
  have hread : (Physical.ofAddress codec a).mac =
      (a.part? "MAC-Address").bind fun text => (Mac.parse codec text).toOption := rfl
  rw [hread, Config.Address.part?]
  cases hfind : a.parts.find? (·.type = "MAC-Address") with
  | none => simp [HasMac, hfind]
  | some p =>
    have htrim : Mac.parse codec (trim p.text) = .ok m ↔ Mac.parse codec p.text = .ok m :=
      parse_trim p.text
    cases hparse : Mac.parse codec (trim p.text) with
    | error e => simp [HasMac, hfind, ← htrim, hparse, Except.toOption]
    | ok m' => simp [HasMac, hfind, ← htrim, hparse, Except.toOption]

end Address

namespace Emission

open Substation.Address

variable {codec : HexCodec}

/-- The lines end with those of a frame with the hardware address. -/
def Framed (codec : HexCodec) (s : Script) (m : Mac) : Prop :=
  ∃ head f, f.mac = m.hex codec ∧ s.lines = [head ++ "\x7b", Frame.line f, "\x7d"]

theorem Frame.exists_ofAddress?_iff {address : Option Config.Address} {m : Mac} :
    (∃ f, Frame.ofAddress? codec address = some f ∧ f.mac = m.hex codec) ↔
      HasMac codec address m := by
  cases address with
  | none => simp [Frame.ofAddress?, HasMac]
  | some a =>
    rw [← mac_ofAddress_eq_some_iff]
    cases h : (Physical.ofAddress codec a).mac with
    | none => simp [Frame.ofAddress?, Physical.macHex?, h]
    | some m' =>
      simp [Frame.ofAddress?, Physical.macHex?, h, (Mac.hex_injective codec).eq_iff]

theorem Frame.exists_line (f : Frame) :
    ∃ front, f.line.toList = front ++ ' ' :: (f.mac.text.toList ++ ");".toList) := by
  refine ⟨"PA(".toList ++ f.vlanPriority.toList ++ ' ' :: f.vlanId.toList ++
    ' ' :: f.appId.toList, ?_⟩
  simp [Frame.line, spaced]

/-- The hardware address can be read off the line of a frame. -/
theorem Frame.mac_eq_of_line_eq {f f' : Frame} (h : f.line = f'.line) : f.mac = f'.mac := by
  obtain ⟨front, hfront⟩ := f.exists_line
  obtain ⟨front', hfront'⟩ := f'.exists_line
  have hsolid (s : HexString) : ' ' ∉ s.text.toList ++ ");".toList := by
    rw [List.mem_append, not_or]
    exact ⟨fun hmem => absurd (s.isHexDigit_of_mem _ hmem) (by decide), by decide⟩
  rw [h, hfront'] at hfront
  have hends := (append_cons_inj_right (hsolid _) (hsolid _) hfront).2
  exact (HexString.ext (String.toList_inj.mp (List.append_cancel_right hends))).symm

theorem framed_script_iff {head : String} {frame : Option Frame} {m : Mac} :
    Framed codec (Frame.script head frame) m ↔ ∃ f, frame = some f ∧ f.mac = m.hex codec := by
  constructor
  · rintro ⟨head', f', hmac, hlines⟩
    cases frame with
    | none => simp [Frame.script, Script.lines] at hlines
    | some f =>
      have hline : f.line = f'.line := by
        have htail := (List.cons.inj hlines).2
        exact (List.cons.inj htail).1
      exact ⟨f, rfl, (Frame.mac_eq_of_line_eq hline).trans hmac⟩
  · rintro ⟨f, rfl, hf⟩
    exact ⟨head, f, hf, rfl⟩

end Emission

/-! ## All together -/

/-- **Checking, reading and writing hardware addresses agree**, with every codec. What passes the
check can be read, and nothing else can. What cannot be read has not the shape, or has it and some
byte is no digit, the first of which is named. What is read is written as the text in upper case
without its dashes. Six bytes written as pairs of digits in any letter case are read again. A
control block is written with a frame, and with the bytes read in it, iff the first hardware address
of the address that it is connected to can be read. -/
theorem hardware_addresses_agree (codec : HexCodec) :
    (∀ text : String,
      (macFaults (trim text) = [] ↔ ∃ m, Mac.parse codec text = .ok m) ∧
      (Mac.parse codec text = .error (.badForm "MAC-Address" text) ↔ ¬ IsSixPairs (trim text)) ∧
      (∀ bad, Mac.parse codec text = .error (.badHex (.badDigit bad)) ↔
        IsSixPairs (trim text) ∧ IsFirstBad (utf8Bytes (undashed (trim text))) bad) ∧
      ((∃ fault, Mac.parse codec text = .error (.badHex fault)) ↔
        IsSixPairs (trim text) ∧ ∃ b ∈ utf8Bytes (undashed (trim text)), ¬ IsHexByte b) ∧
      ∀ m, Mac.parse codec text = .ok m →
        (m.hex codec).text.toList = (undashed (trim text)).map Char.toUpper) ∧
    (∀ (m : Mac) (text : String),
      text.toList.map Char.toUpper = m.dashed.toList → Mac.parse codec text = .ok m) ∧
    (∀ (connection : Option GseConnection) (c : GseControl) (m : Mac),
      Framed codec (GseStatement.ofControl codec connection c).script m ↔
        HasMac codec (connection.bind (·.address)) m) ∧
    ∀ (connection : Option SampledConnection) (c : SampledControl) (m : Mac),
      Framed codec (SampledStatement.ofControl codec connection c).script m ↔
        HasMac codec (connection.bind (·.address)) m :=
  ⟨fun _ => ⟨macFaults_eq_nil_iff_parse, parse_eq_badForm_iff, fun _ => parse_eq_badDigit_iff,
      exists_parse_eq_badHex_iff, fun _ => hex_of_parse⟩,
    fun _ _ => parse_of_toUpper,
    fun _ _ _ => framed_script_iff.trans Frame.exists_ofAddress?_iff,
    fun _ _ _ => framed_script_iff.trans Frame.exists_ofAddress?_iff⟩

/-- With the codec that computes, a written address is read in mixed letter case. A letter of two
bytes has the size of a pair of digits, so its first byte is what cannot be read; the check does not
pass it either. -/
theorem hardware_addresses_agree_letter :
    Mac.parse .standard "01-0c-Cd-01-00-fF" = .ok ⟨#v[1, 12, 205, 1, 0, 255]⟩ ∧
      (Mac.hex .standard ⟨#v[1, 12, 205, 1, 0, 255]⟩).text = "010CCD0100FF" ∧
      Mac.parse .standard "01-é-CD-01-00-FF" = .error (.badHex (.badDigit ⟨0xC3, 2⟩)) ∧
      macFaults (trim "01-é-CD-01-00-FF") ≠ [] := by
  obtain ⟨hread, hwritten, -⟩ := hardware_addresses_agree .standard
  have hmac : Mac.parse .standard "01-0c-Cd-01-00-fF" = .ok ⟨#v[1, 12, 205, 1, 0, 255]⟩ :=
    hwritten ⟨#v[1, 12, 205, 1, 0, 255]⟩ "01-0c-Cd-01-00-fF" (by decide +kernel)
  have hbad : Mac.parse .standard "01-é-CD-01-00-FF" = .error (.badHex (.badDigit ⟨0xC3, 2⟩)) := by
    decide +kernel
  refine ⟨hmac, by decide +kernel, hbad, fun hnone => ?_⟩
  obtain ⟨m, hm⟩ := (hread "01-é-CD-01-00-FF").1.mp hnone
  exact nomatch hbad.symm.trans hm

end Substation
