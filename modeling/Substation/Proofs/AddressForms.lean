import Mathlib.Data.List.Basic
import Mathlib.Tactic.Common
import Substation.Address.Check
import Substation.Proofs.HexDigits
import Substation.Proofs.Names
import Substation.Resolution

/-!
# The forms of the parts of addresses

The parts of an address that have a fixed form are hexadecimal numbers, priorities and hardware
addresses. `Config.AddressPart.Fits` says what the forms are, without the way in which they are
checked. An address is found to be without fault iff all its parts fit, where several digits from 0
to 7 pass for a priority (`address_checked`); so of all that is to be found, only a priority that is
too long is not (`long_priority_not_reported`).

Results:
* `address_checked` (`check_address`, `check_mac`): an address is without fault iff its parts fit;
* `long_priority_not_reported`: the one form that is not asked for.
-/

namespace Substation

open Substation.Address
open Substation.Config
open Substation.Text

namespace Text

/-! ## Digits -/

/-- The digits of a priority. -/
def octalAlphabet : List Char := "01234567".toList

theorem mem_octalAlphabet_iff {c : Char} : c ∈ octalAlphabet ↔ '0' ≤ c ∧ c ≤ '7' := by
  constructor
  · have hall : octalAlphabet.all (fun c => '0' ≤ c ∧ c ≤ '7') = true := by decide
    exact fun h => of_decide_eq_true (List.all_eq_true.mp hall c h)
  · intro h
    have hlt : c.toNat < 128 := by
      have hle : c.val.toNat ≤ '7'.val.toNat := h.2
      exact Nat.lt_of_le_of_lt hle (by decide)
    have hall : ∀ n < 128, '0' ≤ Char.ofNat n ∧ Char.ofNat n ≤ '7' →
        Char.ofNat n ∈ octalAlphabet := by
      decide +kernel
    exact of_ascii (p := fun c => '0' ≤ c ∧ c ≤ '7' → c ∈ octalAlphabet) hall hlt h

/-- The text is a number of exactly `n` hexadecimal digits. -/
def IsHexNumber (n : Nat) (s : String) : Prop := s.length = n ∧ ∀ c ∈ s.toList, c ∈ hexAlphabet

instance (n : Nat) (s : String) : Decidable (IsHexNumber n s) :=
  inferInstanceAs (Decidable (_ ∧ _))

theorem isHex_iff {s : String} :
    isHex s = true ↔ s.length ≠ 0 ∧ ∀ c ∈ s.toList, c ∈ hexAlphabet := by
  simp only [isHex, Bool.and_eq_true, Bool.not_eq_true', List.isEmpty_eq_false_iff,
    List.all_eq_true, isHexDigit_iff, ne_eq, ← String.length_toList, List.length_eq_zero_iff]

theorem isHexNumber_iff {n : Nat} (hn : n ≠ 0) {s : String} :
    IsHexNumber n s ↔ isHex s = true ∧ s.length = n := by
  rw [isHex_iff, IsHexNumber]
  constructor
  · rintro ⟨rfl, h⟩
    exact ⟨⟨hn, h⟩, rfl⟩
  · rintro ⟨⟨-, h⟩, hlength⟩
    exact ⟨hlength, h⟩

/-- The text is a single digit from 0 to 7. -/
def IsOctalDigit (s : String) : Prop := s.length = 1 ∧ ∀ c ∈ s.toList, c ∈ octalAlphabet

/-- The text consists of digits from 0 to 7, at least one. -/
def IsOctalNumber (s : String) : Prop := s.length ≠ 0 ∧ ∀ c ∈ s.toList, c ∈ octalAlphabet

/-- The text is a hardware address: six pairs of hexadecimal digits with dashes between them. -/
def IsHardwareAddress (s : String) : Prop :=
  ∃ groups : List String, groups.length = 6 ∧ (∀ g ∈ groups, IsHexNumber 2 g) ∧
    s = "-".intercalate groups

theorem dash_not_mem {n : Nat} {s : String} (h : IsHexNumber n s) : '-' ∉ s.toList :=
  fun hmem => absurd (h.2 '-' hmem) (by decide)

/-- A text is groups with dashes between them iff its segments are such groups. -/
theorem exists_groups_iff {n : Nat} (hn : n ≠ 0) {p : String → Prop} {s : String} :
    (∃ groups : List String, groups.length = n ∧ (∀ g ∈ groups, '-' ∉ g.toList ∧ p g) ∧
      s = "-".intercalate groups) ↔
    (segments '-' s).length = n ∧ ∀ g ∈ segments '-' s, p g := by
  constructor
  · rintro ⟨groups, hlength, hgroups, rfl⟩
    have hne : groups ≠ [] := List.ne_nil_of_length_pos (by omega)
    have hsegments : segments '-' ("-".intercalate groups) = groups :=
      segments_intercalate hne fun g hg => (hgroups g hg).1
    rw [hsegments]
    exact ⟨hlength, fun g hg => (hgroups g hg).2⟩
  · rintro ⟨hlength, hgroups⟩
    exact ⟨segments '-' s, hlength, fun g hg => ⟨not_mem_of_mem_segments hg, hgroups g hg⟩,
      (intercalate_segments '-' s).symm⟩

/-- The pairs of digits are what stands between the dashes. -/
theorem isHardwareAddress_iff {s : String} : IsHardwareAddress s ↔
    (segments '-' s).length = 6 ∧ ∀ g ∈ segments '-' s, IsHexNumber 2 g := by
  rw [← exists_groups_iff (by decide)]
  simp only [IsHardwareAddress, and_iff_right_of_imp dash_not_mem]

end Text

/-! ## Parts -/

namespace Address

theorem hexFaults_eq_nil_iff {type text : String} {n : Nat} (hn : n ≠ 0) :
    hexFaults type text n = [] ↔ IsHexNumber n text := by
  rw [isHexNumber_iff hn, hexFaults]
  cases isHex text with
  | false => simp
  | true => by_cases hlength : text.length = n <;> simp [hlength]

theorem priorityFaults_eq_nil_iff {text : String} :
    priorityFaults text = [] ↔ IsOctalNumber text := by
  have hempty : text.isEmpty = false ↔ text.length ≠ 0 := by
    rw [← String.length_toList, ne_eq, List.length_eq_zero_iff, String.toList_eq_nil_iff,
      String.isEmpty_eq_false_iff]
  simp only [priorityFaults, IsOctalNumber, mem_octalAlphabet_iff, ← hempty]
  simp

theorem groupFaults_eq_nil_iff {position : Nat} {group : String} :
    groupFaults position group = [] ↔ IsHexNumber 2 group := by
  rw [isHexNumber_iff (by decide), groupFaults]
  cases isHex group with
  | false => simp
  | true => by_cases hlength : group.length = 2 <;> simp [hlength]

theorem macFaults_eq_nil_iff {text : String} : macFaults text = [] ↔ IsHardwareAddress text := by
  rw [isHardwareAddress_iff, macFaults]
  by_cases hlength : (segments '-' text).length = 6
  · simp only [hlength, ne_eq, not_true_eq_false, if_false, List.flatten_eq_nil_iff,
      List.forall_mem_map, Prod.forall, groupFaults_eq_nil_iff, true_and]
    constructor
    · intro h g hg
      obtain ⟨i, hi, rfl⟩ := List.getElem_of_mem hg
      exact h _ i (List.mk_mem_zipIdx_iff_getElem?.mpr (List.getElem?_eq_getElem hi))
    · intro h g i hg
      exact h g (List.fst_mem_of_mem_zipIdx hg)
  · simp [hlength]

end Address

/-- The text of a part has the form for its type, without the white space around it. A priority has
the form `priority`; parts of other types have no form. -/
def Config.AddressPart.Fits (priority : String → Prop) (p : AddressPart) : Prop :=
  match p.type with
  | "APPID" => IsHexNumber 4 (trim p.text)
  | "VLAN-ID" => IsHexNumber 3 (trim p.text)
  | "VLAN-PRIORITY" => priority (trim p.text)
  | "MAC-Address" => IsHardwareAddress (trim p.text)
  | _ => True

/-- A part is without fault iff it fits, where a priority may have several digits. -/
theorem Address.partFaults_eq_nil_iff {p : AddressPart} :
    partFaults p = [] ↔ p.Fits IsOctalNumber := by
  obtain ⟨type, text⟩ := p
  simp only [partFaults, AddressPart.Fits]
  split
  · exact hexFaults_eq_nil_iff (n := 4) (by decide)
  · exact hexFaults_eq_nil_iff (n := 3) (by decide)
  · exact priorityFaults_eq_nil_iff
  · exact macFaults_eq_nil_iff
  · simp

/-- A part that fits with one digit for a priority is one that fits with several, of which there is
one. -/
theorem Config.AddressPart.fits_iff {p : AddressPart} : p.Fits IsOctalDigit ↔
    p.Fits IsOctalNumber ∧ (p.type = "VLAN-PRIORITY" → (trim p.text).length = 1) := by
  by_cases htype : p.type = "VLAN-PRIORITY"
  · simp only [Fits, htype, IsOctalDigit, IsOctalNumber]
    constructor
    · rintro ⟨hlength, hdigits⟩
      exact ⟨⟨by omega, hdigits⟩, fun _ => hlength⟩
    · rintro ⟨⟨-, hdigits⟩, hlength⟩
      exact ⟨hlength trivial, hdigits⟩
  · have hsame : p.Fits IsOctalDigit ↔ p.Fits IsOctalNumber := by
      unfold Fits
      split
      · rfl
      · rfl
      · exact absurd ‹_› htype
      · rfl
      · rfl
    rw [hsame]
    exact ⟨fun h => ⟨h, fun h' => absurd h' htype⟩, And.left⟩

/-- **Addresses are checked against the forms of their parts.** Nothing is found in an address iff
all its parts fit, where several digits may stand for a priority. So all parts fit, with one digit
for a priority, iff nothing is found and no priority is longer than that. -/
theorem address_checked (a : Config.Address) :
    (faults a = [] ↔ ∀ p ∈ a.parts, p.Fits IsOctalNumber) ∧
      ((∀ p ∈ a.parts, p.Fits IsOctalDigit) ↔
        faults a = [] ∧ ∀ p ∈ a.parts, p.type = "VLAN-PRIORITY" → (trim p.text).length = 1) := by
  have hfaults : faults a = [] ↔ ∀ p ∈ a.parts, p.Fits IsOctalNumber := by
    simp only [faults, List.flatMap_eq_nil_iff, partFaults_eq_nil_iff]
  refine ⟨hfaults, ?_⟩
  rw [hfaults]
  constructor
  · intro h
    have hboth := fun p hp => AddressPart.fits_iff.mp (h p hp)
    exact ⟨fun p hp => (hboth p hp).1, fun p hp => (hboth p hp).2⟩
  · rintro ⟨hfits, hlength⟩ p hp
    exact AddressPart.fits_iff.mpr ⟨hfits p hp, hlength p hp⟩

/-- An address with a priority. -/
def priorityAddress (text : String) : Config.Address := ⟨[⟨"VLAN-PRIORITY", text⟩]⟩

/-- A document in which the access point has that address. -/
def priorityDocument (text : String) : Document :=
  ⟨⟨none, none, none, none, some ⟨[⟨"N", none,
    [⟨"E", "A", some (priorityAddress text), [], []⟩]⟩]⟩,
    [⟨"E", none, none, none, [⟨"A", some ⟨[]⟩⟩]⟩], none⟩, ⟨⟨[]⟩, ⟨[]⟩, ⟨[]⟩, ⟨[]⟩⟩, []⟩

/-- **A priority that is too long is not reported**: it does not fit, and nothing is found in the
address, nor in a document with it. A priority of another digit is reported. -/
theorem long_priority_not_reported :
    (¬ ∀ a : Config.Address, faults a = [] ↔ ∀ p ∈ a.parts, p.Fits IsOctalDigit) ∧
      (resolve (priorityDocument "77") "E" none {}).toOption.map (·.issues.size) = some 0 ∧
      (resolve (priorityDocument "8") "E" none {}).toOption.map (·.issues.size) = some 1 := by
  refine ⟨fun h => ?_, by decide +kernel, by decide +kernel⟩
  have hnone : faults (priorityAddress "77") = [] := by decide +kernel
  have hfits := (h (priorityAddress "77")).mp hnone ⟨"VLAN-PRIORITY", "77"⟩ List.mem_cons_self
  exact absurd ((AddressPart.fits_iff.mp hfits).2 rfl) (by decide +kernel)

end Substation
