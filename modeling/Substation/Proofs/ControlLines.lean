import Mathlib.Tactic.Common
import Substation.Proofs.ControlLayout
import Substation.Proofs.HardwareAddresses

/-!
# Lines of connected control blocks

The lines of a control block for event messages or sampled values show the entry that it is
connected to. `GseShown` and `SampledShown` say what they show in terms of the entry as it is given:
its times and the parts of its address are texts without white space at the ends, `0` stands for
what is not given, and a block for the address follows iff its hardware address can be read.

Results:
* `gseShown_iff`, `sampledShown_iff`: these lines are written (`write_gse_control`,
  `write_smv_control`), and no others.
-/

namespace Substation

open Substation.Address
open Substation.Config
open Substation.Emission
open Substation.Text

/-! ## The first entry of a name -/

section Entries

variable {α : Type} {nameOf : α → Option String} {name : String} {entries : List α}

/-- The entry is the first one of a name; there is none if no entry has the name. -/
def FirstNamed (nameOf : α → Option String) (name : String) (entries : List α) : Option α → Prop
  | none => ∀ e ∈ entries, nameOf e ≠ some name
  | some e => nameOf e = some name ∧
      ∃ front back, entries = front ++ e :: back ∧ ∀ e' ∈ front, nameOf e' ≠ some name

theorem firstNamed_iff {e : Option α} :
    FirstNamed nameOf name entries e ↔ entries.find? (nameOf · = some name) = e := by
  cases e with
  | none => simp [FirstNamed, List.find?_eq_none]
  | some e => simp [FirstNamed, List.find?_eq_some_iff_append]

end Entries

namespace Emission

/-! ## Times and parts of addresses -/

/-- A length of time is shown as it is given, without white space at its ends, and as `0` if nothing
is given. -/
def TimeShown (d : Option Duration) (t : String) : Prop :=
  (t ≠ "" ∧ ∃ x, d = some x ∧ t = trim x.text) ∨ (t = "0" ∧ ∀ x, d = some x → trim x.text = "")

theorem textOr_some (default s : String) :
    textOr default (some s) = if s = "" then default else s := by
  rw [textOr, Option.filter_some]
  by_cases h : s = "" <;> simp [h]

theorem timeShown_iff {d : Option Duration} {t : String} : TimeShown d t ↔ t = timeText d := by
  cases d with
  | none => simp [TimeShown, timeText, textOr]
  | some x =>
    have hgiven : timeText (some x) = if trim x.text = "" then "0" else trim x.text :=
      textOr_some _ _
    by_cases hempty : trim x.text = ""
    · simp [TimeShown, hgiven, hempty]
    · simp only [TimeShown, hgiven, hempty, Option.some.injEq, exists_eq_left', if_false]
      exact ⟨fun h => (h.resolve_right fun ⟨_, hnone⟩ => hempty (hnone x rfl)).2,
        fun h => .inl ⟨h ▸ hempty, h⟩⟩

/-- Of the parts of a type the first one is shown, without white space at its ends, and `0` if there
is none. -/
def PartShown (a : Config.Address) (type t : String) : Prop :=
  ∃ p, FirstNamed (fun p => some p.type) type a.parts p ∧ t = p.elim "0" fun p => trim p.text

theorem partShown_iff {a : Config.Address} {type t : String} :
    PartShown a type t ↔ t = (a.part? type).getD "0" := by
  simp only [PartShown, firstNamed_iff, exists_eq_left', Option.some.injEq, Config.Address.part?]
  cases a.parts.find? (·.type = type) <;> rfl

/-! ## Addresses -/

variable {codec : HexCodec}

/-- If the hardware address of an address can be read, its parts and the hardware address are shown
in a block behind the head, and otherwise the head stands alone. -/
def AddressShown (codec : HexCodec) (address : Option Config.Address) (head : String)
    (lines : List String) : Prop :=
  (∃ a m priority vlan app, address = some a ∧ HasMac codec address m ∧
    PartShown a "VLAN-PRIORITY" priority ∧ PartShown a "VLAN-ID" vlan ∧ PartShown a "APPID" app ∧
    lines = [head ++ "\x7b", "PA(" ++ spaced [priority, vlan, app, (m.hex codec).text] ++ ");",
      "\x7d"]) ∨
  (∀ m, ¬ HasMac codec address m) ∧ lines = [head ++ ";"]

theorem addressShown_iff {address : Option Config.Address} {head : String} {lines : List String} :
    AddressShown codec address head lines ↔
      lines = (Frame.script head (Frame.ofAddress? codec address)).lines := by
  cases address with
  | none => simp [AddressShown, HasMac, Frame.ofAddress?, Frame.script, Script.lines]
  | some a =>
    have hmac (m : Mac) : (Physical.ofAddress codec a).mac = some m ↔ HasMac codec (some a) m :=
      mac_ofAddress_eq_some_iff
    cases hread : (Physical.ofAddress codec a).mac with
    | none =>
      have hnone (m : Mac) : ¬ HasMac codec (some a) m := fun h =>
        Option.some_ne_none m (((hmac m).mpr h).symm.trans hread)
      simp [AddressShown, hnone, Frame.ofAddress?, Physical.macHex?, hread, Frame.script,
        Script.lines]
    | some m =>
      have hsome (m' : Mac) : HasMac codec (some a) m' ↔ m' = m := by
        rw [← hmac, hread, Option.some.injEq, eq_comm]
      have hframe : Frame.ofAddress? codec (some a) = some ⟨(a.part? "VLAN-PRIORITY").getD "0",
          (a.part? "VLAN-ID").getD "0", (a.part? "APPID").getD "0", m.hex codec⟩ := by
        show (Physical.macHex? codec (Physical.ofAddress codec a)).bind _ = _
        rw [Physical.macHex?, hread]
        rfl
      simp only [AddressShown, Option.some.injEq, exists_eq_left', exists_and_left, hsome,
        exists_eq_left, partShown_iff, hframe]
      exact ⟨fun h => h.resolve_right fun hnone => hnone.1 m rfl, .inl⟩

/-- Without an address the head stands alone. -/
theorem AddressShown.exists_single {head : String} {lines : List String}
    (h : AddressShown codec none head lines) : ∃ head', lines = [head' ++ ";"] :=
  ⟨head, addressShown_iff.mp h⟩

/-! ## Control blocks -/

/-- The lines of a control block for event messages that is connected to an entry. -/
def GseShown (codec : HexCodec) (entry : Option GseConnection) (c : GseControl)
    (lines : List String) : Prop :=
  ∃ minTime maxTime, TimeShown (entry.bind (·.minTime)) minTime ∧
    TimeShown (entry.bind (·.maxTime)) maxTime ∧
    AddressShown codec (entry.bind (·.address)) ("GC(" ++ spaced [c.name, textOr "null" c.appId,
      textOr "null" c.dataSet, toString (countOrZero c.confRev), flagDigit (flag c.fixedOffs false),
      minTime, maxTime] ++ ")") lines

/-- The lines of a control block for sampled values that is connected to an entry. -/
def SampledShown (codec : HexCodec) (entry : Option SampledConnection) (c : SampledControl)
    (lines : List String) : Prop :=
  AddressShown codec (entry.bind (·.address)) ("SMVC(" ++ spaced [c.name, textOr "null" c.smvId,
    textOr "null" c.dataSet, toString (countOrZero c.confRev), textOr "0" c.smpMod,
    toString (countOrZero c.smpRate), toString (sampledBits c.fields),
    flagDigit (flag c.multicast true)] ++ ")") lines

theorem gseShown_iff {entry : Option GseConnection} {c : GseControl} {lines : List String} :
    GseShown codec entry c lines ↔
      lines = (GseStatement.ofControl codec entry c).layout.lines := by
  have hlines := (GseStatement.ofControl codec entry c).script_shows
  rw [Script.Shows, Layout.linesAll, List.flatMap_singleton] at hlines
  simp only [GseShown, timeShown_iff, addressShown_iff, exists_and_left, exists_eq_left]
  rw [← hlines]
  rfl

theorem sampledShown_iff {entry : Option SampledConnection} {c : SampledControl}
    {lines : List String} : SampledShown codec entry c lines ↔
      lines = (SampledStatement.ofControl codec entry c).layout.lines := by
  have hlines := (SampledStatement.ofControl codec entry c).script_shows
  rw [Script.Shows, Layout.linesAll, List.flatMap_singleton] at hlines
  rw [SampledShown, addressShown_iff, ← hlines]
  rfl

end Emission

end Substation
