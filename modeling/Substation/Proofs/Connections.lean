import Mathlib.Tactic.Common
import Substation.Proofs.ControlLines
import Substation.Proofs.EmittedBlocks

/-!
# Connections of control blocks

A control block for event messages or sampled values is written with the times and the address of an
entry of the connection of the access point. The entry is found by the name of the control block
alone (`controls_written_by_name`): it is the first one of that name, whatever logical device it is
for. So control blocks of one name share their address, on all logical devices, and each has
the address meant for it only if all entries of its name are for its own logical device.

Results:
* `controls_written_by_name` (`write_logical_node`, `ConnectedAp::gse`, `ConnectedAp::smv`): the
  lines of the control blocks of a logical node;
* `controls_not_written_by_device`: the entry for the logical device may be another one.
-/

namespace Substation

open Substation.Config
open Substation.Emission
open Substation.Model

/-! ## Entries for a logical device -/

section Entries

variable {α : Type} {nameOf deviceOf : α → Option String} {name inst : String} {entries : List α}

/-- The entry is one of a name and for a logical device; there is none if no entry is. -/
def MeantFor (nameOf deviceOf : α → Option String) (name inst : String) (entries : List α) :
    Option α → Prop
  | none => ∀ e ∈ entries, nameOf e = some name → deviceOf e ≠ some inst
  | some e => e ∈ entries ∧ nameOf e = some name ∧ deviceOf e = some inst

/-- The first entry of a name is meant for a logical device if all entries of that name are. -/
theorem FirstNamed.meantFor {e : Option α} (h : FirstNamed nameOf name entries e)
    (hdevice : ∀ e ∈ entries, nameOf e = some name → deviceOf e = some inst) :
    MeantFor nameOf deviceOf name inst entries e := by
  cases e with
  | none => exact fun e he hname => absurd hname (h e he)
  | some e =>
    obtain ⟨hname, front, back, rfl, -⟩ := h
    have hmem : e ∈ front ++ e :: back := List.mem_append_right front List.mem_cons_self
    exact ⟨hmem, hname, hdevice e hmem hname⟩

end Entries

/-! ## What is written -/

/-- The entries for event messages in the connection of an access point. -/
def gseEntries (d : Document) (ap ied : String) : List GseConnection :=
  (d.connectedAp? ap ied).elim [] ConnectedAp.gse

/-- The entries for sampled values in the connection of an access point. -/
def sampledEntries (d : Document) (ap ied : String) : List SampledConnection :=
  (d.connectedAp? ap ied).elim [] ConnectedAp.sampled

theorem firstNamed_gse? (d : Document) (ap ied name : String) :
    FirstNamed GseConnection.cbName name (gseEntries d ap ied)
      ((d.connectedAp? ap ied).bind (·.gse? name)) := by
  unfold gseEntries
  cases d.connectedAp? ap ied with
  | none => exact List.forall_mem_nil _
  | some cap => exact firstNamed_iff.mpr rfl

theorem firstNamed_sampled? (d : Document) (ap ied name : String) :
    FirstNamed SampledConnection.cbName name (sampledEntries d ap ied)
      ((d.connectedAp? ap ied).bind (·.sampled? name)) := by
  unfold sampledEntries
  cases d.connectedAp? ap ied with
  | none => exact List.forall_mem_nil _
  | some cap => exact firstNamed_iff.mpr rfl

/-- **Control blocks are written with the first entry of their name.** For each name there is one
entry for event messages and one for sampled values, the first one of the connection of the access
point that has the name, if any has. All logical nodes share them: within the block of a logical
node, which stands in that of its logical device, the control blocks are written in their order with
the times and the address of the entries of their names, and without an address if there is no
entry. The logical device that an entry is for is not looked at; the entry is the one for a logical
device if all entries of its name are. -/
theorem controls_written_by_name {d : Document} {ied : String} {ap : Option String}
    {ro : ResolveOptions} {res : Resolution} (hres : resolve d ied ap ro = .ok res)
    (o : EmitOptions) :
    ∃ (i : Ied) (a : AccessPoint) (gse : String → Option GseConnection)
      (smv : String → Option SampledConnection),
      d.ied? ied = some i ∧ accessPoint? i ap = some a ∧
      (∀ name, FirstNamed (·.cbName) name (gseEntries d a.name i.name) (gse name)) ∧
      (∀ name, FirstNamed (·.cbName) name (sampledEntries d a.name i.name) (smv name)) ∧
      (∀ {ln : Nat} {n : Node} {config : LogicalNode} {space : Option Namespace},
        res.model.node? ln = some n → n.kind = .logicalNode config space →
        ∃ dev inst parts, n.parent = some dev ∧ res.model.inst? dev = some inst ∧
          HasBlock (emit d res o none).text inst n.name parts ∧
          List.Forall₂ (fun c t => GseShown o.codec (gse c.name) c t.lines)
            config.gseControls (parts.filter (·.tag ∈ ["GC"])) ∧
          List.Forall₂ (fun c t => SampledShown o.codec (smv c.name) c t.lines)
            config.sampledControls (parts.filter (·.tag ∈ ["SMVC"]))) ∧
      (∀ (c : GseControl) (lines : List String), gse c.name = none →
        GseShown o.codec (gse c.name) c lines → ∃ head, lines = [head ++ ";"]) ∧
      (∀ (c : SampledControl) (lines : List String), smv c.name = none →
        SampledShown o.codec (smv c.name) c lines → ∃ head, lines = [head ++ ";"]) ∧
      (∀ name inst,
        (∀ e ∈ gseEntries d a.name i.name, e.cbName = some name → e.ldInst = some inst) →
        MeantFor (·.cbName) (·.ldInst) name inst (gseEntries d a.name i.name) (gse name)) ∧
      ∀ name inst,
        (∀ e ∈ sampledEntries d a.name i.name, e.cbName = some name → e.ldInst = some inst) →
        MeantFor (·.cbName) (·.ldInst) name inst (sampledEntries d a.name i.name) (smv name) := by
  obtain ⟨i, a, hi, ha, rfl⟩ := Resolution.exists_of_resolve hres
  have hm := (Resolution.stage_ofAccessPoint d ro i a).lawful
  have hgse := firstNamed_gse? d a.name i.name
  have hsmv := firstNamed_sampled? d a.name i.name
  refine ⟨i, a, fun name => (d.connectedAp? a.name i.name).bind (·.gse? name),
    fun name => (d.connectedAp? a.name i.name).bind (·.sampled? name), hi, ha, hgse, hsmv, ?_,
    fun c lines hnone hlines => ?_, fun c lines hnone hlines => ?_,
    fun name inst => (hgse name).meantFor, fun name inst => (hsmv name).meantFor⟩
  · intro ln n config space hn hconfig
    obtain ⟨b, hb, rfl⟩ := Branch.exists_stands hm.forest (IedModel.lt_size_of_node? hn)
    obtain rfl : b.node = n := Option.some.inj (hb.node?.symm.trans hn)
    obtain ⟨dev, inst, hparent, hinst, hblock⟩ := exists_hasBlock (d := d) (o := o) hm hb hconfig
    let s := ((Resolution.ofAccessPoint d ro i a).setting d o).nodeStatement inst b config
    refine ⟨dev, inst, s.layout.parts, hparent, hinst, hblock, ?_, ?_⟩
    · rw [s.filter_layout (List.mem_of_getElem? (i := 6) rfl)]
      simp only [s, Setting.nodeStatement, List.map_map, List.forall₂_map_right_iff]
      exact List.forall₂_same.mpr fun c _ => gseShown_iff.mpr rfl
    · rw [s.filter_layout (List.mem_of_getElem? (i := 7) rfl)]
      simp only [s, Setting.nodeStatement, List.map_map, List.forall₂_map_right_iff]
      exact List.forall₂_same.mpr fun c _ => sampledShown_iff.mpr rfl
  · rw [hnone] at hlines
    obtain ⟨_, _, -, -, hlines⟩ := hlines
    exact hlines.exists_single
  · rw [hnone] at hlines
    exact hlines.exists_single

/-- A control block for event messages. -/
def sharedControl : GseControl := ⟨"gcb", none, none, none, none, none⟩

/-- A logical node with that control block. -/
def sharedNode : LogicalNode where
  lnClass := "LLN0"
  lnType := "L"
  inst := ""
  lnPrefix := none
  desc := none
  dataSets := []
  reports := []
  logControls := []
  instances := []
  logs := []
  gseControls := [sharedControl]
  sampledControls := []
  settings := none

/-- An entry for control blocks of that name on a logical device. -/
def sharedEntry (inst mac time : String) : GseConnection where
  ldInst := some inst
  cbName := some "gcb"
  address := some ⟨[⟨"VLAN-PRIORITY", " 4 "⟩, ⟨"APPID", "3001"⟩, ⟨"MAC-Address", mac⟩]⟩
  minTime := some ⟨none, none, time⟩
  maxTime := none

/-- Two logical devices with that logical node. -/
def sharedIed : Ied :=
  ⟨"E", none, none, none, [⟨"A", some ⟨[⟨"LD1", none, none, some sharedNode, []⟩,
    ⟨"LD2", none, none, some sharedNode, []⟩]⟩⟩]⟩

/-- A document with these logical devices, and an entry for each of them. -/
def sharedDocument : Document :=
  ⟨⟨none, none, none, none, some ⟨[⟨"N", none, [⟨"E", "A", none,
    [sharedEntry "LD1" "01-0C-CD-01-00-01" "10", sharedEntry "LD2" "01-0C-CD-01-00-02" "20"],
    []⟩]⟩]⟩, [sharedIed], none⟩, { nodeTypes := ⟨[("L", ⟨"L", "LLN0", []⟩)]⟩ }, []⟩

/-- Only members of data sets are checked. -/
def sharedOptions : ResolveOptions := { checkConfigRev := false, checkNamespaces := false }

/-- The resolution of the document. -/
def sharedResolution : Resolution :=
  .ofAccessPoint sharedDocument sharedOptions sharedIed
    ⟨"A", some ⟨[⟨"LD1", none, none, some sharedNode, []⟩,
      ⟨"LD2", none, none, some sharedNode, []⟩]⟩⟩

theorem node?_sharedResolution : ∃ n, sharedResolution.model.node? 3 = some n ∧
    n.name = "LLN0" ∧ n.kind = .logicalNode sharedNode none ∧ n.parent = some 2 :=
  ⟨_, rfl, rfl, rfl, rfl⟩

/-- The logical node of the second logical device is written with the entry of the first one. -/
theorem controls_written_by_name_shared :
    resolve sharedDocument "E" none sharedOptions = .ok sharedResolution ∧
    ∃ parts t, HasBlock (emit sharedDocument sharedResolution {} none).text "LD2" "LLN0" parts ∧
      parts.filter (·.tag ∈ ["GC"]) = [t] ∧
      t.lines = ["GC(gcb null null 0 0 10 0)\x7b", "PA(4 0 3001 010CCD010001);", "\x7d"] := by
  have hres : resolve sharedDocument "E" none sharedOptions = .ok sharedResolution := rfl
  obtain ⟨i, a, gse, smv, hi, ha, hgse, -, hln, -⟩ := controls_written_by_name hres {}
  obtain rfl : sharedIed = i := Option.some.inj hi
  obtain rfl := Option.some.inj ha
  obtain ⟨n, hn, hname, hkind, hparent⟩ := node?_sharedResolution
  obtain ⟨dev, inst, parts, hdev, hinst, hblock, hcontrols, -⟩ := hln hn hkind
  obtain rfl : 2 = dev := Option.some.inj (hparent.symm.trans hdev)
  obtain rfl : "LD2" = inst := Option.some.inj hinst
  have hfirst : some (sharedEntry "LD1" "01-0C-CD-01-00-01" "10") = gse "gcb" :=
    firstNamed_iff.mp (hgse "gcb")
  obtain ⟨t, rest, hshown, hrest, hparts⟩ := List.forall₂_cons_left_iff.mp hcontrols
  cases hrest
  refine ⟨hres, parts, t, hname ▸ hblock, hparts, ?_⟩
  rw [gseShown_iff.mp hshown, show gse sharedControl.name = gse "gcb" from rfl, ← hfirst]
  decide +kernel

/-- The block on the second logical device is not written with the times and the address of the
entry for it: no block is. -/
theorem controls_not_written_by_device :
    resolve sharedDocument "E" none sharedOptions = .ok sharedResolution ∧
    ∃ n, sharedResolution.model.node? 3 = some n ∧ n.kind = .logicalNode sharedNode none ∧
      n.parent = some 2 ∧ sharedResolution.model.inst? 2 = some "LD2" ∧
      ∀ e lines, MeantFor (·.cbName) (·.ldInst) "gcb" "LD2" (gseEntries sharedDocument "A" "E") e →
        GseShown .standard e sharedControl lines →
        ¬ lines <:+: (sharedResolution.statement sharedDocument {}).layout.lines := by
  obtain ⟨n, hn, -, hkind, hparent⟩ := node?_sharedResolution
  refine ⟨rfl, n, hn, hkind, hparent, rfl, ?_⟩
  intro e lines he hshown hlines
  rw [gseShown_iff.mp hshown] at hlines
  cases e with
  | none => exact he (sharedEntry "LD2" "01-0C-CD-01-00-02" "20") (by decide) rfl rfl
  | some e =>
    obtain ⟨hmem, -, hdevice⟩ := he
    rcases List.mem_pair.mp hmem with rfl | rfl
    · exact absurd hdevice (by decide)
    · have haddress := hlines.subset
        (show "PA(4 0 3001 010CCD010002);" ∈ _ by decide +kernel)
      exact absurd haddress (by decide +kernel)

end Substation
