import Mathlib.Data.List.Basic
import Mathlib.Tactic.Common
import Substation.Proofs.EmittedBlocks
import Substation.Proofs.MemberNodes
import Substation.Proofs.Topics

/-!
# What a resolution says about members of data sets

Members of data sets are looked at once, after the model was built. What is found about them then
stays in the journal, and nothing else in the journal is about them: neither the expansion of types
nor the checks of logical nodes and of addresses find anything about a member
(`unknownMember_mem_journal_iff`). The members that are looked at are those of the logical nodes of
the model (`mem_memberFindings`).
-/

namespace Substation

open Substation.Config
open Substation.Journal
open Substation.Model
open Substation.Template

/-! ## Members in the journal -/

namespace Resolution

variable (d : Document) (o : ResolveOptions) (i : Ied) (a : AccessPoint)

/-- **What the journal says about members** is what the check of members has found in the model. -/
theorem unknownMember_mem_journal_iff (set member : String) :
    .finding (.unknownMember set member) ∈ (ofAccessPoint d o i a).journal ↔ o.checkMembers ∧
      .unknownMember set member ∈ memberFindings d.registry (ofAccessPoint d o i a).model := by
  obtain ⟨n, hjournal⟩ := exists_journal_ofAccessPoint d o i a
  -- nothing else is about members, neither before nor after
  have hbuilt : .finding (.unknownMember set member) ∉ (built d o i a).journal.toList := by
    intro h
    exact absurd (about_built d o i a _ h) (by decide : Topic.member ∉ builtTopics)
  have hconnection : .finding (.unknownMember set member) ∉
      connectionEntries ⟨i.name, a.name⟩ (d.connectedAp? a.name i.name) := by
    intro h
    exact absurd (about_connectionEntries _ _ _ h) (by decide : Topic.member ∉ [Topic.address])
  have hnote : Entry.finding (.unknownMember set member) ∉ [.note n] := by simp
  rw [hjournal, List.mem_append, or_iff_right hbuilt, List.mem_append, or_iff_left hnote,
    List.mem_append, or_iff_left hconnection, model_ofAccessPoint]
  unfold memberEntries
  split
  · next hcheck => simp [hcheck]
  · next hcheck => simp [hcheck]

end Resolution

/-! ## Members of the model -/

namespace Model

/-- The logical nodes of the model have a data set of that reference with that member. -/
def IedModel.Lists (m : IedModel) (set : String) (f : Fcda) : Prop :=
  ∃ (b : Branch) (config : LogicalNode) (ds : DataSet), b.Stands m ∧
    b.node.kind.config? = some config ∧ ds ∈ config.dataSets ∧ f ∈ ds.members ∧
    set = b.ref ++ "." ++ ds.name

variable {r : Registry} {m : IedModel}

theorem mem_logicalNodes_iff (hm : m.Lawful) {id : Nat} :
    id ∈ m.devices.flatMap m.logicalNodes ↔
      ∃ b : Branch, b.Stands m ∧ b.node.kind.isLogicalNode ∧ b.id = id := by
  constructor
  · intro h
    obtain ⟨device, hdevice, h⟩ := List.mem_flatMap.mp h
    obtain ⟨dev, hdev, rfl⟩ :=
      Branch.exists_stands hm.forest (hm.forest.lt_size_of_mem_devices hdevice)
    obtain ⟨b, hb, hk, rfl⟩ := hdev.mem_logicalNodes_iff.mp h
    exact ⟨b, hdev.of_mem hb, hk, rfl⟩
  · rintro ⟨b, hb, hk, rfl⟩
    obtain ⟨config, space, hkind⟩ := NodeKind.exists_of_isLogicalNode hk
    obtain ⟨dev, inst, devSpace, hdev, hid, -, -, hmem⟩ := exists_device hm hb hkind
    exact List.mem_flatMap.mpr ⟨dev.id, hid, hdev.mem_logicalNodes_iff.mpr ⟨b, hmem, hk, rfl⟩⟩

/-- **The members that are looked at** are those of the data sets of logical nodes. -/
theorem mem_memberFindings (hm : m.Lawful) {set member : String} :
    .unknownMember set member ∈ memberFindings r m ↔
      ∃ f, m.Lists set f ∧ f.reference = member ∧ memberExists r m f = false := by
  constructor
  · intro h
    obtain ⟨id, hid, h⟩ := List.mem_flatMap.mp h
    obtain ⟨b, hb, hk, rfl⟩ := (mem_logicalNodes_iff hm).mp hid
    rw [hb.node?] at h
    obtain ⟨ds, hds, h⟩ := List.mem_flatMap.mp h
    obtain ⟨config, hconfig, hds⟩ := List.mem_flatMap.mp hds
    obtain ⟨f, hf, heq⟩ := List.mem_map.mp h
    obtain ⟨hf, hnot⟩ := List.mem_filter.mp hf
    obtain ⟨hset, hmember⟩ := Finding.unknownMember.inj heq
    exact ⟨f, ⟨b, config, ds, hb, Option.mem_toList.mp hconfig, hds, hf, hset.symm⟩, hmember,
      by simpa using hnot⟩
  · rintro ⟨f, ⟨b, config, ds, hb, hconfig, hds, hf, rfl⟩, rfl, hnot⟩
    have hk : b.node.kind.isLogicalNode := by
      rw [NodeKind.isLogicalNode_eq, hconfig]
      rfl
    refine List.mem_flatMap.mpr ⟨b.id, (mem_logicalNodes_iff hm).mpr ⟨b, hb, hk, rfl⟩, ?_⟩
    rw [hb.node?]
    refine List.mem_flatMap.mpr ⟨ds, ?_, ?_⟩
    · exact List.mem_flatMap.mpr ⟨config, Option.mem_toList.mpr hconfig, hds⟩
    · exact List.mem_map.mpr ⟨f, List.mem_filter.mpr ⟨hf, by rw [hnot]; rfl⟩, rfl⟩

end Model

end Substation
