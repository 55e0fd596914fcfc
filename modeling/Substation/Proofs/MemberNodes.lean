import Mathlib.Data.List.Basic
import Mathlib.Tactic.Common
import Substation.Model.MemberCheck
import Substation.Proofs.References

/-!
# Nodes that members of data sets mean

A member of a data set names a logical device by its instance name, a logical node below it
(`Fcda.MeansNode`), and by the segments of `doName` and `daName` something below that. The names of
nodes on the way down are followed by `Branch.Reaches`, and by `Branch.ReachesVia` where all of
these nodes have to be of one kind. Both can be computed (`Branch.ends`, `Fcda.nodes`).
-/

namespace Substation

open Substation.Config
open Substation.Model
open Substation.Text

theorem Model.IedModel.inst?_eq_some_iff {m : IedModel} {id : Nat} {inst : String} :
    m.inst? id = some inst ↔ ∃ n space, m.node? id = some n ∧ n.kind = .device inst space := by
  unfold IedModel.inst?
  constructor
  · intro h
    split at h
    · rename_i inst' space hkind
      obtain ⟨n, hn, hk⟩ := Option.map_eq_some_iff.mp hkind
      exact ⟨n, space, hn, by rw [hk, Option.some.inj h]⟩
    · exact absurd h (by simp)
  · rintro ⟨n, space, hn, hk⟩
    rw [hn, Option.map_some, hk]

namespace Model.Branch

variable {m : IedModel} {dev : Branch}

/-- A logical device is listed, and found under its instance name. -/
theorem Stands.of_device (hm : m.Lawful) (hdev : dev.Stands m) {inst : String}
    {space : Option Namespace} (hkind : dev.node.kind = .device inst space) :
    dev.id ∈ m.devices ∧ m.inst? dev.id = some inst := by
  have htop : dev.node.parent = none :=
    (hm.parent_eq_none_iff hdev.node?).mpr (by rw [hkind]; rfl)
  exact ⟨(hm.of_parent_eq_none hdev.node? htop).1,
    IedModel.inst?_eq_some_iff.mpr ⟨dev.node, space, hdev.node?, hkind⟩⟩

theorem Stands.mem_logicalNodes_iff (hdev : dev.Stands m) {id : Nat} :
    id ∈ m.logicalNodes dev.id ↔ ∃ b ∈ dev.branches, b.node.kind.isLogicalNode ∧ b.id = id := by
  rw [IedModel.logicalNodes, List.mem_filter, IedModel.children_eq hdev.node?, hdev.children]
  have hkind : ∀ b ∈ dev.branches,
      m.satisfies (·.kind.isLogicalNode) b.id = b.node.kind.isLogicalNode := by
    intro b hb
    rw [IedModel.satisfies, (hdev.of_mem hb).node?]
    rfl
  constructor
  · rintro ⟨hid, hk⟩
    obtain ⟨b, hb, rfl⟩ := List.mem_map.mp hid
    exact ⟨b, hb, hkind b hb ▸ hk, rfl⟩
  · rintro ⟨b, hb, hk, rfl⟩
    exact ⟨List.mem_map_of_mem hb, (hkind b hb).trans hk⟩

end Model.Branch

namespace Config.Fcda

/-- The names of data objects that lead from the logical node. -/
def objectNames (f : Fcda) : List String := (f.doName.map (segments '.')).getD []

/-- The names of attributes that lead on from there. -/
def leafNames (f : Fcda) : List String := (f.daName.map (segments '.')).getD []

/-- The branch is a logical node of the name and on a logical device of the instance name that the
member gives. -/
def MeansNode (m : IedModel) (f : Fcda) (ln : Branch) : Prop :=
  ∃ (dev : Branch) (inst : String) (space : Option Namespace), dev.Stands m ∧
    dev.node.kind = .device inst space ∧ f.ldInst = some inst ∧ ln ∈ dev.branches ∧
    ln.node.kind.isLogicalNode ∧ ln.name = f.lnName

end Config.Fcda

namespace Model.Branch

variable {b c : Branch} {names : List String}

/-- The names lead from the first branch down to the second one, through nodes of a kind. -/
inductive ReachesVia (p : NodeKind → Bool) : Branch → List String → Branch → Prop
  | refl (b : Branch) : ReachesVia p b [] b
  | step {b c d : Branch} {names : List String} (hc : c ∈ b.branches) (hk : p c.node.kind)
      (h : ReachesVia p c names d) : ReachesVia p b (c.name :: names) d

variable {p : NodeKind → Bool}

theorem ReachesVia.reaches (h : b.ReachesVia p names c) : b.Reaches names c := by
  induction h with
  | refl b => exact .refl b
  | step hc _ _ ih => exact .step hc ih

theorem Reaches.via (h : b.Reaches names c) : b.ReachesVia (fun _ => true) names c := by
  induction h with
  | refl b => exact .refl b
  | step hc _ ih => exact .step hc rfl ih

/-- Where names lead to, through nodes of a kind. -/
def ends (p : NodeKind → Bool) : List String → Branch → List Branch
  | [], b => [b]
  | name :: names, b =>
    (b.branches.filter fun c => c.name = name ∧ p c.node.kind).flatMap (ends p names)

theorem mem_ends : c ∈ ends p names b ↔ b.ReachesVia p names c := by
  induction names generalizing b with
  | nil =>
    rw [ends, List.mem_singleton]
    constructor
    · rintro rfl
      exact .refl _
    · intro h
      cases h
      rfl
  | cons name names ih =>
    rw [ends, List.mem_flatMap]
    constructor
    · rintro ⟨d, hd, h⟩
      obtain ⟨hmem, hprop⟩ := List.mem_filter.mp hd
      obtain ⟨rfl, hk⟩ := of_decide_eq_true hprop
      exact .step hmem hk (ih.mp h)
    · intro h
      cases h with
      | step hd hk h => exact ⟨_, List.mem_filter.mpr ⟨hd, decide_eq_true ⟨rfl, hk⟩⟩, ih.mpr h⟩

end Model.Branch

namespace Config.Fcda

variable {m : IedModel} {f : Fcda} {ln : Branch}

theorem MeansNode.stands (h : f.MeansNode m ln) : ln.Stands m := by
  obtain ⟨dev, -, -, hdev, -, -, hmem, -⟩ := h
  exact hdev.of_mem hmem

theorem MeansNode.isDevice_eq_false (h : f.MeansNode m ln) : ln.node.kind.isDevice = false := by
  obtain ⟨dev, -, -, -, -, -, -, hk, -⟩ := h
  exact NodeKind.isDevice_eq_false hk

/-- The logical nodes of the name, on the logical devices of the instance name. -/
def nodes (m : IedModel) (f : Fcda) : List Branch :=
  ((m.devices.filter fun d => m.inst? d ≠ none ∧ m.inst? d = f.ldInst).filterMap m.branch?).flatMap
    fun dev => dev.branches.filter fun ln => ln.node.kind.isLogicalNode ∧ ln.name = f.lnName

theorem mem_nodes (hm : m.Lawful) : ln ∈ f.nodes m ↔ f.MeansNode m ln := by
  constructor
  · intro h
    obtain ⟨dev, hdev, h⟩ := List.mem_flatMap.mp h
    obtain ⟨id, hid, hdev⟩ := List.mem_filterMap.mp hdev
    obtain ⟨-, hprop⟩ := List.mem_filter.mp hid
    obtain ⟨hne, heq⟩ := of_decide_eq_true hprop
    obtain ⟨hmem, hprop⟩ := List.mem_filter.mp h
    obtain ⟨hk, hname⟩ := of_decide_eq_true hprop
    obtain ⟨inst, hinst⟩ := Option.ne_none_iff_exists'.mp hne
    obtain ⟨n, space, hn, hkind⟩ := IedModel.inst?_eq_some_iff.mp hinst
    obtain ⟨hstands, rfl⟩ := (Branch.branch?_eq_some_iff hm.forest).mp hdev
    obtain rfl : dev.node = n := Option.some.inj (hstands.node?.symm.trans hn)
    exact ⟨dev, inst, space, hstands, hkind, heq ▸ hinst, hmem, hk, hname⟩
  · rintro ⟨dev, inst, space, hdev, hkind, hld, hmem, hk, hname⟩
    obtain ⟨hid, hinst⟩ := hdev.of_device hm hkind
    refine List.mem_flatMap.mpr ⟨dev, List.mem_filterMap.mpr ⟨dev.id, ?_, hdev.branch?⟩, ?_⟩
    · refine List.mem_filter.mpr ⟨hid, decide_eq_true ⟨?_, ?_⟩⟩
      · rw [hinst]
        exact Option.some_ne_none inst
      · rw [hinst, hld]
    · exact List.mem_filter.mpr ⟨hmem, decide_eq_true ⟨hk, hname⟩⟩

/-- The names of the member lead from one of its logical nodes to some node, whatever the kinds of
the nodes on the way. -/
def Leads (m : IedModel) (f : Fcda) : Prop :=
  ∃ ln c, f.MeansNode m ln ∧ ln.Reaches (f.objectNames ++ f.leafNames) c

theorem leads_iff (hm : m.Lawful) : f.Leads m ↔
    ∃ ln ∈ f.nodes m, ln.ends (fun _ => true) (f.objectNames ++ f.leafNames) ≠ [] := by
  constructor
  · rintro ⟨ln, c, hln, hc⟩
    exact ⟨ln, (mem_nodes hm).mpr hln, List.ne_nil_of_mem (Branch.mem_ends.mpr hc.via)⟩
  · rintro ⟨ln, hln, hne⟩
    obtain ⟨c, hc⟩ := List.exists_mem_of_ne_nil _ hne
    exact ⟨ln, c, (mem_nodes hm).mp hln, (Branch.mem_ends.mp hc).reaches⟩

end Config.Fcda

end Substation
