import Mathlib.Data.List.Basic
import Mathlib.Tactic.Common
import Substation.Emission.Statements
import Substation.Proofs.Lawful

/-!
# Models with changed nodes

A function on nodes changes a model node by node. If it leaves the links alone, the changed model is
cut into the changed branches (`branch?_mapNodes`), and if it also leaves data objects and
attributes alone, their statements are those of the model (`nodeData_mapNodes`).
-/

namespace Substation.Model

variable {m : IedModel} {f : Node → Node}

/-- A change of nodes that leaves their links alone, and of data objects and attributes also the
name and the kind. -/
structure Node.Spares (f : Node → Node) : Prop where
  parent : ∀ n, (f n).parent = n.parent
  children : ∀ n, (f n).children = n.children
  isDevice : ∀ n, (f n).kind.isDevice = n.kind.isDevice
  isLogicalNode : ∀ n, (f n).kind.isLogicalNode = n.kind.isLogicalNode
  data : ∀ n, n.kind.isDevice = false → n.kind.isLogicalNode = false →
    (f n).name = n.name ∧ (f n).kind = n.kind

namespace Node.Spares

variable (hf : Node.Spares f)
include hf

/-- A property of kinds that only data objects and attributes may have. -/
theorem kind {p : NodeKind → Bool} (hdevice : ∀ inst space, p (.device inst space) = false)
    (hnode : ∀ config space, p (.logicalNode config space) = false) (n : Node) :
    p (f n).kind = p n.kind := by
  have hup := hf.isDevice n
  have hln := hf.isLogicalNode n
  cases hkind : n.kind with
  | device inst space =>
    rw [hkind] at hup
    obtain ⟨inst', space', hkind'⟩ := NodeKind.exists_of_isDevice hup
    rw [hkind', hdevice, hdevice]
  | logicalNode config space =>
    rw [hkind] at hln
    obtain ⟨config', space', hkind'⟩ := NodeKind.exists_of_isLogicalNode hln
    rw [hkind', hnode, hnode]
  | _ =>
    rw [(hf.data n (by rw [hkind]; rfl) (by rw [hkind]; rfl)).2, hkind]

theorem isObject (n : Node) : (f n).kind.isObject = n.kind.isObject :=
  hf.kind (fun _ _ => rfl) (fun _ _ => rfl) n

theorem isLeaf (n : Node) : (f n).kind.isLeaf = n.kind.isLeaf :=
  hf.kind (fun _ _ => rfl) (fun _ _ => rfl) n

end Node.Spares

/-! ## Tables -/

namespace IedModel

/-- The model with every node changed. -/
def mapNodes (f : Node → Node) (m : IedModel) : IedModel := { m with nodes := m.nodes.map f }

theorem node?_mapNodes (id : Nat) : (m.mapNodes f).node? id = (m.node? id).map f :=
  Array.getElem?_map

theorem size_mapNodes : (m.mapNodes f).size = m.size := Array.size_map

theorem satisfies_mapNodes {p : Node → Bool} (h : ∀ n, p (f n) = p n) (id : Nat) :
    (m.mapNodes f).satisfies p id = m.satisfies p id := by
  unfold satisfies
  rw [node?_mapNodes]
  cases m.node? id with
  | none => rfl
  | some n => exact h n

theorem parent?_mapNodes (hf : ∀ n, (f n).parent = n.parent) (id : Nat) :
    (m.mapNodes f).parent? id = m.parent? id := by
  unfold parent?
  rw [node?_mapNodes]
  cases m.node? id with
  | none => rfl
  | some n => exact hf n

theorem topObject?_mapNodes (hf : Node.Spares f) (id : Nat) :
    (m.mapNodes f).topObject? id = m.topObject? id := by
  induction id using Nat.strongRecOn with
  | ind id ih =>
    conv_lhs => rw [topObject?]
    conv_rhs => rw [topObject?]
    rw [node?_mapNodes]
    cases m.node? id with
    | none => rfl
    | some n =>
      simp only [Option.map_some, hf.parent, hf.isObject]
      cases n.parent with
      | none => rfl
      | some up =>
        simp only [satisfies_mapNodes (p := (·.kind.isLogicalNode)) hf.isLogicalNode up]
        split
        · rfl
        · split
          · exact ih up ‹_›
          · rfl

end IedModel

/-! ## Branches -/

namespace Branch

mutual

/-- The branch with every node changed. -/
def mapNodes (f : Node → Node) : Branch → Branch
  | mk id node branches => mk id (f node) (mapNodesAll f branches)

/-- Several branches with every node changed. -/
def mapNodesAll (f : Node → Node) : List Branch → List Branch
  | [] => []
  | b :: bs => mapNodes f b :: mapNodesAll f bs

end

theorem mapNodesAll_eq_map (bs : List Branch) : mapNodesAll f bs = bs.map (mapNodes f) := by
  induction bs with
  | nil => rfl
  | cons b bs ih => rw [mapNodesAll, ih, List.map_cons]

variable {b : Branch}

theorem id_mapNodes (b : Branch) : (b.mapNodes f).id = b.id := by
  cases b
  rfl

theorem node_mapNodes (b : Branch) : (b.mapNodes f).node = f b.node := by
  cases b
  rfl

theorem branches_mapNodes (b : Branch) : (b.mapNodes f).branches = b.branches.map (mapNodes f) := by
  cases b
  exact mapNodesAll_eq_map _

theorem Stands.mapNodes (hf : ∀ n, (f n).children = n.children) (h : b.Stands m) :
    (b.mapNodes f).Stands (m.mapNodes f) := by
  induction h with
  | @mk id node branches hn hc hlt _ ih =>
    rw [Branch.mapNodes, mapNodesAll_eq_map]
    refine .mk ?_ ?_ ?_ ?_
    · rw [IedModel.node?_mapNodes, hn]
      rfl
    · rw [List.map_map, hf, hc]
      exact List.map_congr_left fun b _ => b.id_mapNodes.symm
    · rw [List.forall_mem_map]
      exact fun b hb => b.id_mapNodes.symm ▸ hlt b hb
    · rw [List.forall_mem_map]
      exact ih

end Branch

theorem IedModel.branch?_mapNodes (hm : m.Forest) (hf : ∀ n, (f n).children = n.children)
    (id : Nat) : (m.mapNodes f).branch? id = (m.branch? id).map (Branch.mapNodes f) := by
  by_cases hid : id < m.size
  · obtain ⟨b, hb, rfl⟩ := Branch.exists_stands hm hid
    have hmapped := (hb.mapNodes hf).branch?
    rw [Branch.id_mapNodes] at hmapped
    rw [hb.branch?, hmapped, Option.map_some]
  · have hnone {m' : IedModel} (hsize : m'.size = m.size) : m'.branch? id = none := by
      have hnode : m'.node? id = none :=
        IedModel.node?_eq_none_iff.mpr (hsize ▸ Nat.le_of_not_lt hid)
      rw [branch?]
      split
      · rfl
      · next n hn => exact absurd (hnode.symm.trans hn) (by simp)
    rw [hnone rfl, hnone size_mapNodes, Option.map_none]

end Substation.Model

namespace Substation.Emission

open Substation.Model
open Substation.Template (AttributeDef)

/-! ## Statements -/

variable {f : Node → Node} (lit : Nat → AttributeDef → Option String)

mutual

theorem dataStatement?_mapNodes (hf : Node.Spares f) (transient : Bool) : ∀ b : Branch,
    dataStatement? lit transient (b.mapNodes f) = dataStatement? lit transient b
  | .mk id node branches => by
    rw [Branch.mapNodes, dataStatement?, dataStatement?]
    cases hkind : node.kind with
    | object count type own =>
      obtain ⟨hname, hsame⟩ := hf.data node (by rw [hkind]; rfl) (by rw [hkind]; rfl)
      simp only [hsame, hkind, hname, objectParts_mapNodes hf]
    | leaf fc a =>
      obtain ⟨hname, hsame⟩ := hf.data node (by rw [hkind]; rfl) (by rw [hkind]; rfl)
      simp only [hsame, hkind, hname, groupParts_mapNodes hf, LeafFields.ofNode]
    | device =>
      obtain ⟨inst, space, hsame⟩ :=
        NodeKind.exists_of_isDevice (show (f node).kind.isDevice by rw [hf.isDevice, hkind]; rfl)
      rw [hsame]
    | logicalNode =>
      obtain ⟨config, space, hsame⟩ := NodeKind.exists_of_isLogicalNode
        (show (f node).kind.isLogicalNode by rw [hf.isLogicalNode, hkind]; rfl)
      rw [hsame]

theorem objectParts_mapNodes (hf : Node.Spares f) (transient : Bool) : ∀ bs : List Branch,
    objectParts lit transient (Branch.mapNodesAll f bs) = objectParts lit transient bs
  | [] => rfl
  | b :: bs => by
    rw [Branch.mapNodesAll, objectParts, objectParts, dataStatement?_mapNodes hf,
      objectParts_mapNodes hf]

theorem groupParts_mapNodes (hf : Node.Spares f) (transient : Bool) : ∀ bs : List Branch,
    groupParts lit transient (Branch.mapNodesAll f bs) = groupParts lit transient bs
  | [] => rfl
  | b :: bs => by
    rw [Branch.mapNodesAll, groupParts, groupParts, dataStatement?_mapNodes hf,
      groupParts_mapNodes hf, Branch.node_mapNodes, hf.isLeaf]

end

/-- The statements of the data of a logical node are those of the changed one. -/
theorem nodeData_mapNodes (hf : Node.Spares f) (ln : Branch) :
    nodeData lit (ln.mapNodes f) = nodeData lit ln := by
  rw [nodeData, nodeData, Branch.branches_mapNodes, List.filter_map, List.filterMap_map]
  refine congrArg₂ List.filterMap (funext fun b => ?_) (List.filter_congr fun b _ => ?_)
  · exact dataStatement?_mapNodes lit hf false b
  · rw [Function.comp_apply, Branch.node_mapNodes, hf.isObject]

end Substation.Emission
