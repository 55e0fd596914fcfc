import Mathlib.Data.List.Basic
import Mathlib.Tactic.Common
import Substation.Proofs.Binding

/-!
# Logical nodes through the stages of a resolution

A resolution adds logical devices, plants logical nodes and sets namespaces. Below a logical node
there is no further one and no logical device, so none of these steps reaches into a logical node
that is already there: after each step a logical node is one that was there before, the one just
planted, or, if a namespace was set, one that differs from the old one in its namespace alone
(`Branch.Alike`).

With this, what holds of every logical node when it is planted holds of every logical node of a
resolved model (`Stage.forall_logicalNode`).
-/

namespace Substation.Model

open Substation.Config
open Substation.Template

variable {m m' : IedModel} {b b' c : Branch}

theorem NodeKind.isLogicalNode_eq (kind : NodeKind) :
    kind.isLogicalNode = kind.config?.isSome := by
  cases kind <;> rfl

namespace Branch

/-! ## Below a logical node -/

theorem Reaches.kind (hm : m.Lawful) (hb : b.Stands m) (hk : b.node.kind.isDevice = false)
    {names : List String} (hr : b.Reaches names c) :
    c = b ∨ c.node.kind.isDevice = false ∧ c.node.kind.isLogicalNode = false := by
  induction hr with
  | refl b => exact Or.inl rfl
  | @step b c d names hc _ ih =>
    have hadmits := (hb.law_of_mem hm hc).1
    have hdevice := hadmits.isDevice_eq_false
    right
    rcases ih (hb.of_mem hc) hdevice with rfl | h
    · exact ⟨hdevice, hadmits.isLogicalNode_eq_false hk⟩
    · exact h

/-- Below a logical node there is neither a logical device nor a logical node. -/
theorem Stands.kind_of_mem_branches (hm : m.Lawful) (hb : b.Stands m)
    (hk : b.node.kind.isDevice = false) (hc : c ∈ b.branches) :
    ∀ d ∈ c.preorder, d.node.kind.isDevice = false ∧ d.node.kind.isLogicalNode = false := by
  intro d hd
  obtain ⟨hadmits, -⟩ := hb.law_of_mem hm hc
  obtain ⟨names, hr⟩ := mem_preorder_iff.mp hd
  rcases hr.kind hm (hb.of_mem hc) hadmits.isDevice_eq_false with rfl | h
  · exact ⟨hadmits.isDevice_eq_false, hadmits.isLogicalNode_eq_false hk⟩
  · exact h

/-- A branch stands wherever its own nodes are the same. -/
theorem Stands.congr (h : b.Stands m) (hm : ∀ c ∈ b.preorder, m'.node? c.id = m.node? c.id) :
    b.Stands m' := by
  induction h with
  | @mk id node branches hn hc hlt hb ih =>
    refine .mk ((hm _ (self_mem_preorder _)).trans hn) hc hlt fun d hd => ih d hd ?_
    exact fun c hcd => hm c (mem_preorder_of_mem_branches hd hcd)

/-! ## The steps of a resolution -/

/-- The branches differ at most in the namespace at the top. -/
structure Alike (b b' : Branch) : Prop where
  id : b'.id = b.id
  ref : b'.ref = b.ref
  name : b'.name = b.name
  config : b'.node.kind.config? = b.node.kind.config?
  branches : b'.branches = b.branches

theorem Alike.refl (b : Branch) : Alike b b := ⟨rfl, rfl, rfl, rfl, rfl⟩

theorem Alike.trans (h : Alike b b') (h' : Alike b' c) : Alike b c :=
  ⟨h'.id.trans h.id, h'.ref.trans h.ref, h'.name.trans h.name, h'.config.trans h.config,
    h'.branches.trans h.branches⟩

theorem Alike.isLogicalNode (h : Alike b b') :
    b'.node.kind.isLogicalNode = b.node.kind.isLogicalNode := by
  rw [NodeKind.isLogicalNode_eq, NodeKind.isLogicalNode_eq, h.config]

/-- A logical node of a table with a logical device more. -/
theorem stands_of_addDevice (hm : m.Forest) {name inst : String}
    (hb : b.Stands (m.addDevice name inst)) (hk : b.node.kind.isLogicalNode) : b.Stands m := by
  have hn := hb.node?
  rw [IedModel.node?_addDevice] at hn
  split at hn
  · -- the new node is a logical device
    rw [← Option.some.inj hn] at hk
    exact absurd hk Bool.false_ne_true
  · obtain ⟨b₀, hb₀, hid⟩ := exists_stands hm (IedModel.lt_size_of_node? hn)
    have hstays : b₀.Stands (m.addDevice name inst) := hb₀.frame fun id _ hid => by
      rw [IedModel.node?_addDevice, if_neg (Nat.ne_of_lt hid)]
    rwa [← hstays.unique hb hid]

section Plant

variable (hm : m.Lawful) {device : Nat} {d : Node} (hd : m.node? device = some d)
  (hdk : d.kind.isDevice) {s : Sprout}
include hm hd hdk

/-- An old logical node of a table in which one was planted below a logical device. -/
theorem stands_of_plant_of_lt (hb : b.Stands (m.plant device s)) (hk : b.node.kind.isLogicalNode)
    (hid : b.id < m.size) : b.Stands m := by
  have hgains := IedModel.plant_gains hd s
  obtain ⟨b₀, hb₀, hid₀⟩ := exists_stands hm.forest hid
  have hne : b₀.id ≠ device := by
    intro heq
    have hn := hb.node?
    rw [← hid₀, heq, hgains.adopted] at hn
    rw [← Option.some.inj hn] at hk
    obtain ⟨inst, space, hkind⟩ := NodeKind.exists_of_isDevice hdk
    rw [show d.kind.isLogicalNode = false by rw [hkind]; rfl] at hk
    exact Bool.false_ne_true hk
  have hnode : b₀.node = b.node := by
    have hn := hb.node?
    rw [← hid₀, hgains.others _ (hid₀ ▸ hid) hne, hb₀.node?] at hn
    exact Option.some.inj hn
  have hdevice : b₀.node.kind.isDevice = false :=
    NodeKind.isDevice_eq_false (hnode ▸ hk)
  -- the device, whose children changed, does not lie in the old logical node
  have hstays : b₀.Stands (m.plant device s) := hb₀.congr fun c hc => by
    have hstands := (hb₀.of_mem_preorder c hc).1
    refine hgains.others c.id (IedModel.lt_size_of_node? hstands.node?) fun heq => ?_
    have hcd : c.node = d := Option.some.inj (hstands.node?.symm.trans (heq ▸ hd))
    rcases mem_preorder.mp hc with rfl | hc
    · exact hne heq
    · obtain ⟨e, he, hc⟩ := mem_descendants.mp hc
      have hnot := (hb₀.kind_of_mem_branches hm hdevice he c hc).1
      rw [hcd, hdk] at hnot
      exact Bool.false_ne_true hnot.symm
  rwa [← hstays.unique hb hid₀]

omit hdk in
/-- A new one is the one that was planted, since there is none below it. -/
theorem eq_grown_of_plant (hs : s.Under d.kind) (hb : b.Stands (m.plant device s))
    (hk : b.node.kind.isLogicalNode) (hid : m.size ≤ b.id) :
    b = s.grown device (d.ref ++ d.kind.separator) m.size := by
  have hgains := IedModel.plant_gains hd s
  have hlaw : (m.plant device s).Lawful := hm.plant hd hs
  have hgrown := hgains.stands _ (List.mem_singleton.mpr rfl)
  have hmem : b.id ∈ (s.grown device (d.ref ++ d.kind.separator) m.size).preorder.map id := by
    have hlt := IedModel.lt_size_of_node? hb.node?
    rw [hgains.size] at hlt
    rw [Sprout.ids_grown, List.mem_range'_1]
    exact ⟨hid, hlt⟩
  obtain ⟨c, hc, hcb⟩ := List.mem_map.mp hmem
  obtain rfl := (hgrown.of_mem_preorder c hc).1.unique hb hcb
  rcases mem_preorder.mp hc with rfl | hc
  · rfl
  · obtain ⟨e, he, hc⟩ := mem_descendants.mp hc
    have htop : (s.grown device (d.ref ++ d.kind.separator) m.size).node.kind.isDevice = false := by
      cases s with
      | mk name kind parts => exact hs.1.isDevice_eq_false
    have hnot := (hgrown.kind_of_mem_branches hlaw htop he c hc).2
    rw [hk] at hnot
    exact Bool.noConfusion hnot

/-- A logical node of a table in which one was planted below a logical device. -/
theorem stands_of_plant (hs : s.Under d.kind) (hb : b.Stands (m.plant device s))
    (hk : b.node.kind.isLogicalNode) :
    b.Stands m ∨ b = s.grown device (d.ref ++ d.kind.separator) m.size :=
  (Nat.lt_or_ge b.id m.size).imp (stands_of_plant_of_lt hm hd hdk hb hk)
    (eq_grown_of_plant hm hd hs hb hk)

end Plant

/-- The top of a branch when the namespace of the node `target` was set. -/
def spaced (target : Nat) (space : Namespace) (b : Branch) : Node :=
  if b.id = target then { b.node with kind := b.node.kind.withSpace space } else b.node

section Spaced

variable (target : Nat) (space : Namespace) (b : Branch)

theorem children_spaced : (spaced target space b).children = b.node.children := by
  unfold spaced
  split <;> rfl

theorem ref_spaced : (spaced target space b).ref = b.node.ref := by
  unfold spaced
  split <;> rfl

theorem name_spaced : (spaced target space b).name = b.node.name := by
  unfold spaced
  split <;> rfl

theorem config?_spaced : (spaced target space b).kind.config? = b.node.kind.config? := by
  unfold spaced
  split
  · cases b.node.kind <;> rfl
  · rfl

theorem spaced_of_kind {b : Branch} (hdevice : b.node.kind.isDevice = false)
    (hnode : b.node.kind.isLogicalNode = false) : spaced target space b = b.node := by
  unfold spaced
  split
  · obtain ⟨i, ⟨name, ref, parent, children, kind⟩, bs⟩ := b
    cases kind with
    | device => exact Bool.noConfusion hdevice
    | logicalNode => exact Bool.noConfusion hnode
    | _ => rfl
  · rfl

theorem node?_setSpace_of_stands {b : Branch} (hb : b.Stands m) :
    (m.setSpace target space).node? b.id = some (spaced target space b) := by
  rw [IedModel.node?_setSpace, hb.node?, spaced]
  split <;> rfl

end Spaced

/-- A logical node of a table in which a namespace was set. -/
theorem exists_of_setSpace (hm : m.Lawful) {target : Nat} {space : Namespace}
    (hb : b.Stands (m.setSpace target space)) (hk : b.node.kind.isLogicalNode) :
    ∃ b₀ : Branch, b₀.Stands m ∧ Alike b₀ b := by
  have hlt := IedModel.lt_size_of_node? hb.node?
  rw [IedModel.size_setSpace] at hlt
  obtain ⟨b₀, hb₀, hid⟩ := exists_stands hm.forest hlt
  have hnode := node?_setSpace_of_stands target space hb₀
  have hkind₀ : b₀.node.kind.isLogicalNode := by
    have hn := hb.node?
    rw [← hid, hnode] at hn
    rw [← Option.some.inj hn] at hk
    rwa [NodeKind.isLogicalNode_eq, config?_spaced, ← NodeKind.isLogicalNode_eq] at hk
  have hstays : Stands (m.setSpace target space)
      (.mk b₀.id (spaced target space b₀) b₀.branches) := by
    refine .mk hnode ?_ (fun c hc => hb₀.id_lt hc) fun c hc => ?_
    · rw [children_spaced, hb₀.children]
    · -- objects and attributes have no namespace
      have hbelow := hb₀.kind_of_mem_branches hm (NodeKind.isDevice_eq_false hkind₀) hc
      refine (hb₀.of_mem hc).congr fun e he => ?_
      have he' := ((hb₀.of_mem hc).of_mem_preorder e he).1
      rw [node?_setSpace_of_stands target space he', he'.node?,
        spaced_of_kind target space (hbelow e he).1 (hbelow e he).2]
  obtain rfl := hstays.unique hb hid
  exact ⟨b₀, hb₀, rfl, ref_spaced .., name_spaced .., config?_spaced .., rfl⟩

end Branch

/-- **What holds of every logical node when it is planted, and does not depend on namespaces, holds
of every logical node of a resolution.** -/
theorem Stage.forall_logicalNode {r : Registry} {limit : Nat} {names : List String}
    {P : Branch → Prop}
    (hplant : ∀ (config : LogicalNode) (parent : Nat) (stem : String) (id : Nat),
      P ((nodeSprout r limit limit (stem ++ config.name) config).grown parent stem id))
    (halike : ∀ b b', Branch.Alike b b' → P b → P b') (h : Stage r limit names m) :
    ∀ b : Branch, b.Stands m → b.node.kind.isLogicalNode → P b := by
  induction h with
  | empty name =>
    intro b hb
    exact absurd (IedModel.lt_size_of_node? hb.node?) (Nat.not_lt_zero _)
  | device h name inst ih =>
    exact fun b hb hk => ih b (Branch.stands_of_addDevice h.lawful.forest hb hk) hk
  | node h hd hdk config ih =>
    intro b hb hk
    rcases Branch.stands_of_plant h.lawful hd hdk (nodeSprout_under hdk _ _ _ _) hb hk with hb | rfl
    · exact ih b hb hk
    · exact hplant config _ _ _
  | space h id space ih =>
    intro b hb hk
    obtain ⟨b₀, hb₀, hb⟩ := Branch.exists_of_setSpace h.lawful hb hk
    exact halike b₀ b hb (ih b₀ hb₀ (hb.isLogicalNode ▸ hk))

end Substation.Model
