import Mathlib.Algebra.BigOperators.Group.List.Basic
import Mathlib.Tactic.Common
import Substation.Proofs.Binding

/-!
# What stands above a node

`above` lists the nodes above a node, nearest first, and `enclosing` their kinds. How often a node
is written in the static model depends on the arrays among them (`repetitions`), and whether an
attribute is marked as transient depends on the data objects among them (`inTransient`). One step
down multiplies the repetitions by the size of the array that is entered (`repetitions_of_mem`).
-/

namespace Substation.Model

namespace NodeKind

/-- The size of an array; 0 for a node that is none. -/
def arraySize : NodeKind → Nat
  | object count _ _ => count
  | leaf _ a => a.count
  | _ => 0

/-- Whether this is a transient data object. -/
def isTransient : NodeKind → Bool
  | object _ _ transient => transient
  | _ => false

/-- How many times what stands within a node is written for each time that the node is. -/
def factor (kind : NodeKind) : Nat := max 1 kind.arraySize

theorem factor_eq_one {kind : NodeKind} (hobject : kind.isObject = false)
    (hleaf : kind.isLeaf = false) : kind.factor = 1 := by
  cases kind with
  | object => exact absurd hobject (by simp [isObject])
  | leaf => exact absurd hleaf (by simp [isLeaf])
  | _ => rfl

theorem isTransient_of_isLogicalNode {kind : NodeKind} (h : kind.isLogicalNode) :
    kind.isTransient = false := by
  obtain ⟨config, space, rfl⟩ := exists_of_isLogicalNode h
  rfl

/-- An attribute admits attributes only. -/
theorem Admits.isLeaf_eq_false {up kind : NodeKind} (h : up.Admits kind)
    (hk : kind.isLeaf = false) : up.isLeaf = false := by
  cases up with
  | leaf =>
    cases kind with
    | leaf => exact absurd hk (by simp [isLeaf])
    | _ => exact h.elim
  | _ => rfl

/-- Attributes stand below attributes. -/
theorem Admits.isLeaf_of_isLeaf {up kind : NodeKind} (h : up.Admits kind) (hk : up.isLeaf) :
    kind.isLeaf := by
  cases up with
  | leaf => cases kind <;> first | rfl | exact h.elim
  | _ => exact absurd hk Bool.false_ne_true

/-- Data stands below anything but devices. -/
theorem Admits.isData {up kind : NodeKind} (h : up.Admits kind) (hk : up.isDevice = false) :
    (kind.isObject || kind.isLeaf) = true := by
  cases up with
  | device => exact absurd hk (by simp [isDevice])
  | _ => cases kind <;> first | rfl | exact h.elim

end NodeKind

namespace IedModel

/-- The nodes above a node, the nearest one first. -/
def above (m : IedModel) (id : Nat) : List Nat :=
  match m.parent? id with
  | none => []
  | some up => if up < id then up :: m.above up else []
termination_by id

/-- The kinds of the nodes above a node, the nearest one first. -/
def enclosing (m : IedModel) (id : Nat) : List NodeKind :=
  (m.above id).filterMap fun up => (m.node? up).map Node.kind

/-- How many times a node is written. -/
def repetitions (m : IedModel) (id : Nat) : Nat := ((m.enclosing id).map NodeKind.factor).prod

/-- Whether a node lies in a transient data object, at whatever depth. -/
def inTransient (m : IedModel) (id : Nat) : Bool := (m.enclosing id).any NodeKind.isTransient

variable {m : IedModel} {id p : Nat}

theorem above_of_parent?_eq_none (h : m.parent? id = none) : m.above id = [] := by
  rw [above, h]

theorem Forest.above_eq_cons (hm : m.Forest) (h : m.parent? id = some p) :
    m.above id = p :: m.above p := by
  rw [above, h]
  exact if_pos (hm.parent_lt h)

theorem enclosing_of_parent?_eq_none (h : m.parent? id = none) : m.enclosing id = [] := by
  rw [enclosing, above_of_parent?_eq_none h]
  rfl

theorem Forest.enclosing_eq_cons (hm : m.Forest) (h : m.parent? id = some p) {up : Node}
    (hup : m.node? p = some up) : m.enclosing id = up.kind :: m.enclosing p := by
  rw [enclosing, hm.above_eq_cons h, List.filterMap_cons, hup]
  rfl

/-- No data attribute stands above a node of another kind. -/
theorem Lawful.isLeaf_of_mem_enclosing (hm : m.Lawful) {n : Node} (hn : m.node? id = some n)
    (hk : n.kind.isLeaf = false) : ∀ k ∈ m.enclosing id, k.isLeaf = false := by
  induction id using Nat.strongRecOn generalizing n with
  | ind id ih =>
    cases hp : n.parent with
    | none =>
      rw [enclosing_of_parent?_eq_none (by rw [parent?_eq hn, hp])]
      exact List.forall_mem_nil _
    | some p =>
      obtain ⟨up, hup, hadmits, -⟩ := hm.of_parent_eq_some hn hp
      have hparent : m.parent? id = some p := by rw [parent?_eq hn, hp]
      have hkup := hadmits.isLeaf_eq_false hk
      rw [hm.forest.enclosing_eq_cons hparent hup]
      exact List.forall_mem_cons.mpr ⟨hkup, ih p (hm.forest.parent_lt hparent) hup hkup⟩

/-- Only its logical device stands above a logical node. -/
theorem Lawful.enclosing_of_isLogicalNode (hm : m.Lawful) {n : Node} (hn : m.node? id = some n)
    (hk : n.kind.isLogicalNode) : ∃ k, k.isDevice ∧ m.enclosing id = [k] := by
  cases hp : n.parent with
  | none =>
    have hdevice := (hm.parent_eq_none_iff hn).mp hp
    obtain ⟨config, space, hkind⟩ := NodeKind.exists_of_isLogicalNode hk
    rw [hkind] at hdevice
    exact absurd hdevice Bool.false_ne_true
  | some p =>
    obtain ⟨up, hup, hadmits, -⟩ := hm.of_parent_eq_some hn hp
    have hdevice := hadmits.isDevice_of_isLogicalNode hk
    have htop : m.parent? p = none := by
      rw [parent?_eq hup, (hm.parent_eq_none_iff hup).mpr hdevice]
    refine ⟨up.kind, hdevice, ?_⟩
    rw [hm.forest.enclosing_eq_cons (by rw [parent?_eq hn, hp]) hup,
      enclosing_of_parent?_eq_none htop]

/-- A logical node is written once. -/
theorem Lawful.repetitions_of_isLogicalNode (hm : m.Lawful) {n : Node} (hn : m.node? id = some n)
    (hk : n.kind.isLogicalNode) : m.repetitions id = 1 := by
  obtain ⟨k, hdevice, henclosing⟩ := hm.enclosing_of_isLogicalNode hn hk
  obtain ⟨inst, space, rfl⟩ := NodeKind.exists_of_isDevice hdevice
  rw [repetitions, henclosing, List.map_singleton, List.prod_singleton]
  rfl

theorem Lawful.inTransient_of_isLogicalNode (hm : m.Lawful) {n : Node} (hn : m.node? id = some n)
    (hk : n.kind.isLogicalNode) : m.inTransient id = false := by
  obtain ⟨k, hdevice, henclosing⟩ := hm.enclosing_of_isLogicalNode hn hk
  obtain ⟨inst, space, rfl⟩ := NodeKind.exists_of_isDevice hdevice
  rw [inTransient, henclosing]
  rfl

/-- Nodes that are no arrays do not count. -/
theorem prod_factor_filter {kinds : List NodeKind} {q : NodeKind → Bool}
    (h : ∀ k ∈ kinds, q k = false → k.factor = 1) :
    ((kinds.filter q).map NodeKind.factor).prod = (kinds.map NodeKind.factor).prod := by
  induction kinds with
  | nil => rfl
  | cons k kinds ih =>
    obtain ⟨hk, hkinds⟩ := List.forall_mem_cons.mp h
    cases hq : q k with
    | true => rw [List.filter_cons_of_pos hq, List.map_cons, List.map_cons, List.prod_cons,
        List.prod_cons, ih hkinds]
    | false => rw [List.filter_cons_of_neg (by simp [hq]), List.map_cons, List.prod_cons, ih hkinds,
        hk hq, Nat.one_mul]

/-- A node is repeated by the data objects and the attributes that it lies in. -/
theorem repetitions_eq (m : IedModel) (id : Nat) : m.repetitions id =
    (((m.enclosing id).filter fun k => k.isObject || k.isLeaf).map NodeKind.factor).prod := by
  refine (prod_factor_filter fun k _ hk => ?_).symm
  obtain ⟨hobject, hleaf⟩ := Bool.or_eq_false_iff.mp hk
  exact NodeKind.factor_eq_one hobject hleaf

/-- Anything but an attribute is repeated by the data objects that it lies in. -/
theorem Lawful.repetitions_eq (hm : m.Lawful) {n : Node} (hn : m.node? id = some n)
    (hk : n.kind.isLeaf = false) : m.repetitions id =
      (((m.enclosing id).filter NodeKind.isObject).map NodeKind.factor).prod := by
  refine (prod_factor_filter fun k hmem hobject => ?_).symm
  exact NodeKind.factor_eq_one hobject (hm.isLeaf_of_mem_enclosing hn hk k hmem)

end IedModel

namespace Branch

variable {m : IedModel} {b c : Branch}

section

variable (hm : m.Lawful) (hb : b.Stands m) (hc : c ∈ b.branches)
include hm hb hc

theorem Stands.parent?_of_mem : m.parent? c.id = some b.id := by
  rw [IedModel.parent?_eq (hb.of_mem hc).node?, hb.parent_of_mem hm hc]

theorem Stands.above_of_mem : m.above c.id = b.id :: m.above b.id :=
  hm.forest.above_eq_cons (hb.parent?_of_mem hm hc)

theorem Stands.enclosing_of_mem : m.enclosing c.id = b.node.kind :: m.enclosing b.id :=
  hm.forest.enclosing_eq_cons (hb.parent?_of_mem hm hc) hb.node?

theorem repetitions_of_mem : m.repetitions c.id = b.node.kind.factor * m.repetitions b.id := by
  rw [IedModel.repetitions, hb.enclosing_of_mem hm hc, List.map_cons, List.prod_cons]
  rfl

theorem inTransient_of_mem :
    m.inTransient c.id = (b.node.kind.isTransient || m.inTransient b.id) := by
  rw [IedModel.inTransient, hb.enclosing_of_mem hm hc, List.any_cons]
  rfl

end

/-- The nodes above a branch stand above everything in it. -/
theorem Stands.above_suffix (hm : m.Lawful) (hb : b.Stands m) (hc : c ∈ b.preorder) :
    b.id :: m.above b.id <:+ c.id :: m.above c.id := by
  obtain ⟨names, hr⟩ := mem_preorder_iff.mp hc
  induction hr with
  | refl b => exact List.suffix_rfl
  | @step b d c names hd hr ih =>
    have hsuffix := ih (hb.of_mem hd) hr.mem_preorder
    rw [hb.above_of_mem hm hd] at hsuffix
    exact (List.suffix_cons d.id _).trans hsuffix

/-- Branches below one node have nothing in common. -/
theorem Stands.eq_of_mem_preorder (hm : m.Lawful) (hb : b.Stands m) {d d' c' : Branch}
    (hd : d ∈ b.branches) (hd' : d' ∈ b.branches) (hc : c ∈ d.preorder) (hc' : c' ∈ d'.preorder)
    (hid : c.id = c'.id) : d = d' := by
  have hs := (hb.of_mem hd).above_suffix hm hc
  have hs' := (hb.of_mem hd').above_suffix hm hc'
  rw [hb.above_of_mem hm hd] at hs
  rw [hb.above_of_mem hm hd', ← hid] at hs'
  -- both chains have the same length and end the same chain
  have hsuffix := List.suffix_of_suffix_length_le hs hs' (Nat.le_refl _)
  have heq := hsuffix.eq_of_length rfl
  exact (hb.of_mem hd).unique (hb.of_mem hd') (List.cons.inj heq).1

end Branch

end Substation.Model
