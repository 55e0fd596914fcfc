import Mathlib.Data.List.Basic
import Mathlib.Tactic.Common
import Substation.Proofs.Planting

/-!
# Lawful tables

In a lawful table a node without a parent is a logical device and its reference is its name, and
every other node is of a kind that its parent admits (`NodeKind.Admits`) and refers to itself by the
reference of its parent, a separator and its name.

The laws do not look at the links down nor at the namespaces, so they are stated of the face of a
node, which has neither. Planting adds faces and setting a namespace changes none, and so the
operations that build a model keep a table lawful.
-/

namespace Substation.Model

namespace NodeKind

theorem exists_of_isDevice {kind : NodeKind} (h : kind.isDevice) :
    ∃ inst space, kind = .device inst space := by
  cases kind with
  | device inst space => exact ⟨inst, space, rfl⟩
  | _ => exact absurd h Bool.false_ne_true

theorem exists_of_isLogicalNode {kind : NodeKind} (h : kind.isLogicalNode) :
    ∃ config space, kind = .logicalNode config space := by
  cases kind with
  | logicalNode config space => exact ⟨config, space, rfl⟩
  | _ => exact absurd h Bool.false_ne_true

theorem isDevice_eq_false {kind : NodeKind} (h : kind.isLogicalNode) : kind.isDevice = false := by
  obtain ⟨config, space, rfl⟩ := exists_of_isLogicalNode h
  rfl

/-- The kinds of nodes that may stand directly below a node of a kind. -/
def Admits : NodeKind → NodeKind → Prop
  | device .., logicalNode .. => True
  | logicalNode .., object .. => True
  | object .., object .. => True
  | object .., leaf .. => True
  | leaf .., leaf .. => True
  | _, _ => False

theorem Admits.isDevice_eq_false {up kind : NodeKind} (h : up.Admits kind) :
    kind.isDevice = false := by
  cases kind with
  | device inst space => cases up <;> exact h.elim
  | _ => rfl

theorem Admits.isObject_of_isLogicalNode {up kind : NodeKind} (h : up.Admits kind)
    (hk : up.isLogicalNode) : kind.isObject := by
  cases up with
  | logicalNode config space => cases kind <;> first | rfl | exact h.elim
  | _ => exact absurd hk Bool.false_ne_true

theorem Admits.isDevice_of_isLogicalNode {up kind : NodeKind} (h : up.Admits kind)
    (hk : kind.isLogicalNode) : up.isDevice := by
  cases kind with
  | logicalNode config space => cases up <;> first | rfl | exact h.elim
  | _ => exact absurd hk Bool.false_ne_true

theorem Admits.isLogicalNode_eq_false {up kind : NodeKind} (h : up.Admits kind)
    (hk : up.isDevice = false) : kind.isLogicalNode = false := by
  cases kind with
  | logicalNode config space =>
    cases up with
    | device => exact absurd hk (by simp [isDevice])
    | _ => exact h.elim
  | _ => rfl

/-- The kind without its namespace. -/
def bare : NodeKind → NodeKind
  | device inst _ => device inst none
  | logicalNode c _ => logicalNode c none
  | k => k

@[simp] theorem bare_withSpace (kind : NodeKind) (space : Namespace) :
    (kind.withSpace space).bare = kind.bare := by
  cases kind <;> rfl

@[simp] theorem isDevice_bare (kind : NodeKind) : kind.bare.isDevice = kind.isDevice := by
  cases kind <;> rfl

theorem isDevice_of_bare {kind : NodeKind} {inst : String} (h : kind.bare = .device inst none) :
    kind.isDevice := by
  rw [← isDevice_bare, h]
  rfl

@[simp] theorem separator_bare (kind : NodeKind) : kind.bare.separator = kind.separator := by
  cases kind <;> rfl

@[simp] theorem config?_bare (kind : NodeKind) : kind.bare.config? = kind.config? := by
  cases kind <;> rfl

theorem admits_bare {up kind : NodeKind} : up.bare.Admits kind.bare ↔ up.Admits kind := by
  cases up <;> cases kind <;> rfl

end NodeKind

/-- A node without its links to the nodes below it and without its namespace. -/
def Node.face (n : Node) : Node := { n with children := [], kind := n.kind.bare }

/-- The face of a logical device. -/
def deviceFace (name inst : String) : Node := ⟨name, name, none, [], .device inst none⟩

theorem Node.bare_of_face {n : Node} {name inst : String} (h : n.face = deviceFace name inst) :
    n.kind.bare = .device inst none :=
  congrArg Node.kind h

namespace IedModel

variable {m : IedModel}

/-! ## Faces -/

/-- The face of the node of a number. -/
def face? (m : IedModel) (id : Nat) : Option Node := (m.node? id).map Node.face

theorem face?_of_node? {id : Nat} {n : Node} (h : m.node? id = some n) :
    m.face? id = some n.face := by
  rw [face?, h]
  rfl

theorem node?_of_face? {id : Nat} {n : Node} (h : m.face? id = some n) :
    ∃ n', m.node? id = some n' ∧ n'.face = n :=
  Option.map_eq_some_iff.mp h

theorem lt_size_of_face? {id : Nat} {n : Node} (h : m.face? id = some n) : id < m.size := by
  obtain ⟨n', hn', -⟩ := node?_of_face? h
  exact lt_size_of_node? hn'

theorem ref_eq_face? (m : IedModel) (id : Nat) :
    m.ref id = ((m.face? id).map Node.ref).getD "" := by
  unfold ref face?
  cases m.node? id <;> rfl

theorem face?_addDevice (name inst : String) (id : Nat) : (m.addDevice name inst).face? id =
    if id = m.size then some (deviceFace name inst) else m.face? id := by
  unfold face?
  rw [node?_addDevice]
  split <;> rfl

theorem face?_addChild {parent : Nat} {p : Node} (hp : m.node? parent = some p) (name : String)
    (kind : NodeKind) (id : Nat) : (m.addChild parent name kind).face? id =
      if id = m.size then some (childNode parent p name kind).face else m.face? id := by
  unfold face?
  rw [node?_addChild hp]
  split
  · rfl
  · split
    · rename_i hid
      rw [hid, hp]
      rfl
    · rfl

@[simp] theorem face?_setSpace (target : Nat) (space : Namespace) (id : Nat) :
    (m.setSpace target space).face? id = m.face? id := by
  unfold face?
  rw [node?_setSpace]
  split
  · cases m.node? id with
    | none => rfl
    | some n => simp [Node.face]
  · rfl

theorem face?_plant {parent : Nat} {p : Node} (hp : m.node? parent = some p) (s : Sprout) {id : Nat}
    (hid : id < m.size) : (m.plant parent s).face? id = m.face? id := by
  have hgains := plant_gains hp s
  by_cases h : id = parent
  · subst h
    rw [face?_of_node? hgains.adopted, face?_of_node? hp]
    rfl
  · rw [face?, hgains.others id hid h, face?]

/-! ## The laws -/

/-- Kinds and references fit the links. -/
structure Lawful (m : IedModel) : Prop where
  forest : m.Forest
  top : ∀ {id n}, m.face? id = some n → n.parent = none → n.kind.isDevice ∧ n.ref = n.name
  below : ∀ {id n p}, m.face? id = some n → n.parent = some p → ∃ up, m.face? p = some up ∧
    up.kind.Admits n.kind ∧ n.ref = up.ref ++ up.kind.separator ++ n.name

end IedModel

/-! ## Sprouts that fit below a kind -/

mutual

/-- Every node of the sprout is of a kind that the one above it admits. -/
def Sprout.Under (up : NodeKind) : Sprout → Prop
  | mk _ kind parts => up.Admits kind ∧ UnderAll kind parts

/-- All the sprouts fit. -/
def Sprout.UnderAll (up : NodeKind) : List Sprout → Prop
  | [] => True
  | s :: ss => Under up s ∧ UnderAll up ss

end

theorem Sprout.underAll_iff {up : NodeKind} {ss : List Sprout} :
    UnderAll up ss ↔ ∀ s ∈ ss, s.Under up := by
  induction ss with
  | nil => simp [UnderAll]
  | cons s ss ih => rw [UnderAll, ih, List.forall_mem_cons]

namespace IedModel.Lawful

variable {m : IedModel}

theorem empty (name : String) : Lawful { name } where
  forest := Forest.empty name
  top h := absurd (lt_size_of_face? h) (by simp [size])
  below h := absurd (lt_size_of_face? h) (by simp [size])

variable (h : m.Lawful)
include h

theorem addDevice (name inst : String) : (m.addDevice name inst).Lawful where
  forest := h.forest.addDevice name inst
  top {id n} hn hpar := by
    rw [face?_addDevice] at hn
    split at hn
    · cases hn
      exact ⟨rfl, rfl⟩
    · exact h.top hn hpar
  below {id n p} hn hpar := by
    rw [face?_addDevice] at hn
    split at hn
    · cases hn
      exact absurd hpar (by simp [deviceFace])
    · obtain ⟨up, hup, hlaw⟩ := h.below hn hpar
      exact ⟨up, by rw [face?_addDevice, if_neg (Nat.ne_of_lt (lt_size_of_face? hup)), hup], hlaw⟩

theorem addChild {parent : Nat} {p : Node} (hp : m.node? parent = some p) (name : String)
    {kind : NodeKind} (hk : p.kind.Admits kind) : (m.addChild parent name kind).Lawful where
  forest := h.forest.addChild parent name kind
  top {id n} hn hpar := by
    rw [face?_addChild hp] at hn
    split at hn
    · cases hn
      exact absurd hpar (by simp [childNode, Node.face])
    · exact h.top hn hpar
  below {id n q} hn hpar := by
    have hold : ∀ {id up}, m.face? id = some up →
        (m.addChild parent name kind).face? id = some up := fun hup => by
      rw [face?_addChild hp, if_neg (Nat.ne_of_lt (lt_size_of_face? hup)), hup]
    rw [face?_addChild hp] at hn
    split at hn
    · cases hn
      cases hpar
      refine ⟨p.face, hold (face?_of_node? hp), NodeKind.admits_bare.mpr hk, ?_⟩
      simp [childNode, Node.face]
    · obtain ⟨up, hup, hlaw⟩ := h.below hn hpar
      exact ⟨up, hold hup, hlaw⟩

theorem setSpace (target : Nat) (space : Namespace) : (m.setSpace target space).Lawful where
  forest := h.forest.setSpace target space
  top hn := h.top (by rwa [face?_setSpace] at hn)
  below hn hpar := by
    simp only [face?_setSpace] at hn ⊢
    exact h.below hn hpar

omit h

mutual

theorem plant {m : IedModel} (h : m.Lawful) {parent : Nat} {p : Node}
    (hp : m.node? parent = some p) : ∀ {s : Sprout}, s.Under p.kind → (m.plant parent s).Lawful
  | .mk name kind parts, hs => by
    rw [Sprout.Under] at hs
    rw [IedModel.plant]
    exact plantAll (h.addChild hp name hs.1) (node?_addChild_size hp name kind) hs.2

theorem plantAll {m : IedModel} (h : m.Lawful) {parent : Nat} {p : Node}
    (hp : m.node? parent = some p) :
    ∀ {ss : List Sprout}, Sprout.UnderAll p.kind ss → (m.plantAll parent ss).Lawful
  | [], _ => by rw [IedModel.plantAll]; exact h
  | s :: ss, hs => by
    rw [Sprout.UnderAll] at hs
    rw [IedModel.plantAll]
    exact plantAll (plant h hp hs.1) (plant_gains hp s).adopted hs.2

end

end IedModel.Lawful

end Substation.Model
