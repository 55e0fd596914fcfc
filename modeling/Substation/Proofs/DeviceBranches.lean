import Mathlib.Data.List.Basic
import Mathlib.Tactic.Common
import Substation.Proofs.NodeBranches

/-!
# Logical devices through the stages of a resolution

The branch of a logical device holds its logical nodes. A resolution changes it in two ways only: it
starts one without logical nodes (`stands_addDevice_iff`), and it adds a logical node at the end of
one, with the namespaces that its checks have set (`stands_plantSpaced_iff`).
-/

namespace Substation.Model

variable {m : IedModel} {b c dev : Branch}

/-! ## Namespaces that may be set -/

/-- The kind with a namespace in place of its own, if there is one. -/
def NodeKind.withSpace? (space : Option Namespace) : NodeKind → NodeKind
  | device inst old => device inst (space.or old)
  | logicalNode config old => logicalNode config (space.or old)
  | kind => kind

/-- The node with a namespace in place of its own, if there is one. -/
def Node.withSpace? (space : Option Namespace) (n : Node) : Node :=
  { n with kind := n.kind.withSpace? space }

@[simp] theorem NodeKind.config?_withSpace? (space : Option Namespace) (kind : NodeKind) :
    (kind.withSpace? space).config? = kind.config? := by
  cases kind <;> rfl

@[simp] theorem NodeKind.isDevice_withSpace? (space : Option Namespace) (kind : NodeKind) :
    (kind.withSpace? space).isDevice = kind.isDevice := by
  cases kind <;> rfl

theorem NodeKind.exists_of_bare {kind : NodeKind} {inst : String}
    (h : kind.bare = .device inst none) : ∃ space, kind = .device inst space := by
  cases kind with
  | device inst' space =>
    obtain ⟨rfl, -⟩ := NodeKind.device.inj h
    exact ⟨space, rfl⟩
  | _ => exact NodeKind.noConfusion h

theorem NodeKind.withSpace?_none (kind : NodeKind) : kind.withSpace? none = kind := by
  cases kind <;> rfl

theorem NodeKind.withSpace?_some (space : Namespace) (kind : NodeKind) :
    kind.withSpace? (some space) = kind.withSpace space := by
  cases kind <;> rfl

namespace IedModel

/-- Sets the namespace of a node, if there is one to set. -/
def setSpace? (m : IedModel) (id : Nat) (space : Option Namespace) : IedModel :=
  space.elim m (m.setSpace id)

variable (m) (target : Nat) (space : Option Namespace)

@[simp] theorem name_setSpace? : (m.setSpace? target space).name = m.name := by
  cases space <;> rfl

@[simp] theorem devices_setSpace? : (m.setSpace? target space).devices = m.devices := by
  cases space <;> rfl

theorem node?_setSpace? (id : Nat) : (m.setSpace? target space).node? id =
    if id = target then (m.node? id).map (·.withSpace? space) else m.node? id := by
  cases space with
  | none => simp [setSpace?, Node.withSpace?, NodeKind.withSpace?_none]
  | some space =>
    simp only [Node.withSpace?, NodeKind.withSpace?_some]
    exact node?_setSpace target space id

theorem Lawful.setSpace? {m : IedModel} (hm : m.Lawful) : (m.setSpace? target space).Lawful := by
  cases space with
  | none => exact hm
  | some space => exact hm.setSpace target space

/-- Plants a logical node below a logical device and sets the namespaces of both. -/
def plantSpaced (device : Nat) (s : Sprout) (space space' : Option Namespace) : IedModel :=
  ((m.plant device s).setSpace? device space).setSpace? m.size space'

end IedModel

namespace Branch

/-- The branch with another namespace at the top, if there is one. -/
def withSpace? (space : Option Namespace) : Branch → Branch
  | mk id node branches => mk id (node.withSpace? space) branches

/-- The branch with one more at the end of those directly below. -/
def adopt : Branch → Branch → Branch
  | mk id node branches, ln => mk id (node.adopt ln.id) (branches ++ [ln])

/-- A logical device with one more logical node, which is numbered `id`. -/
def extended (dev : Branch) (s : Sprout) (id : Nat) (space space' : Option Namespace) : Branch :=
  let ln := s.grown dev.id (dev.ref ++ dev.node.kind.separator) id
  (dev.adopt (ln.withSpace? space')).withSpace? space

@[simp] theorem id_withSpace? (space : Option Namespace) (b : Branch) :
    (b.withSpace? space).id = b.id := by
  cases b
  rfl

@[simp] theorem name_withSpace? (space : Option Namespace) (b : Branch) :
    (b.withSpace? space).name = b.name := by
  cases b
  rfl

@[simp] theorem node_withSpace? (space : Option Namespace) (b : Branch) :
    (b.withSpace? space).node = b.node.withSpace? space := by
  cases b
  rfl

@[simp] theorem branches_withSpace? (space : Option Namespace) (b : Branch) :
    (b.withSpace? space).branches = b.branches := by
  cases b
  rfl

theorem withSpace?_none (b : Branch) : b.withSpace? none = b := by
  cases b
  simp [withSpace?, Node.withSpace?, NodeKind.withSpace?_none]

theorem alike_withSpace? (space : Option Namespace) (b : Branch) :
    b.Alike (b.withSpace? space) := by
  cases b
  exact ⟨rfl, rfl, rfl, NodeKind.config?_withSpace? .., rfl⟩

@[simp] theorem id_adopt (b ln : Branch) : (b.adopt ln).id = b.id := by
  cases b
  rfl

@[simp] theorem name_adopt (b ln : Branch) : (b.adopt ln).name = b.name := by
  cases b
  rfl

@[simp] theorem node_adopt (b ln : Branch) : (b.adopt ln).node = b.node.adopt ln.id := by
  cases b
  rfl

@[simp] theorem branches_adopt (b ln : Branch) : (b.adopt ln).branches = b.branches ++ [ln] := by
  cases b
  rfl

theorem Stands.of_parts (hn : m.node? b.id = some b.node)
    (hc : b.node.children = b.branches.map Branch.id) (hlt : ∀ c ∈ b.branches, b.id < c.id)
    (hb : ∀ c ∈ b.branches, c.Stands m) : b.Stands m := by
  cases b
  exact .mk hn hc hlt hb

/-- The model has a logical node of a configuration, below a logical device of an instance name. -/
structure IsNodeOf (m : IedModel) (dev : Branch) (inst : String) (ln : Branch)
    (config : Config.LogicalNode) : Prop where
  stands : dev.Stands m
  kind : ∃ space, dev.node.kind = .device inst space
  mem : ln ∈ dev.branches
  config : ln.node.kind.config? = some config

/-! ## A new logical device -/

/-- Nothing below another branch is a logical device. -/
theorem Stands.eq_of_isDevice (hm : m.Lawful) (hb : b.Stands m) (hc : c ∈ b.preorder)
    (hk : c.node.kind.isDevice) : c = b := by
  rcases mem_preorder.mp hc with h | h
  · exact h
  · obtain ⟨d, hd, hcd⟩ := mem_descendants.mp h
    obtain ⟨names, hr⟩ := mem_preorder_iff.mp hcd
    have hdk := (hb.law_of_mem hm hd).1.isDevice_eq_false
    have hck : c.node.kind.isDevice = false := by
      rcases hr.kind hm (hb.of_mem hd) hdk with rfl | h
      · exact hdk
      · exact h.1
    simp [hck] at hk

/-- A logical device that stands is listed. -/
theorem Stands.mem_devices (hm : m.Lawful) (hdev : dev.Stands m) (hk : dev.node.kind.isDevice) :
    dev.id ∈ m.devices := by
  have htop : dev.node.parent = none := (hm.parent_eq_none_iff hdev.node?).mpr hk
  exact (hm.of_parent_eq_none hdev.node? htop).1

/-- The branch of a number stands, and it is a logical device if the number is that of one. -/
theorem exists_device_of_mem (hm : m.Lawful) {id : Nat} (hid : id ∈ m.devices) :
    ∃ dev : Branch, dev.Stands m ∧ dev.node.kind.isDevice ∧ dev.id = id := by
  obtain ⟨hlt, htop⟩ := (hm.forest.mem_devices id).mp hid
  obtain ⟨dev, hdev, rfl⟩ := exists_stands hm.forest hlt
  rw [IedModel.parent?_eq hdev.node?] at htop
  exact ⟨dev, hdev, (hm.parent_eq_none_iff hdev.node?).mp htop, rfl⟩

theorem stands_addDevice_iff (hm : m.Lawful) (name inst : String) :
    c.Stands (m.addDevice name inst) ∧ c.node.kind.isDevice ↔
      c.Stands m ∧ c.node.kind.isDevice ∨
        c = .mk m.size ⟨name, name, none, [], .device inst none⟩ [] := by
  have hnew : Stands (m.addDevice name inst)
      (.mk m.size ⟨name, name, none, [], .device inst none⟩ []) :=
    .mk (by simp [IedModel.node?_addDevice]) rfl (by simp) (by simp)
  have hold : ∀ {b : Branch}, b.Stands m → b.Stands (m.addDevice name inst) := fun hb =>
    hb.frame fun id _ hid => by rw [IedModel.node?_addDevice, if_neg (Nat.ne_of_lt hid)]
  constructor
  · rintro ⟨hc, hk⟩
    have hid := hc.mem_devices (hm.addDevice name inst) hk
    rw [IedModel.devices_addDevice, List.mem_append, List.mem_singleton] at hid
    rcases hid with hid | hid
    · obtain ⟨dev, hdev, hdevk, heq⟩ := exists_device_of_mem hm hid
      obtain rfl := (hold hdev).unique hc heq
      exact Or.inl ⟨hdev, hdevk⟩
    · exact Or.inr (hc.unique hnew hid)
  · rintro (⟨hc, hk⟩ | rfl)
    · exact ⟨hold hc, hk⟩
    · exact ⟨hnew, rfl⟩

/-! ## A new logical node -/

section Plant

variable (hm : m.Lawful) (hdev : dev.Stands m) (s : Sprout) (space space' : Option Namespace)
include hdev

theorem node?_plantSpaced_of_lt {id : Nat} (hid : id < m.size) (hne : id ≠ dev.id) :
    (m.plantSpaced dev.id s space space').node? id = m.node? id := by
  rw [IedModel.plantSpaced, IedModel.node?_setSpace?, if_neg (Nat.ne_of_lt hid),
    IedModel.node?_setSpace?, if_neg hne, (IedModel.plant_gains hdev.node? s).others id hid hne]

theorem node?_plantSpaced_of_gt {id : Nat} (hid : m.size < id) :
    (m.plantSpaced dev.id s space space').node? id = (m.plant dev.id s).node? id := by
  have hlt : dev.id < id := Nat.lt_trans (IedModel.lt_size_of_node? hdev.node?) hid
  rw [IedModel.plantSpaced, IedModel.node?_setSpace?, if_neg (Nat.ne_of_gt hid),
    IedModel.node?_setSpace?, if_neg (Nat.ne_of_gt hlt)]

/-- What was planted stands with its namespace; what lies below it is as it was planted. -/
theorem stands_planted : ((s.grown dev.id (dev.ref ++ dev.node.kind.separator) m.size).withSpace?
    space').Stands (m.plantSpaced dev.id s space space') := by
  have hgains := IedModel.plant_gains hdev.node? s
  have hne : m.size ≠ dev.id := Nat.ne_of_gt (IedModel.lt_size_of_node? hdev.node?)
  let ln := s.grown dev.id (dev.ref ++ dev.node.kind.separator) m.size
  have hln : ln.Stands (m.plant dev.id s) := hgains.stands _ (List.mem_singleton.mpr rfl)
  have hid : ln.id = m.size := Sprout.id_grown ..
  refine .of_parts (b := ln.withSpace? space') ?_ ?_ ?_ ?_
  · rw [id_withSpace?, node_withSpace?, IedModel.plantSpaced, IedModel.node?_setSpace?, if_pos hid,
      IedModel.node?_setSpace?, if_neg (hid ▸ hne), hln.node?]
    rfl
  · simpa [Node.withSpace?] using hln.children
  · simpa using fun c hc => hln.id_lt hc
  · intro c hc
    rw [branches_withSpace?] at hc
    have hcid := hln.id_lt hc
    refine (hln.of_mem hc).frame fun id hle _ => ?_
    exact node?_plantSpaced_of_gt hdev s space space' (by omega)

/-- The logical device stands with the new logical node. -/
theorem stands_extended :
    (dev.extended s m.size space space').Stands (m.plantSpaced dev.id s space space') := by
  have hgains := IedModel.plant_gains hdev.node? s
  have hlt := IedModel.lt_size_of_node? hdev.node?
  have hid : (s.grown dev.id (dev.ref ++ dev.node.kind.separator) m.size).id = m.size :=
    Sprout.id_grown ..
  refine .of_parts ?_ ?_ ?_ ?_
  · simp only [extended, id_withSpace?, node_withSpace?, id_adopt, node_adopt]
    rw [IedModel.plantSpaced, IedModel.node?_setSpace?, if_neg (Nat.ne_of_lt hlt),
      IedModel.node?_setSpace?, if_pos rfl, hgains.adopted]
    rfl
  · simp [extended, Node.withSpace?, Node.adopt, hdev.children]
  · intro c hc
    simp only [extended, branches_withSpace?, branches_adopt, List.mem_append,
      List.mem_singleton] at hc
    rcases hc with hc | rfl
    · simpa [extended] using hdev.id_lt hc
    · simpa [extended, hid] using hlt
  · intro c hc
    simp only [extended, branches_withSpace?, branches_adopt, List.mem_append,
      List.mem_singleton] at hc
    rcases hc with hc | rfl
    · have hcid := hdev.id_lt hc
      refine (hdev.of_mem hc).frame fun id hle hlt => ?_
      exact node?_plantSpaced_of_lt hdev s space space' hlt (by omega)
    · exact stands_planted hdev s space space'

variable (hk : dev.node.kind.isDevice)
include hm hk

/-- Every other logical device stands as before. -/
theorem stands_plantSpaced_of_ne (hc : c.Stands m) (hne : c.id ≠ dev.id) :
    c.Stands (m.plantSpaced dev.id s space space') := by
  refine hc.congr fun d hd => ?_
  have hds := (hc.of_mem_preorder d hd).1
  refine node?_plantSpaced_of_lt hdev s space space' (IedModel.lt_size_of_node? hds.node?) ?_
  intro hid
  obtain rfl := hds.unique hdev hid
  exact hne (congrArg id (hc.eq_of_isDevice hm hd hk).symm)

/-- **The logical devices after a logical node was added** are the one that it was added to, with
the logical node at the end, and the others as they were. -/
theorem stands_plantSpaced_iff (hs : s.Under dev.node.kind) :
    c.Stands (m.plantSpaced dev.id s space space') ∧ c.node.kind.isDevice ↔
      c.Stands m ∧ c.node.kind.isDevice ∧ c.id ≠ dev.id ∨
        c = dev.extended s m.size space space' := by
  have hlaw : (m.plantSpaced dev.id s space space').Lawful :=
    ((hm.plant hdev.node? hs).setSpace? _ space).setSpace? _ space'
  have hnew := stands_extended hdev s space space'
  have hnewid : (dev.extended s m.size space space').id = dev.id := by simp [extended]
  constructor
  · rintro ⟨hc, hck⟩
    by_cases hid : c.id = dev.id
    · exact Or.inr (hc.unique hnew (hid.trans hnewid.symm))
    · have hmem := hc.mem_devices hlaw hck
      simp only [IedModel.plantSpaced, IedModel.devices_setSpace?,
        (IedModel.plant_gains hdev.node? s).devices] at hmem
      obtain ⟨b, hb, hbk, hbid⟩ := exists_device_of_mem hm hmem
      have hstays := stands_plantSpaced_of_ne hm hdev s space space' hk hb (hbid ▸ hid)
      obtain rfl := hstays.unique hc hbid
      exact Or.inl ⟨hb, hbk, hid⟩
  · rintro (⟨hc, hck, hne⟩ | rfl)
    · exact ⟨stands_plantSpaced_of_ne hm hdev s space space' hk hc hne, hck⟩
    · refine ⟨hnew, ?_⟩
      simpa [extended, Node.withSpace?, Node.adopt] using hk

end Plant

end Branch

end Substation.Model
