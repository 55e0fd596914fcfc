import Mathlib.Data.List.Basic
import Mathlib.Tactic.Common
import Substation.Model.IedModel

/-!
# The node table

What each operation does to the table, seen through `node?`, and two things that follow.

* `Forest`: parents come before their children, the links down and the links up agree, and the
  logical devices are the nodes without a parent. Every table that operations build is a forest
  (`Built.forest`).
* `Extends`: a table that grew out of another one. Nodes were added behind the old ones, and old
  nodes gained children among the new ones only, so `rollback` to the old size gives the old table
  back (`rollback_of_extends`).
-/

namespace Substation.Model.IedModel

variable {m : IedModel} {id : Nat}

/-! ## Looking nodes up -/

theorem node?_eq_none_iff : m.node? id = none ↔ m.size ≤ id := by
  simp [node?, size]

theorem lt_size_of_node? {n : Node} (h : m.node? id = some n) : id < m.size := by
  by_contra hge
  rw [node?_eq_none_iff.mpr (Nat.le_of_not_lt hge)] at h
  exact absurd h (by simp)

theorem exists_node? (h : id < m.size) : ∃ n, m.node? id = some n := by
  cases hn : m.node? id with
  | none => exact absurd (node?_eq_none_iff.mp hn) (Nat.not_le_of_lt h)
  | some n => exact ⟨n, rfl⟩

theorem ref_eq {n : Node} (h : m.node? id = some n) : m.ref id = n.ref := by
  simp [ref, h]

theorem children_eq {n : Node} (h : m.node? id = some n) : m.children id = n.children := by
  simp [children, h]

/-- Two tables with the same name, the same devices and the same nodes are the same. -/
theorem ext_node? {m m' : IedModel} (hname : m.name = m'.name) (hdevices : m.devices = m'.devices)
    (h : ∀ id, m.node? id = m'.node? id) : m = m' := by
  obtain ⟨name, nodes, devices⟩ := m
  obtain ⟨name', nodes', devices'⟩ := m'
  obtain rfl : name = name' := hname
  obtain rfl : devices = devices' := hdevices
  obtain rfl : nodes = nodes' := Array.ext_getElem? h
  rfl

/-! ## What the operations do -/

@[simp] theorem size_addDevice (name inst : String) :
    (m.addDevice name inst).size = m.size + 1 := by
  simp [addDevice, size]

@[simp] theorem devices_addDevice (name inst : String) :
    (m.addDevice name inst).devices = m.devices ++ [m.size] := rfl

theorem node?_addDevice (name inst : String) : (m.addDevice name inst).node? id =
    if id = m.size then some ⟨name, name, none, [], .device inst none⟩ else m.node? id := by
  show (m.nodes.push _)[id]? = _
  rw [Array.getElem?_push]
  rfl

/-- The node that `addChild` adds below `p`. -/
def childNode (parent : Nat) (p : Node) (name : String) (kind : NodeKind) : Node :=
  { name, ref := p.ref ++ p.kind.separator ++ name, parent := some parent, children := [], kind }

section AddChild

variable {parent : Nat} {p : Node} (hp : m.node? parent = some p) (name : String) (kind : NodeKind)

theorem addChild_of_node?_eq_none (h : m.node? parent = none) :
    m.addChild parent name kind = m := by
  simp only [addChild, h]

@[simp] theorem name_addChild : (m.addChild parent name kind).name = m.name := by
  unfold addChild
  cases m.node? parent <;> rfl

@[simp] theorem devices_addChild : (m.addChild parent name kind).devices = m.devices := by
  unfold addChild
  cases m.node? parent <;> rfl

include hp

theorem size_addChild : (m.addChild parent name kind).size = m.size + 1 := by
  simp [addChild, hp, size]

theorem node?_addChild (id : Nat) : (m.addChild parent name kind).node? id =
    if id = m.size then some (childNode parent p name kind)
    else if id = parent then some (p.adopt m.size)
    else m.node? id := by
  have hnodes : (m.addChild parent name kind).nodes =
      (m.nodes.modify parent (·.adopt m.size)).push (childNode parent p name kind) := by
    simp only [addChild, hp]
    rfl
  show (m.addChild parent name kind).nodes[id]? = _
  rw [hnodes, Array.getElem?_push, Array.size_modify, Array.getElem?_modify,
    show m.nodes.size = m.size from rfl]
  by_cases hid : id = m.size
  · rw [if_pos hid, if_pos hid]
  · rw [if_neg hid, if_neg hid]
    by_cases hpar : parent = id
    · subst hpar
      rw [if_pos rfl, if_pos rfl, show m.nodes[parent]? = some p from hp]
      rfl
    · rw [if_neg hpar, if_neg (Ne.symm hpar)]
      rfl

theorem node?_addChild_size :
    (m.addChild parent name kind).node? m.size = some (childNode parent p name kind) := by
  rw [node?_addChild hp, if_pos rfl]

theorem node?_addChild_parent :
    (m.addChild parent name kind).node? parent = some (p.adopt m.size) := by
  rw [node?_addChild hp, if_neg (Nat.ne_of_lt (lt_size_of_node? hp)), if_pos rfl]

theorem node?_addChild_of_ne {id : Nat} (hid : id < m.size) (hne : id ≠ parent) :
    (m.addChild parent name kind).node? id = m.node? id := by
  rw [node?_addChild hp, if_neg (Nat.ne_of_lt hid), if_neg hne]

end AddChild

@[simp] theorem size_rename (target : Nat) (name : String) :
    (m.rename target name).size = m.size := by
  simp [rename, size]

theorem node?_rename (target : Nat) (name : String) (id : Nat) :
    (m.rename target name).node? id =
      if id = target then (m.node? id).map (·.rename name) else m.node? id := by
  simp only [rename, node?, Array.getElem?_modify, eq_comm]

@[simp] theorem size_setSpace (target : Nat) (space : Namespace) :
    (m.setSpace target space).size = m.size := by
  simp [setSpace, size]

theorem node?_setSpace (target : Nat) (space : Namespace) (id : Nat) :
    (m.setSpace target space).node? id =
      if id = target then (m.node? id).map fun n => { n with kind := n.kind.withSpace space }
      else m.node? id := by
  simp only [setSpace, node?, Array.getElem?_modify, eq_comm]

theorem size_rollback (mark : Nat) : (m.rollback mark).size = min mark m.size := by
  simp [rollback, size]

theorem node?_rollback (mark id : Nat) : (m.rollback mark).node? id =
    if id < mark then (m.node? id).map (·.disown mark) else none := by
  simp only [rollback, node?, Array.getElem?_map]
  by_cases hid : id < mark
  · rw [if_pos hid, Array.take_eq_extract, Array.getElem?_extract]
    simp only [Nat.sub_zero, Nat.zero_add]
    split
    · rfl
    · rw [Array.getElem?_eq_none (by omega)]
  · rw [if_neg hid, Array.getElem?_eq_none (by simp; omega)]
    rfl

/-! ## Links

The links of a table are seen through `children` and `parent?`; of the operations only the ones that
add nodes and the one that takes them back change them. -/

theorem children_of_size_le (h : m.size ≤ id) : m.children id = [] := by
  simp [children, node?_eq_none_iff.mpr h]

theorem parent?_of_size_le (h : m.size ≤ id) : m.parent? id = none := by
  simp [parent?, node?_eq_none_iff.mpr h]

theorem lt_size_of_parent? {p : Nat} (h : m.parent? id = some p) : id < m.size := by
  by_contra hge
  rw [parent?_of_size_le (Nat.le_of_not_lt hge)] at h
  exact absurd h (by simp)

theorem children_addDevice (name inst : String) (id : Nat) :
    (m.addDevice name inst).children id = m.children id := by
  unfold children
  rw [node?_addDevice]
  by_cases hid : id = m.size
  · rw [if_pos hid, hid, node?_eq_none_iff.mpr (Nat.le_refl _)]
    rfl
  · rw [if_neg hid]

theorem parent?_addDevice (name inst : String) (id : Nat) :
    (m.addDevice name inst).parent? id = m.parent? id := by
  unfold parent?
  rw [node?_addDevice]
  by_cases hid : id = m.size
  · rw [if_pos hid, hid, node?_eq_none_iff.mpr (Nat.le_refl _)]
    rfl
  · rw [if_neg hid]

theorem children_addChild {parent : Nat} (hp : parent < m.size) (name : String) (kind : NodeKind)
    (id : Nat) : (m.addChild parent name kind).children id =
      if id = parent then m.children parent ++ [m.size] else m.children id := by
  obtain ⟨p, hp⟩ := exists_node? hp
  have hne := Nat.ne_of_lt (lt_size_of_node? hp)
  unfold children
  rw [node?_addChild hp, hp]
  by_cases hid : id = m.size
  · rw [if_pos hid, hid, if_neg (Ne.symm hne), node?_eq_none_iff.mpr (Nat.le_refl _)]
    rfl
  · rw [if_neg hid]
    by_cases hpar : id = parent
    · rw [if_pos hpar, if_pos hpar]
      rfl
    · rw [if_neg hpar, if_neg hpar]

theorem parent?_addChild {parent : Nat} (hp : parent < m.size) (name : String) (kind : NodeKind)
    (id : Nat) : (m.addChild parent name kind).parent? id =
      if id = m.size then some parent else m.parent? id := by
  obtain ⟨p, hp⟩ := exists_node? hp
  unfold parent?
  rw [node?_addChild hp]
  by_cases hid : id = m.size
  · rw [if_pos hid, if_pos hid]
    rfl
  · rw [if_neg hid, if_neg hid]
    by_cases hpar : id = parent
    · rw [if_pos hpar, hpar, hp]
      rfl
    · rw [if_neg hpar]

/-- A change of single nodes that keeps their links. -/
theorem links_of_node? {m' : IedModel} (f : Nat → Node → Node)
    (h : ∀ id, m'.node? id = (m.node? id).map (f id))
    (hc : ∀ id n, (f id n).children = n.children) (hp : ∀ id n, (f id n).parent = n.parent)
    (id : Nat) : m'.children id = m.children id ∧ m'.parent? id = m.parent? id := by
  unfold children parent?
  rw [h]
  cases m.node? id with
  | none => exact ⟨rfl, rfl⟩
  | some n => exact ⟨hc id n, hp id n⟩

theorem links_rename (target : Nat) (name : String) (id : Nat) :
    (m.rename target name).children id = m.children id ∧
      (m.rename target name).parent? id = m.parent? id := by
  refine links_of_node? (fun id n => if id = target then n.rename name else n) (fun id => ?_)
    (fun id n => ?_) (fun id n => ?_) id
  · rw [node?_rename]
    split
    · rfl
    · exact Option.map_id'.symm
  · split <;> rfl
  · split <;> rfl

theorem links_setSpace (target : Nat) (space : Namespace) (id : Nat) :
    (m.setSpace target space).children id = m.children id ∧
      (m.setSpace target space).parent? id = m.parent? id := by
  refine links_of_node?
    (fun id n => if id = target then { n with kind := n.kind.withSpace space } else n)
    (fun id => ?_) (fun id n => ?_) (fun id n => ?_) id
  · rw [node?_setSpace]
    split
    · rfl
    · exact Option.map_id'.symm
  · split <;> rfl
  · split <;> rfl

theorem children_rollback (mark id : Nat) : (m.rollback mark).children id =
    if id < mark then (m.children id).filter (· < mark) else [] := by
  unfold children
  rw [node?_rollback]
  split
  · cases m.node? id <;> rfl
  · rfl

theorem parent?_rollback (mark id : Nat) : (m.rollback mark).parent? id =
    if id < mark then m.parent? id else none := by
  unfold parent?
  rw [node?_rollback]
  split
  · cases m.node? id <;> rfl
  · rfl

/-! ## Forests -/

/-- The links of a table are those of a forest whose trees stand below the logical devices. -/
structure Forest (m : IedModel) : Prop where
  parent_lt : ∀ {id p}, m.parent? id = some p → p < id
  mem_children : ∀ p c, c ∈ m.children p ↔ m.parent? c = some p
  children_sorted : ∀ p, (m.children p).Pairwise (· < ·)
  mem_devices : ∀ d, d ∈ m.devices ↔ d < m.size ∧ m.parent? d = none
  devices_sorted : m.devices.Pairwise (· < ·)

namespace Forest

section

variable (h : m.Forest)
include h

theorem lt_size_of_mem_children {p c : Nat} (hc : c ∈ m.children p) : c < m.size :=
  lt_size_of_parent? ((h.mem_children p c).mp hc)

theorem lt_of_mem_children {p c : Nat} (hc : c ∈ m.children p) : p < c :=
  h.parent_lt ((h.mem_children p c).mp hc)

theorem lt_size_of_mem_devices {d : Nat} (hd : d ∈ m.devices) : d < m.size :=
  ((h.mem_devices d).mp hd).1

end

theorem empty (name : String) : Forest { name } where
  parent_lt h := absurd h (by simp [parent?, node?])
  mem_children p c := by simp [children, parent?, node?]
  children_sorted p := by simp [children, node?]
  mem_devices d := by simp [size]
  devices_sorted := List.Pairwise.nil

variable (h : m.Forest)
include h

theorem addDevice (name inst : String) : (m.addDevice name inst).Forest where
  parent_lt hp := h.parent_lt (by rwa [parent?_addDevice] at hp)
  mem_children := by simpa only [children_addDevice, parent?_addDevice] using h.mem_children
  children_sorted := by simpa only [children_addDevice] using h.children_sorted
  mem_devices d := by
    rw [devices_addDevice, size_addDevice, parent?_addDevice, List.mem_append, h.mem_devices,
      List.mem_singleton]
    constructor
    · rintro (⟨hlt, hpar⟩ | rfl)
      · exact ⟨Nat.lt_succ_of_lt hlt, hpar⟩
      · exact ⟨Nat.lt_succ_self _, parent?_of_size_le (Nat.le_refl _)⟩
    · rintro ⟨hlt, hpar⟩
      rcases Nat.lt_succ_iff_lt_or_eq.mp hlt with hlt | rfl
      · exact Or.inl ⟨hlt, hpar⟩
      · exact Or.inr rfl
  devices_sorted := by
    refine List.pairwise_append.mpr ⟨h.devices_sorted, List.pairwise_singleton _ _, ?_⟩
    intro d hd e he
    rw [List.mem_singleton.mp he]
    exact h.lt_size_of_mem_devices hd

theorem addChild (parent : Nat) (name : String) (kind : NodeKind) :
    (m.addChild parent name kind).Forest := by
  by_cases hp : parent < m.size
  swap
  · rw [addChild_of_node?_eq_none name kind (node?_eq_none_iff.mpr (Nat.le_of_not_lt hp))]
    exact h
  obtain ⟨p, hn⟩ := exists_node? hp
  refine ⟨?_, ?_, ?_, ?_, ?_⟩
  · intro id q hq
    rw [parent?_addChild hp] at hq
    split at hq
    · rename_i hid
      cases hq
      exact hid ▸ hp
    · exact h.parent_lt hq
  · intro q c
    rw [children_addChild hp, parent?_addChild hp]
    have hold : c = m.size → c ∉ m.children q := fun hc hmem =>
      absurd (h.lt_size_of_mem_children hmem) (by omega)
    by_cases hq : q = parent
    · subst hq
      rw [if_pos rfl, List.mem_append, List.mem_singleton, h.mem_children]
      by_cases hc : c = m.size
      · simp [hc]
      · simp [hc]
    · rw [if_neg hq, h.mem_children]
      by_cases hc : c = m.size
      · rw [if_pos hc, ← h.mem_children]
        exact ⟨fun hmem => absurd hmem (hold hc), fun he => absurd (Option.some.inj he).symm hq⟩
      · rw [if_neg hc]
  · intro q
    rw [children_addChild hp]
    split
    · refine List.pairwise_append.mpr ⟨h.children_sorted _, List.pairwise_singleton _ _, ?_⟩
      intro c hc e he
      rw [List.mem_singleton.mp he]
      exact h.lt_size_of_mem_children hc
    · exact h.children_sorted q
  · intro d
    rw [devices_addChild, size_addChild hn, parent?_addChild hp, h.mem_devices]
    by_cases hd : d = m.size
    · simp [hd]
    · rw [if_neg hd]
      constructor
      · exact fun ⟨hlt, hpar⟩ => ⟨Nat.lt_succ_of_lt hlt, hpar⟩
      · exact fun ⟨hlt, hpar⟩ => ⟨by omega, hpar⟩
  · rw [devices_addChild]
    exact h.devices_sorted

/-- A change that keeps the size, the devices and all links. -/
theorem of_links {m' : IedModel} (hsize : m'.size = m.size) (hdevices : m'.devices = m.devices)
    (hl : ∀ id, m'.children id = m.children id ∧ m'.parent? id = m.parent? id) : m'.Forest where
  parent_lt {id _} hp := h.parent_lt ((hl id).2 ▸ hp)
  mem_children := by simpa only [fun id => (hl id).1, fun id => (hl id).2] using h.mem_children
  children_sorted := by simpa only [fun id => (hl id).1] using h.children_sorted
  mem_devices := by
    simpa only [fun id => (hl id).2, hsize, hdevices] using h.mem_devices
  devices_sorted := hdevices ▸ h.devices_sorted

theorem rename (target : Nat) (name : String) : (m.rename target name).Forest :=
  h.of_links (size_rename target name) rfl (links_rename target name)

theorem setSpace (target : Nat) (space : Namespace) : (m.setSpace target space).Forest :=
  h.of_links (size_setSpace target space) rfl (links_setSpace target space)

theorem rollback (mark : Nat) : (m.rollback mark).Forest where
  parent_lt {id p} hp := by
    rw [parent?_rollback] at hp
    split at hp
    · exact h.parent_lt hp
    · exact absurd hp (by simp)
  mem_children p c := by
    rw [children_rollback, parent?_rollback]
    by_cases hc : c < mark
    · rw [if_pos hc]
      by_cases hp : p < mark
      · rw [if_pos hp, List.mem_filter, h.mem_children]
        simp [hc]
      · rw [if_neg hp]
        exact ⟨fun hmem => absurd hmem List.not_mem_nil,
          fun hpar => absurd (h.parent_lt hpar) (by omega)⟩
    · rw [if_neg hc]
      split
      · simp [hc]
      · simp
  children_sorted p := by
    rw [children_rollback]
    split
    · exact (h.children_sorted p).filter _
    · exact List.Pairwise.nil
  mem_devices d := by
    rw [size_rollback, parent?_rollback, show (m.rollback mark).devices =
      m.devices.filter (· < mark) from rfl, List.mem_filter, h.mem_devices]
    by_cases hd : d < mark
    · rw [if_pos hd, Nat.lt_min]
      simp [hd, and_comm]
    · rw [if_neg hd, Nat.lt_min]
      simp [hd]
  devices_sorted := h.devices_sorted.filter _

end Forest

/-- The tables that operations build, starting from the empty one; the name of the IED may be set
at any time. -/
inductive Built : IedModel → Prop
  | empty (name : String) : Built { name }
  | withName {m : IedModel} (h : Built m) (name : String) : Built { m with name }
  | addDevice {m : IedModel} (h : Built m) (name inst : String) : Built (m.addDevice name inst)
  | addChild {m : IedModel} (h : Built m) (parent : Nat) (name : String) (kind : NodeKind) :
      Built (m.addChild parent name kind)
  | rename {m : IedModel} (h : Built m) (id : Nat) (name : String) : Built (m.rename id name)
  | setSpace {m : IedModel} (h : Built m) (id : Nat) (space : Namespace) :
      Built (m.setSpace id space)
  | rollback {m : IedModel} (h : Built m) (mark : Nat) : Built (m.rollback mark)

/-- **Every table that operations build is a forest.** -/
theorem Built.forest (h : Built m) : m.Forest := by
  induction h with
  | empty name => exact Forest.empty name
  | withName _ name ih => exact ih.of_links rfl rfl fun _ => ⟨rfl, rfl⟩
  | addDevice _ name inst ih => exact ih.addDevice name inst
  | addChild _ parent name kind ih => exact ih.addChild parent name kind
  | rename _ id name ih => exact ih.rename id name
  | setSpace _ id space ih => exact ih.setSpace id space
  | rollback _ mark ih => exact ih.rollback mark

/-! ## Growth and rollback -/

/-- `m'` grew out of `m`: old nodes gained children, and only new ones. -/
structure Extends (m m' : IedModel) : Prop where
  name : m'.name = m.name
  nodes : ∀ {id n}, m.node? id = some n →
    ∃ new, m'.node? id = some { n with children := n.children ++ new } ∧ ∀ c ∈ new, m.size ≤ c
  devices : ∃ new, m'.devices = m.devices ++ new ∧ ∀ d ∈ new, m.size ≤ d

namespace Extends

variable {m' : IedModel}

theorem refl (m : IedModel) : m.Extends m where
  name := rfl
  nodes {_ n} h := ⟨[], by rw [List.append_nil]; exact h, by simp⟩
  devices := ⟨[], by simp⟩

variable (h : m.Extends m')
include h

theorem size_le : m.size ≤ m'.size := by
  by_contra hlt
  have hsize : m'.size < m.size := Nat.lt_of_not_le hlt
  obtain ⟨n, hn⟩ := exists_node? hsize
  obtain ⟨new, hn', -⟩ := h.nodes hn
  exact absurd (lt_size_of_node? hn') (Nat.lt_irrefl _)

theorem addChild (parent : Nat) (name : String) (kind : NodeKind) :
    m.Extends (m'.addChild parent name kind) := by
  cases hp : m'.node? parent with
  | none => rw [addChild_of_node?_eq_none name kind hp]; exact h
  | some p =>
    refine ⟨by rw [name_addChild, h.name], ?_, by rw [devices_addChild]; exact h.devices⟩
    intro id n hn
    obtain ⟨new, hn', hnew⟩ := h.nodes hn
    have hid : id < m'.size := lt_size_of_node? hn'
    by_cases hpar : id = parent
    · subst hpar
      rw [hn'] at hp
      cases hp
      refine ⟨new ++ [m'.size], ?_, ?_⟩
      · rw [node?_addChild_parent hn', Node.adopt, List.append_assoc]
      · intro c hc
        rcases List.mem_append.mp hc with hc | hc
        · exact hnew c hc
        · rw [List.mem_singleton.mp hc]
          exact h.size_le
    · exact ⟨new, by rw [node?_addChild_of_ne hp name kind hid hpar, hn'], hnew⟩

end Extends

/-- **Rollback undoes growth**: a table that grew out of `m`, taken back to the size of `m`, is
`m`. -/
theorem rollback_of_extends {m' : IedModel} (hm : m.Forest) (h : m.Extends m') :
    m'.rollback m.size = m := by
  -- what is new is not below the mark, and what is old is
  have hfilter : ∀ {old new : List Nat}, (∀ c ∈ old, c < m.size) → (∀ c ∈ new, m.size ≤ c) →
      (old ++ new).filter (· < m.size) = old := by
    intro old new hold hnew
    rw [List.filter_append, List.filter_eq_self.mpr (by simpa using hold),
      List.filter_eq_nil_iff.mpr (by simpa using hnew), List.append_nil]
  refine ext_node? h.name ?_ fun id => ?_
  · obtain ⟨new, hd, hnew⟩ := h.devices
    show m'.devices.filter (· < m.size) = m.devices
    rw [hd]
    exact hfilter (fun d hd => hm.lt_size_of_mem_devices hd) hnew
  · rw [node?_rollback]
    by_cases hid : id < m.size
    · obtain ⟨n, hn⟩ := exists_node? hid
      obtain ⟨new, hn', hnew⟩ := h.nodes hn
      rw [if_pos hid, hn', hn, Option.map_some, Node.disown]
      rw [hfilter (fun c hc => hm.lt_size_of_mem_children (by rwa [children_eq hn])) hnew]
    · rw [if_neg hid, node?_eq_none_iff.mpr (Nat.le_of_not_lt hid)]

end Substation.Model.IedModel
