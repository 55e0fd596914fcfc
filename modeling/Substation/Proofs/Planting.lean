import Mathlib.Data.List.Basic
import Mathlib.Tactic.Common
import Substation.Proofs.Branches

/-!
# Planting

A sprout is what is to grow below a node: names and kinds, without numbers and references. Planting
it adds its nodes one by one, each before the nodes below it. `Sprout.grown` is the branch that
results, and `plantAll_gains` says that planting adds exactly these branches: they stand at the
end of the table, their parent lists them, and every other node stays as it was.
-/

namespace Substation.Model

/-- A node to be, with what is to grow below it. -/
inductive Sprout where
  | mk (name : String) (kind : NodeKind) (parts : List Sprout)

namespace Sprout

mutual

/-- The number of nodes. -/
def size : Sprout → Nat
  | mk _ _ parts => sizeAll parts + 1

/-- The number of nodes of several sprouts. -/
def sizeAll : List Sprout → Nat
  | [] => 0
  | s :: ss => size s + sizeAll ss

end

mutual

/-- The branch of a sprout whose top gets number `id`; its reference is `stem` and its name. -/
def grown (parent : Nat) (stem : String) (id : Nat) : Sprout → Branch
  | mk name kind parts =>
    let below := grownAll id (stem ++ name ++ kind.separator) (id + 1) parts
    .mk id ⟨name, stem ++ name, some parent, below.map Branch.id, kind⟩ below

/-- The branches of several sprouts, numbered one after the other from `id` on. -/
def grownAll (parent : Nat) (stem : String) (id : Nat) : List Sprout → List Branch
  | [] => []
  | s :: ss => grown parent stem id s :: grownAll parent stem (id + size s) ss

end

theorem id_grown (parent : Nat) (stem : String) (id : Nat) (s : Sprout) :
    (s.grown parent stem id).id = id := by
  obtain ⟨name, kind, parts⟩ := s
  rw [grown]
  rfl

theorem ref_grown (parent : Nat) (stem : String) (id : Nat) (name : String) (kind : NodeKind)
    (parts : List Sprout) : ((mk name kind parts).grown parent stem id).ref = stem ++ name := by
  rw [grown]
  rfl

theorem length_grownAll (parent : Nat) (stem : String) (id : Nat) (ss : List Sprout) :
    (grownAll parent stem id ss).length = ss.length := by
  induction ss generalizing id with
  | nil => rfl
  | cons s ss ih => rw [grownAll, List.length_cons, ih, List.length_cons]

end Sprout

mutual

/-- What a branch grew from. -/
def Branch.sprout : Branch → Sprout
  | mk _ node branches => .mk node.name node.kind (sproutAll branches)

/-- What several branches grew from. -/
def Branch.sproutAll : List Branch → List Sprout
  | [] => []
  | b :: bs => sprout b :: sproutAll bs

end

namespace Sprout

mutual

/-- A grown sprout shows what it grew from. -/
theorem sprout_grown (parent : Nat) (stem : String) (id : Nat) :
    ∀ s : Sprout, (s.grown parent stem id).sprout = s
  | mk name kind parts => by
    rw [grown, Branch.sprout, sproutAll_grownAll]

theorem sproutAll_grownAll (parent : Nat) (stem : String) (id : Nat) :
    ∀ ss : List Sprout, Branch.sproutAll (grownAll parent stem id ss) = ss
  | [] => rfl
  | s :: ss => by
    rw [grownAll, Branch.sproutAll, sprout_grown parent stem id s,
      sproutAll_grownAll parent stem (id + size s) ss]

end

mutual

/-- The nodes of a grown sprout are numbered one after the other. -/
theorem ids_grown (parent : Nat) (stem : String) (id : Nat) :
    ∀ s : Sprout, (s.grown parent stem id).preorder.map Branch.id = List.range' id s.size
  | mk name kind parts => by
    rw [grown, Branch.preorder, size, List.range'_succ, List.map_cons,
      ids_grownAll id (stem ++ name ++ kind.separator) (id + 1) parts]
    rfl

theorem ids_grownAll (parent : Nat) (stem : String) (id : Nat) : ∀ ss : List Sprout,
    (Branch.preorderAll (grownAll parent stem id ss)).map Branch.id = List.range' id (sizeAll ss)
  | [] => rfl
  | s :: ss => by
    rw [grownAll, Branch.preorderAll, sizeAll, List.map_append, ids_grown parent stem id s,
      ids_grownAll parent stem (id + size s) ss, List.range'_append_1]

end

end Sprout

namespace IedModel

mutual

/-- Plants a sprout below a node. -/
def plant (m : IedModel) (parent : Nat) : Sprout → IedModel
  | .mk name kind parts => plantAll (m.addChild parent name kind) m.size parts

/-- Plants several sprouts below a node. -/
def plantAll (m : IedModel) (parent : Nat) : List Sprout → IedModel
  | [] => m
  | s :: ss => plantAll (plant m parent s) parent ss

end

theorem plantAll_append {m : IedModel} {parent : Nat} (ss ts : List Sprout) :
    m.plantAll parent (ss ++ ts) = (m.plantAll parent ss).plantAll parent ts := by
  induction ss generalizing m with
  | nil => rfl
  | cons s ss ih =>
    rw [List.cons_append, plantAll, plantAll]
    exact ih

mutual

theorem Extends.plant {m₀ m : IedModel} (h : m₀.Extends m) (parent : Nat) :
    ∀ s : Sprout, m₀.Extends (m.plant parent s)
  | .mk name kind parts => by
    rw [IedModel.plant]
    exact Extends.plantAll (h.addChild parent name kind) m.size parts

theorem Extends.plantAll {m₀ m : IedModel} (h : m₀.Extends m) (parent : Nat) :
    ∀ ss : List Sprout, m₀.Extends (m.plantAll parent ss)
  | [] => by rw [IedModel.plantAll]; exact h
  | s :: ss => by
    rw [IedModel.plantAll]
    exact Extends.plantAll (Extends.plant h parent s) parent ss

end

mutual

theorem Forest.plant {m : IedModel} (h : m.Forest) (parent : Nat) :
    ∀ s : Sprout, (m.plant parent s).Forest
  | .mk name kind parts => by
    rw [IedModel.plant]
    exact Forest.plantAll (h.addChild parent name kind) m.size parts

theorem Forest.plantAll {m : IedModel} (h : m.Forest) (parent : Nat) :
    ∀ ss : List Sprout, (m.plantAll parent ss).Forest
  | [] => by rw [IedModel.plantAll]; exact h
  | s :: ss => by
    rw [IedModel.plantAll]
    exact Forest.plantAll (Forest.plant h parent s) parent ss

end

/-- `m'` is `m` with `count` more nodes, which are those of the branches `bs` below `parent`. -/
structure Gains (m : IedModel) (parent : Nat) (p : Node) (bs : List Branch) (count : Nat)
    (m' : IedModel) : Prop where
  name : m'.name = m.name
  devices : m'.devices = m.devices
  size : m'.size = m.size + count
  adopted : m'.node? parent = some { p with children := p.children ++ bs.map Branch.id }
  others : ∀ id, id < m.size → id ≠ parent → m'.node? id = m.node? id
  new : ∀ b ∈ bs, m.size ≤ b.id
  stands : ∀ b ∈ bs, b.Stands m'

namespace Gains

variable {m m' m'' : IedModel} {parent : Nat} {p : Node}

theorem nil (hp : m.node? parent = some p) : Gains m parent p [] 0 m where
  name := rfl
  devices := rfl
  size := rfl
  adopted := by rw [List.map_nil, List.append_nil]; exact hp
  others _ _ _ := rfl
  new _ h := absurd h List.not_mem_nil
  stands _ h := absurd h List.not_mem_nil

/-- Gains of one parent come one after the other. -/
theorem append {bs cs : List Branch} {j k : Nat} (hlt : parent < m.size)
    (h : Gains m parent p bs j m')
    (h' : Gains m' parent { p with children := p.children ++ bs.map Branch.id } cs k m'') :
    Gains m parent p (bs ++ cs) (j + k) m'' where
  name := h'.name.trans h.name
  devices := h'.devices.trans h.devices
  size := by rw [h'.size, h.size, Nat.add_assoc]
  adopted := by rw [h'.adopted, List.map_append, List.append_assoc]
  others id hid hne := by
    rw [h'.others id (by rw [h.size]; omega) hne, h.others id hid hne]
  new b hb := by
    rcases List.mem_append.mp hb with hb | hb
    · exact h.new b hb
    · exact Nat.le_trans (by rw [h.size]; omega) (h'.new b hb)
  stands b hb := by
    rcases List.mem_append.mp hb with hb | hb
    · refine (h.stands b hb).frame fun id hle hid => h'.others id hid ?_
      have := h.new b hb
      omega
    · exact h'.stands b hb

/-- What a new child gains is a gain of its parent. -/
theorem child {name : String} {kind : NodeKind} {bs : List Branch} {k : Nat}
    (hp : m.node? parent = some p)
    (h : Gains (m.addChild parent name kind) m.size (childNode parent p name kind) bs k m') :
    Gains m parent p
      [.mk m.size { childNode parent p name kind with children := bs.map Branch.id } bs] (k + 1)
      m' := by
  have hlt : parent < m.size := lt_size_of_node? hp
  have hsize := size_addChild hp name kind
  refine ⟨?_, ?_, ?_, ?_, ?_, ?_, ?_⟩
  · rw [h.name, name_addChild]
  · rw [h.devices, devices_addChild]
  · rw [h.size, hsize]
    omega
  · rw [h.others parent (by omega) (by omega), node?_addChild_parent hp]
    rfl
  · intro id hid hne
    rw [h.others id (by omega) (by omega), node?_addChild_of_ne hp name kind hid hne]
  · intro b hb
    rw [List.mem_singleton.mp hb]
    exact Nat.le_refl _
  · intro b hb
    rw [List.mem_singleton.mp hb]
    refine .mk h.adopted rfl (fun c hc => ?_) h.stands
    have := h.new c hc
    omega

end Gains

mutual

theorem plant_gains {m : IedModel} {parent : Nat} {p : Node} (hp : m.node? parent = some p) :
    ∀ s : Sprout, Gains m parent p [s.grown parent (p.ref ++ p.kind.separator) m.size] s.size
      (m.plant parent s)
  | .mk name kind parts => by
    rw [plant, Sprout.grown, Sprout.size]
    have h := plantAll_gains (node?_addChild_size hp name kind) parts
    rw [size_addChild hp] at h
    exact h.child hp

/-- **Planting adds the branches of the sprouts and nothing else.** -/
theorem plantAll_gains {m : IedModel} {parent : Nat} {p : Node} (hp : m.node? parent = some p) :
    ∀ ss : List Sprout,
      Gains m parent p (Sprout.grownAll parent (p.ref ++ p.kind.separator) m.size ss)
      (Sprout.sizeAll ss) (m.plantAll parent ss)
  | [] => by
    rw [plantAll, Sprout.grownAll, Sprout.sizeAll]
    exact Gains.nil hp
  | s :: ss => by
    rw [plantAll, Sprout.grownAll, Sprout.sizeAll]
    have h := plant_gains hp s
    have hrest := plantAll_gains h.adopted ss
    rw [h.size] at hrest
    exact h.append (lt_size_of_node? hp) hrest

end

end IedModel

end Substation.Model
