import Mathlib.Data.List.Nodup
import Mathlib.Logic.Relation
import Mathlib.Tactic.Common
import Substation.Proofs.Branches

/-!
# Lineage

`Below` is the relation of a node to its proper ancestors, as the links up give it, and `Within`
includes the node itself. In a forest both go from greater numbers to smaller ones, and the nodes
that `descendants` lists, going down by the links to children, are those below
(`mem_descendants_iff`), each once (`nodup_descendants`).
-/

namespace Substation.Model.IedModel

variable {m m' : IedModel} {c p x y id : Nat}

/-- A node is the child of another one. -/
def IsChild (m : IedModel) (c p : Nat) : Prop := m.parent? c = some p

/-- A node stands below another one, at whatever depth. -/
def Below (m : IedModel) : Nat → Nat → Prop := Relation.TransGen m.IsChild

/-- A node is another one or stands below it. -/
def Within (m : IedModel) : Nat → Nat → Prop := Relation.ReflTransGen m.IsChild

/-! ## Going up -/

theorem within_iff : m.Within x p ↔ x = p ∨ m.Below x p := by
  rw [eq_comm]
  exact Relation.reflTransGen_iff_eq_or_transGen

/-- The way up from a child goes through its parent. -/
theorem below_iff_of_parent? (h : m.parent? c = some p) : m.Below c x ↔ m.Within p x := by
  constructor
  · intro hx
    obtain ⟨q, hq, hqx⟩ := Relation.TransGen.head'_iff.mp hx
    rwa [← Option.some.inj (h.symm.trans hq)] at hqx
  · exact Relation.TransGen.head' h

theorem not_below_of_parent? (h : m.parent? c = none) : ¬ m.Below c x := by
  intro hx
  obtain ⟨q, hq, -⟩ := Relation.TransGen.head'_iff.mp hx
  exact nomatch h.symm.trans hq

/-- A change that keeps the links up keeps what stands where. -/
theorem Within.mono (hp : ∀ c p, m.parent? c = some p → m'.parent? c = some p)
    (h : m.Within x p) : m'.Within x p :=
  Relation.ReflTransGen.mono hp _ _ h

/-- Of two nodes above a third one, one stands above the other. -/
theorem Within.total (h : m.Within x c) (h' : m.Within x p) : m.Within c p ∨ m.Within p c := by
  have hunique : Relator.RightUnique m.IsChild := fun _ _ _ hb hc =>
    Option.some.inj (hb.symm.trans hc)
  exact Relation.ReflTransGen.total_of_right_unique hunique h h'

theorem Below.lt_size (h : m.Below x p) : x < m.size := by
  obtain ⟨q, hq, -⟩ := Relation.TransGen.head'_iff.mp h
  exact lt_size_of_parent? hq

/-! ## Going down -/

theorem descendants_eq_map {b : Branch} (hb : b.Stands m) :
    m.descendants b.id = b.descendants.map Branch.id := by
  rw [descendants, hb.branch?]

theorem map_id_preorderAll {bs : List Branch} (hbs : ∀ b ∈ bs, b.Stands m) :
    (Branch.preorderAll bs).map Branch.id =
      (bs.map Branch.id).flatMap fun c => c :: m.descendants c := by
  induction bs with
  | nil => rfl
  | cons b bs ih =>
    obtain ⟨hb, hbs⟩ := List.forall_mem_cons.mp hbs
    rw [Branch.preorderAll, List.map_append, ih hbs, List.map_cons, List.flatMap_cons,
      descendants_eq_map hb]
    congr 1
    obtain ⟨id, node, branches⟩ := b
    rw [Branch.preorder]
    rfl

/-! ## In a forest -/

namespace Forest

variable (hm : m.Forest)
include hm

/-- Numbers go down on the way up. -/
theorem lt_of_below (h : m.Below x p) : p < x := by
  induction h with
  | single hc => exact hm.parent_lt hc
  | tail _ hc ih => exact Nat.lt_trans (hm.parent_lt hc) ih

theorem le_of_within (h : m.Within x p) : p ≤ x := by
  rcases within_iff.mp h with rfl | h
  · exact Nat.le_refl _
  · exact Nat.le_of_lt (hm.lt_of_below h)

/-- No child of a node stands below another child of it. -/
theorem not_below_sibling (hc : m.parent? c = m.parent? p) : ¬ m.Below c p := by
  intro h
  cases hq : m.parent? c with
  | none => exact not_below_of_parent? hq h
  | some q =>
    -- the way up from `c` goes through the common parent, which is too small
    have hle := hm.le_of_within ((below_iff_of_parent? hq).mp h)
    exact Nat.not_lt_of_le hle (hm.parent_lt (hc.symm.trans hq))

/-- Nothing stands within two children of one node. -/
theorem not_within_siblings (hc : m.parent? c = m.parent? p) (hne : c ≠ p) (h : m.Within x c) :
    ¬ m.Within x p := by
  intro h'
  rcases h.total h' with h | h
  · exact hm.not_below_sibling hc ((within_iff.mp h).resolve_left hne)
  · exact hm.not_below_sibling hc.symm ((within_iff.mp h).resolve_left (Ne.symm hne))

/-- What holds of a node if it holds of its children holds of every node. -/
theorem induction_children {P : Nat → Prop} (h : ∀ id, (∀ c ∈ m.children id, P c) → P id)
    (id : Nat) : P id := by
  -- children have greater numbers, so the induction is on how many numbers are left
  induction hk : m.size - id using Nat.strongRecOn generalizing id with
  | ind k ih =>
    refine h id fun c hc => ih (m.size - c) ?_ c rfl
    have hlt := hm.lt_of_mem_children hc
    have hsize := hm.lt_size_of_mem_children hc
    omega

/-- **Preorder**: below a node come its children in order, each followed by what stands below it. -/
theorem descendants_eq (id : Nat) :
    m.descendants id = (m.children id).flatMap fun c => c :: m.descendants c := by
  by_cases hid : id < m.size
  · obtain ⟨b, hb, rfl⟩ := Branch.exists_stands hm hid
    rw [descendants_eq_map hb, children_eq hb.node?, hb.children]
    exact map_id_preorderAll fun c hc => hb.of_mem hc
  · have hnone := node?_eq_none_iff.mpr (Nat.le_of_not_lt hid)
    have hbranch : m.branch? id = none := by
      rw [branch?]
      split
      · rfl
      · rename_i hsome
        rw [hnone] at hsome
        exact nomatch hsome
    rw [descendants, hbranch, children_of_size_le (Nat.le_of_not_lt hid)]
    rfl

/-- **The descendants of a node are the nodes below it.** -/
theorem mem_descendants_iff : x ∈ m.descendants id ↔ m.Below x id := by
  constructor
  · intro h
    induction id using hm.induction_children generalizing x with
    | h id ih =>
      rw [hm.descendants_eq, List.mem_flatMap] at h
      obtain ⟨c, hc, hx⟩ := h
      have hchild := (hm.mem_children id c).mp hc
      rcases List.mem_cons.mp hx with rfl | hx
      · exact Relation.TransGen.single hchild
      · exact Relation.TransGen.tail (ih c hc hx) hchild
  · intro h
    induction h with
    | @single p hp =>
      rw [hm.descendants_eq, List.mem_flatMap]
      exact ⟨x, (hm.mem_children p x).mpr hp, List.mem_cons_self⟩
    | @tail c p _ hp ih =>
      rw [hm.descendants_eq, List.mem_flatMap]
      exact ⟨c, (hm.mem_children p c).mpr hp, List.mem_cons_of_mem _ ih⟩

theorem mem_block_iff : x ∈ id :: m.descendants id ↔ m.Within x id := by
  rw [List.mem_cons, hm.mem_descendants_iff, within_iff]

/-- Each descendant is listed once. -/
theorem nodup_descendants (id : Nat) : (m.descendants id).Nodup := by
  induction id using hm.induction_children with
  | h id ih =>
    rw [hm.descendants_eq, List.nodup_flatMap]
    refine ⟨fun c hc => List.nodup_cons.mpr ⟨?_, ih c hc⟩, ?_⟩
    · rw [hm.mem_descendants_iff]
      exact fun h => Nat.lt_irrefl _ (hm.lt_of_below h)
    · refine (hm.children_sorted id).imp_of_mem fun {c c'} hc hc' hlt => ?_
      have hparent : m.parent? c = m.parent? c' := by
        rw [(hm.mem_children id c).mp hc, (hm.mem_children id c').mp hc']
      show (c :: m.descendants c).Disjoint (c' :: m.descendants c')
      rw [List.disjoint_left]
      intro x hx hx'
      exact hm.not_within_siblings hparent (Nat.ne_of_lt hlt) (hm.mem_block_iff.mp hx)
        (hm.mem_block_iff.mp hx')

/-- Every node lies in a logical device. -/
theorem exists_device (hx : x < m.size) : ∃ d ∈ m.devices, m.Within x d := by
  induction x using Nat.strongRecOn with
  | ind x ih =>
    cases hp : m.parent? x with
    | none => exact ⟨x, (hm.mem_devices x).mpr ⟨hx, hp⟩, .refl⟩
    | some p =>
      have hlt := hm.parent_lt hp
      obtain ⟨d, hd, hwithin⟩ := ih p hlt (Nat.lt_trans hlt hx)
      exact ⟨d, hd, .head hp hwithin⟩

end Forest

end Substation.Model.IedModel
