import Mathlib.Data.List.Sort
import Mathlib.Tactic.Common
import Substation.Proofs.Lineage
import Substation.Proofs.Planting

/-!
# Contiguous tables

In a contiguous table every node that has a parent stands directly below the node created just
before it or directly below one that stands above that. A table stays contiguous when a node is
added below an open one, which is one that the last node lies in (`Contiguous.addChild`); planting
adds below open nodes only (`Contiguous.plant`).

In a contiguous forest preorder is the order of creation: what stands below a node has the numbers
that follow its own, without a gap (`Contiguous.descendants_eq_range'`), and the blocks of the
logical devices follow one another and make up the table (`Contiguous.flatMap_devices`).
-/

namespace Substation.Model.IedModel

variable {m m' m'' : IedModel} {c p x y id : Nat}

/-- Every node with a parent continues the branch that was being added to. -/
def Contiguous (m : IedModel) : Prop := ∀ id p, m.parent? (id + 1) = some p → m.Within id p

/-- The last node lies in the node. -/
def Open (m : IedModel) (p : Nat) : Prop := ∃ last, m.size = last + 1 ∧ m.Within last p

/-! ## Growing -/

theorem parent?_addChild_of_some (hp : p < m.size) (name : String) (kind : NodeKind) {q : Nat}
    (h : m.parent? c = some q) : (m.addChild p name kind).parent? c = some q := by
  rw [parent?_addChild hp, if_neg (Nat.ne_of_lt (lt_size_of_parent? h)), h]

/-- A new node lies in its parent. -/
theorem isChild_addChild (hp : p < m.size) (name : String) (kind : NodeKind) :
    (m.addChild p name kind).IsChild m.size p := by
  rw [IsChild, parent?_addChild hp, if_pos rfl]

theorem open_addChild (hp : p < m.size) (name : String) (kind : NodeKind) :
    (m.addChild p name kind).Open m.size := by
  obtain ⟨n, hn⟩ := exists_node? hp
  exact ⟨m.size, size_addChild hn name kind, .refl⟩

theorem open_addDevice (name inst : String) : (m.addDevice name inst).Open m.size :=
  ⟨m.size, size_addDevice name inst, .refl⟩

/-- A change that keeps the size and the links up keeps which nodes are open. -/
theorem Open.congr (hsize : m'.size = m.size) (hparent : ∀ id, m'.parent? id = m.parent? id)
    (h : m.Open p) : m'.Open p := by
  obtain ⟨last, hlast, hp⟩ := h
  exact ⟨last, hsize.trans hlast, hp.mono fun c q hq => (hparent c).trans hq⟩

/-- Below an open node a table has grown and is contiguous again. -/
structure Grown (m : IedModel) (p : Nat) (m' : IedModel) : Prop where
  contiguous : m'.Contiguous
  stillOpen : m'.Open p
  kept : ∀ c q, m.parent? c = some q → m'.parent? c = some q

theorem Grown.trans (h : m.Grown p m') (h' : m'.Grown p m'') : m.Grown p m'' :=
  ⟨h'.contiguous, h'.stillOpen, fun c q hq => h'.kept c q (h.kept c q hq)⟩

/-- What grows below a new child grows below its parent. -/
theorem Grown.child (hp : p < m.size) {name : String} {kind : NodeKind}
    (h : (m.addChild p name kind).Grown m.size m') : m.Grown p m' := by
  refine ⟨h.contiguous, ?_, fun c q hq => h.kept c q (parent?_addChild_of_some hp name kind hq)⟩
  obtain ⟨last, hsize, hlast⟩ := h.stillOpen
  exact ⟨last, hsize, .tail hlast (h.kept _ _ (isChild_addChild hp name kind))⟩

namespace Contiguous

theorem empty (name : String) : Contiguous { name } := fun _ _ h => nomatch h

/-- A change that keeps the links up keeps a table contiguous. -/
theorem congr (hparent : ∀ id, m'.parent? id = m.parent? id) (h : m.Contiguous) :
    m'.Contiguous := by
  intro id p hp
  rw [hparent] at hp
  exact (h id p hp).mono fun c q hq => (hparent c).trans hq

theorem addDevice (h : m.Contiguous) (name inst : String) :
    (m.addDevice name inst).Contiguous :=
  h.congr (parent?_addDevice name inst)

/-- **Adding below an open node keeps a table contiguous.** -/
theorem addChild (h : m.Contiguous) (hlt : p < m.size) (hp : m.Open p) (name : String)
    (kind : NodeKind) : (m.addChild p name kind).Contiguous := by
  intro id q hq
  have hkept := fun c r => parent?_addChild_of_some (c := c) (q := r) hlt name kind
  rw [parent?_addChild hlt] at hq
  split at hq
  · -- the new node
    rename_i hid
    cases hq
    obtain ⟨last, hsize, hlast⟩ := hp
    obtain rfl : id = last := Nat.add_right_cancel (hid.trans hsize)
    exact hlast.mono hkept
  · exact (h id q hq).mono hkept

mutual

theorem plant {m : IedModel} (h : m.Contiguous) {p : Nat} (hlt : p < m.size) (hp : m.Open p) :
    ∀ s : Sprout, m.Grown p (m.plant p s)
  | .mk name kind parts => by
    rw [IedModel.plant]
    have hopen := open_addChild hlt name kind
    have hlt' : m.size < (m.addChild p name kind).size := by
      obtain ⟨n, hn⟩ := exists_node? hlt
      rw [size_addChild hn]
      exact Nat.lt_succ_self _
    exact (plantAll (h.addChild hlt hp name kind) hlt' hopen parts).child hlt

/-- **Planting below an open node keeps a table contiguous**, and the node open. -/
theorem plantAll {m : IedModel} (h : m.Contiguous) {p : Nat} (hlt : p < m.size) (hp : m.Open p) :
    ∀ ss : List Sprout, m.Grown p (m.plantAll p ss)
  | [] => by
    rw [IedModel.plantAll]
    exact ⟨h, hp, fun _ _ hq => hq⟩
  | s :: ss => by
    rw [IedModel.plantAll]
    have hgrown := plant h hlt hp s
    have hlt' : p < (m.plant p s).size := by
      obtain ⟨n, hn⟩ := exists_node? hlt
      exact lt_size_of_node? (plant_gains hn s).adopted
    exact hgrown.trans (plantAll hgrown.contiguous hlt' hgrown.stillOpen ss)

end

/-! ## Preorder -/

/-- What stands below a node has no gap in front of it. -/
theorem below_of_le (h : m.Contiguous) (hx : m.Below x id) (hy : id < y) (hle : y ≤ x) :
    m.Below y id := by
  induction hle with
  | refl => exact hx
  | @step x hle ih =>
    refine ih ?_
    obtain ⟨q, hq, hqid⟩ := Relation.TransGen.head'_iff.mp hx
    have hwithin : m.Within x id := (h x q hq).trans hqid
    exact (within_iff.mp hwithin).resolve_left (Nat.ne_of_gt (Nat.lt_of_lt_of_le hy hle))

variable (hm : m.Forest) (h : m.Contiguous)
include hm h

/-- The blocks of nodes that do not stand in one another follow one another. -/
theorem pairwise_blocks {ids : List Nat} (hids : ids.Pairwise (· < ·))
    (hapart : ∀ c ∈ ids, ∀ c' ∈ ids, ¬ m.Below c' c)
    (hbelow : ∀ c ∈ ids, (m.descendants c).Pairwise (· < ·)) :
    (ids.flatMap fun c => c :: m.descendants c).Pairwise (· < ·) := by
  refine List.pairwise_flatMap.mpr ⟨fun c hc => List.pairwise_cons.mpr ⟨fun x hx => ?_,
    hbelow c hc⟩, hids.imp_of_mem fun {c c'} hc hc' hlt x hx y hy => ?_⟩
  · exact hm.lt_of_below (hm.mem_descendants_iff.mp hx)
  · -- the second block starts behind the first one, or it would stand in it
    have hx := hm.mem_block_iff.mp hx
    have hy := hm.le_of_within (hm.mem_block_iff.mp hy)
    by_contra hge
    have hle : c' ≤ x := Nat.le_trans hy (Nat.le_of_not_lt hge)
    have hxc : m.Below x c :=
      (within_iff.mp hx).resolve_left (Nat.ne_of_gt (Nat.lt_of_lt_of_le hlt hle))
    exact hapart c hc c' hc' (h.below_of_le hxc hlt hle)

theorem pairwise_descendants (id : Nat) : (m.descendants id).Pairwise (· < ·) := by
  induction id using hm.induction_children with
  | h id ih =>
    rw [hm.descendants_eq]
    refine h.pairwise_blocks hm (hm.children_sorted id) (fun c hc c' hc' => ?_) ih
    rw [hm.mem_children] at hc hc'
    exact hm.not_below_sibling (hc'.trans hc.symm)

omit hm h in
/-- Numbers in ascending order without gaps are a range. -/
theorem eq_range'_of_pairwise {l : List Nat} {s : Nat} (hsorted : l.Pairwise (· < ·))
    (hclosed : ∀ x ∈ l, s ≤ x ∧ ∀ y, s ≤ y → y ≤ x → y ∈ l) : l = List.range' s l.length := by
  induction l generalizing s with
  | nil => rfl
  | cons a l ih =>
    obtain ⟨ha, hsorted⟩ := List.pairwise_cons.mp hsorted
    obtain ⟨⟨hle, hgap⟩, hclosed⟩ := List.forall_mem_cons.mp hclosed
    -- the range starts with the first number, as nothing comes before that
    obtain rfl : a = s := by
      rcases List.mem_cons.mp (hgap s (Nat.le_refl s) hle) with rfl | hs
      · rfl
      · exact absurd (ha s hs) (Nat.not_lt_of_le hle)
    rw [List.length_cons, List.range'_succ, ← ih hsorted fun x hx => ⟨ha x hx, fun y hy hyx => ?_⟩]
    exact (List.mem_cons.mp ((hclosed x hx).2 y (Nat.le_of_lt hy) hyx)).resolve_left
      (Nat.ne_of_gt hy)

/-- **What stands below a node has the numbers behind its own**, in preorder and without a gap. -/
theorem descendants_eq_range' (id : Nat) :
    m.descendants id = List.range' (id + 1) (m.descendants id).length := by
  refine eq_range'_of_pairwise (h.pairwise_descendants hm id) fun x hx => ?_
  rw [hm.mem_descendants_iff] at hx
  refine ⟨hm.lt_of_below hx, fun y hy hyx => ?_⟩
  rw [hm.mem_descendants_iff]
  exact h.below_of_le hx hy hyx

/-- **The blocks of the logical devices make up the table.** -/
theorem flatMap_devices :
    (m.devices.flatMap fun d => d :: m.descendants d) = List.range m.size := by
  have hsorted : (m.devices.flatMap fun d => d :: m.descendants d).Pairwise (· < ·) :=
    h.pairwise_blocks hm hm.devices_sorted
      (fun _ _ d hd => not_below_of_parent? ((hm.mem_devices d).mp hd).2)
      fun d _ => h.pairwise_descendants hm d
  refine hsorted.eq_of_mem_iff List.pairwise_lt_range fun x => ?_
  rw [List.mem_flatMap, List.mem_range]
  constructor
  · rintro ⟨d, hd, hx⟩
    rcases List.mem_cons.mp hx with rfl | hx
    · exact hm.lt_size_of_mem_devices hd
    · exact (hm.mem_descendants_iff.mp hx).lt_size
  · intro hx
    obtain ⟨d, hd, hwithin⟩ := hm.exists_device hx
    exact ⟨d, hd, hm.mem_block_iff.mpr hwithin⟩

end Contiguous

end Substation.Model.IedModel
