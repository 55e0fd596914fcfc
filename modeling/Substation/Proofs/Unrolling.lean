import Mathlib.Data.List.Count
import Mathlib.Tactic.Common
import Substation.Proofs.Ancestry

/-!
# Unrolled arrays

Unrolling a branch puts, below each node that is an array, a block for each of its elements, and all
that stands below the node into each of these blocks. So a node occurs once for each combination of
elements of the arrays around it: `count_unrolled` counts the occurrences, going down one step at a
time. Every occurrence of a node has the same parts (`exists_of_mem_subtreesAll`).
-/

namespace Substation.Model

/-- What stands at a place of an unrolled branch. -/
inductive Mark where
  /-- A node. -/
  | node (id : Nat)
  /-- An element of a node that is an array. -/
  | element (id number : Nat)
deriving DecidableEq, Repr

/-- A tree of marks. -/
inductive Unrolled where
  | mk (mark : Mark) (parts : List Unrolled)

namespace Unrolled

/-- The mark at the top. -/
def mark : Unrolled → Mark
  | mk mark _ => mark

/-- What stands below the top. -/
def parts : Unrolled → List Unrolled
  | mk _ parts => parts

mutual

/-- The tree and all trees in it, each before those in it. -/
def subtrees : Unrolled → List Unrolled
  | mk mark parts => mk mark parts :: subtreesAll parts

/-- The trees in several trees. -/
def subtreesAll : List Unrolled → List Unrolled
  | [] => []
  | t :: ts => subtrees t ++ subtreesAll ts

end

/-- The marks, each before those below it. -/
def marks (t : Unrolled) : List Mark := t.subtrees.map mark

/-- The marks of several trees. -/
def marksAll (ts : List Unrolled) : List Mark := (subtreesAll ts).map mark

theorem marks_mk (k : Mark) (parts : List Unrolled) : (mk k parts).marks = k :: marksAll parts := by
  rw [marks, subtrees]
  rfl

theorem marksAll_nil : marksAll [] = [] := rfl

theorem marksAll_cons (t : Unrolled) (ts : List Unrolled) :
    marksAll (t :: ts) = t.marks ++ marksAll ts := by
  rw [marksAll, subtreesAll, List.map_append]
  rfl

theorem marksAll_append (ts us : List Unrolled) :
    marksAll (ts ++ us) = marksAll ts ++ marksAll us := by
  induction ts with
  | nil => rfl
  | cons t ts ih => rw [List.cons_append, marksAll_cons, marksAll_cons, ih, List.append_assoc]

/-- What stands below a node: its parts, or for an array a block of them for each element. -/
def blocks (size id : Nat) (parts : List Unrolled) : List Unrolled :=
  if size = 0 then parts else (List.range size).map fun i => mk (.element id i) parts

/-- In the blocks of an array each node occurs once for each element. -/
theorem count_blocks (size id x : Nat) (parts : List Unrolled) :
    (marksAll (blocks size id parts)).count (.node x) =
      max 1 size * (marksAll parts).count (.node x) := by
  have helements (n : Nat) :
      (marksAll ((List.range n).map fun i => mk (.element id i) parts)).count (.node x) =
        n * (marksAll parts).count (.node x) := by
    induction n with
    | zero => rw [Nat.zero_mul]; rfl
    | succ n ih =>
      rw [List.range_succ, List.map_append, marksAll_append, List.count_append, ih,
        List.map_singleton, marksAll_cons, marksAll_nil, List.append_nil, marks_mk,
        List.count_cons_of_ne (by simp), Nat.succ_mul]
  unfold blocks
  by_cases hsize : size = 0
  · rw [if_pos hsize, hsize]
    exact (Nat.one_mul _).symm
  · rw [if_neg hsize, helements, Nat.max_eq_right (Nat.pos_of_ne_zero hsize)]

theorem mem_blocks_iff {size id x : Nat} {parts : List Unrolled} :
    .node x ∈ marksAll (blocks size id parts) ↔ .node x ∈ marksAll parts := by
  rw [← List.count_pos_iff, ← List.count_pos_iff, count_blocks]
  constructor
  · intro h
    exact Nat.pos_of_mul_pos_left h
  · intro h
    exact Nat.mul_pos (by omega) h

end Unrolled

open Unrolled

namespace Branch

mutual

/-- The branch with its arrays unrolled. -/
def unrolled : Branch → Unrolled
  | mk id node branches => .mk (.node id) (blocks node.kind.arraySize id (unrolledAll branches))

/-- Several branches with their arrays unrolled. -/
def unrolledAll : List Branch → List Unrolled
  | [] => []
  | b :: bs => unrolled b :: unrolledAll bs

end

variable {m : IedModel} {b c d : Branch}

theorem unrolled_eq (b : Branch) :
    b.unrolled = .mk (.node b.id) (blocks b.node.kind.arraySize b.id (unrolledAll b.branches)) := by
  cases b
  rw [unrolled]
  rfl

theorem unrolledAll_eq_map (bs : List Branch) : unrolledAll bs = bs.map unrolled := by
  induction bs with
  | nil => rfl
  | cons b bs ih => rw [unrolledAll, ih, List.map_cons]

/-! ## Which nodes occur -/

mutual

theorem mem_marks_iff {x : Nat} : ∀ b : Branch,
    .node x ∈ b.unrolled.marks ↔ ∃ c ∈ b.preorder, c.id = x
  | mk id node branches => by
    rw [unrolled, marks_mk, List.mem_cons, mem_blocks_iff, mem_marksAll_iff branches, preorder,
      List.exists_mem_cons_iff]
    simp only [Mark.node.injEq, Branch.id, eq_comm]

/-- The nodes that occur are those of the branches. -/
theorem mem_marksAll_iff {x : Nat} : ∀ bs : List Branch,
    .node x ∈ marksAll (unrolledAll bs) ↔ ∃ c ∈ preorderAll bs, c.id = x
  | [] => by simp [unrolledAll, marksAll_nil, preorderAll]
  | b :: bs => by
    rw [unrolledAll, marksAll_cons, List.mem_append, mem_marks_iff b, mem_marksAll_iff bs,
      preorderAll]
    simp only [List.mem_append, or_and_right, exists_or]

end

/-! ## How often they occur -/

section

variable (hm : m.Lawful) (hb : b.Stands m)
include hm hb

/-- A node below a branch occurs as often as in the part of the branch that holds it, once for each
element. -/
theorem count_unrolled_of_mem (hd : d ∈ b.branches) (hc : c ∈ d.preorder) :
    b.unrolled.marks.count (.node c.id) =
      b.node.kind.factor * d.unrolled.marks.count (.node c.id) := by
  have hlt : b.id < c.id := (hb.of_mem_descendants (mem_descendants.mpr ⟨d, hd, hc⟩)).2
  obtain ⟨front, back, hsplit⟩ := List.append_of_mem hd
  -- no other part holds the node
  have hother : ∀ d' ∈ front ++ back, d'.unrolled.marks.count (.node c.id) = 0 := by
    intro d' hd'
    have hnodup := hb.nodup_branches hm.forest
    rw [hsplit, List.nodup_middle, List.nodup_cons] at hnodup
    refine List.count_eq_zero_of_not_mem fun hmem => hnodup.1 ?_
    obtain ⟨c', hc', hid⟩ := (mem_marks_iff d').mp hmem
    have hmem' : d' ∈ b.branches := by
      rw [hsplit]
      exact List.mem_append.mpr ((List.mem_append.mp hd').imp_right (List.mem_cons_of_mem d))
    rwa [hb.eq_of_mem_preorder hm hd hmem' hc hc' hid.symm]
  have hzero : ∀ bs : List Branch, (∀ d' ∈ bs, d'.unrolled.marks.count (.node c.id) = 0) →
      (marksAll (unrolledAll bs)).count (.node c.id) = 0 := by
    intro bs hbs
    induction bs with
    | nil => rfl
    | cons d' bs ih =>
      obtain ⟨hd', hrest⟩ := List.forall_mem_cons.mp hbs
      rw [unrolledAll, marksAll_cons, List.count_append, hd', ih hrest]
  obtain ⟨hfront, hback⟩ := List.forall_mem_append.mp hother
  rw [unrolled_eq, marks_mk, List.count_cons_of_ne (by simp; omega), count_blocks, hsplit,
    unrolledAll_eq_map, List.map_append, List.map_cons, marksAll_append, marksAll_cons,
    ← unrolledAll_eq_map, ← unrolledAll_eq_map, List.count_append, List.count_append,
    hzero front hfront, hzero back hback, Nat.zero_add, Nat.add_zero]
  rfl

omit hm in
/-- A branch does not occur below its own top. -/
theorem count_unrolled_self : b.unrolled.marks.count (.node b.id) = 1 := by
  have hnot : .node b.id ∉ marksAll (unrolledAll b.branches) := by
    rw [mem_marksAll_iff]
    rintro ⟨c, hc, hid⟩
    exact absurd hid (Nat.ne_of_gt (hb.of_mem_descendants hc).2)
  rw [unrolled_eq, marks_mk, List.count_cons_self, count_blocks, List.count_eq_zero_of_not_mem hnot]
  rfl

end

/-- **A node occurs once for each combination of elements of the arrays around it.** -/
theorem count_unrolled (hm : m.Lawful) (hb : b.Stands m) (hc : c ∈ b.preorder) :
    b.unrolled.marks.count (.node c.id) * m.repetitions b.id = m.repetitions c.id := by
  obtain ⟨names, hr⟩ := mem_preorder_iff.mp hc
  clear hc
  induction hr with
  | refl b => rw [count_unrolled_self hb, Nat.one_mul]
  | @step b d c names hd hr ih =>
    calc b.unrolled.marks.count (.node c.id) * m.repetitions b.id
        = b.node.kind.factor * d.unrolled.marks.count (.node c.id) * m.repetitions b.id := by
          rw [count_unrolled_of_mem hm hb hd hr.mem_preorder]
      _ = d.unrolled.marks.count (.node c.id) * (b.node.kind.factor * m.repetitions b.id) := by
          ac_rfl
      _ = d.unrolled.marks.count (.node c.id) * m.repetitions d.id := by
          rw [repetitions_of_mem hm hb hd]
      _ = m.repetitions c.id := ih (hb.of_mem hd)

/-- Below a logical node the repetitions count the occurrences. -/
theorem count_unrolledAll (hm : m.Lawful) (hb : b.Stands m) (hk : b.node.kind.isLogicalNode)
    (hc : c ∈ b.descendants) :
    (marksAll (unrolledAll b.branches)).count (.node c.id) = m.repetitions c.id := by
  have hlt : b.id < c.id := (hb.of_mem_descendants hc).2
  have hsize : b.node.kind.arraySize = 0 := by
    obtain ⟨config, space, hkind⟩ := NodeKind.exists_of_isLogicalNode hk
    rw [hkind]
    rfl
  have hcount := count_unrolled hm hb (mem_preorder.mpr (.inr hc))
  rw [hm.repetitions_of_isLogicalNode hb.node? hk, Nat.mul_one, unrolled_eq, hsize, marks_mk,
    List.count_cons_of_ne (by simp; omega)] at hcount
  exact hcount

/-! ## What an occurrence holds -/

theorem mem_subtreesAll_blocks {size id x : Nat} {parts : List Unrolled} {t : Unrolled}
    (ht : t ∈ subtreesAll (blocks size id parts)) (hx : t.mark = .node x) :
    t ∈ subtreesAll parts := by
  unfold blocks at ht
  split at ht
  · exact ht
  · -- an element is no node, so the occurrence lies within one
    generalize List.range size = numbers at ht
    induction numbers with
    | nil => exact absurd ht List.not_mem_nil
    | cons i numbers ih =>
      rw [List.map_cons, subtreesAll, subtrees] at ht
      rcases List.mem_append.mp ht with ht | ht
      · rcases List.mem_cons.mp ht with rfl | ht
        · exact Mark.noConfusion hx
        · exact ht
      · exact ih ht

mutual

theorem exists_of_mem_subtrees {x : Nat} {t : Unrolled} (hx : t.mark = .node x) :
    ∀ b : Branch, t ∈ b.unrolled.subtrees → ∃ c ∈ b.preorder, c.id = x ∧ t = c.unrolled
  | mk id node branches, ht => by
    rw [unrolled, subtrees] at ht
    rcases List.mem_cons.mp ht with ht | ht
    · refine ⟨mk id node branches, self_mem_preorder _, ?_, by rw [unrolled, ht]⟩
      rw [ht] at hx
      exact Mark.node.inj hx
    · obtain ⟨c, hc, hcx⟩ := exists_of_mem_subtreesAll hx branches (mem_subtreesAll_blocks ht hx)
      exact ⟨c, mem_preorder.mpr (.inr hc), hcx⟩

/-- Wherever a node occurs, its branch is unrolled. -/
theorem exists_of_mem_subtreesAll {x : Nat} {t : Unrolled} (hx : t.mark = .node x) :
    ∀ bs : List Branch, t ∈ subtreesAll (unrolledAll bs) →
      ∃ c ∈ preorderAll bs, c.id = x ∧ t = c.unrolled
  | [], ht => by
    rw [unrolledAll, subtreesAll] at ht
    exact absurd ht List.not_mem_nil
  | b :: bs, ht => by
    rw [unrolledAll, subtreesAll] at ht
    rw [preorderAll]
    rcases List.mem_append.mp ht with ht | ht
    · obtain ⟨c, hc, hcx⟩ := exists_of_mem_subtrees hx b ht
      exact ⟨c, List.mem_append_left _ hc, hcx⟩
    · obtain ⟨c, hc, hcx⟩ := exists_of_mem_subtreesAll hx bs ht
      exact ⟨c, List.mem_append_right _ hc, hcx⟩

end

/-- Below a standing branch, what occurs under the mark of a node is that node, unrolled. -/
theorem Stands.eq_unrolled {m : IedModel} {b c : Branch} (hb : b.Stands m)
    (hc : c ∈ b.descendants) {t : Unrolled} (ht : t ∈ subtreesAll (unrolledAll b.branches))
    (hmark : t.mark = .node c.id) : t = c.unrolled := by
  obtain ⟨c', hc', hid, rfl⟩ := exists_of_mem_subtreesAll hmark b.branches ht
  obtain ⟨hcs, -⟩ := hb.of_mem_descendants hc
  obtain ⟨hcs', -⟩ := hb.of_mem_descendants hc'
  rw [hcs'.unique hcs hid]

end Branch

end Substation.Model
