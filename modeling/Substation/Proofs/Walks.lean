import Mathlib.Data.List.Basic
import Mathlib.Logic.Function.Iterate
import Mathlib.Tactic.Common
import Substation.Proofs.Lineage

/-!
# Walks and climbs

What stands below a node can be visited with a stack of the nodes that wait: the next node is taken
off the stack and its children are put on it. What stands above a node is found by going from node
to parent until there is a reason to stop. Neither loop is bounded by what it is given; it ends
because of how the table is built. In a forest

* a walk ends after as many rounds as there are descendants, and has visited them as `descendants`
  lists them (`Forest.visits_descendants`);
* a climb ends after at most one round more than the number of its node, with what `nearest?` and
  `topObject?` find (`Forest.finds_nearest?`, `Forest.finds_topObject?`).
-/

namespace Substation.Model

/-! ## Walks -/

/-- A walk under way. It is at its end when the stack is empty. -/
structure Walk where
  /-- The nodes that wait, the next one first. -/
  stack : List Nat
  /-- The nodes that were visited, in this order. -/
  visited : List Nat
deriving DecidableEq, Repr

namespace Walk

/-- Puts nodes on a stack, beginning with the last one. -/
def push (ids stack : List Nat) : List Nat := ids.reverse.foldl (fun stack id => id :: stack) stack

/-- The walk to what stands below a node. -/
def start (m : IedModel) (id : Nat) : Walk := ⟨push (m.children id) [], []⟩

/-- One round of a walk. -/
def step (m : IedModel) (w : Walk) : Walk :=
  match w.stack with
  | [] => w
  | id :: stack => ⟨push (m.children id) stack, w.visited ++ [id]⟩

/-- The walk to what stands below a node ends when it has visited the given nodes. -/
def Visits (m : IedModel) (id : Nat) (visited : List Nat) : Prop :=
  (step m)^[visited.length] (start m id) = ⟨[], visited⟩

/-- What a walk has still to visit. -/
def pending (m : IedModel) (w : Walk) : List Nat := w.stack.flatMap fun id => id :: m.descendants id

theorem push_eq_append (ids stack : List Nat) : push ids stack = ids ++ stack := by
  rw [push, List.foldl_flip_cons_eq_append', List.reverse_reverse]

variable {m : IedModel} (hm : m.Forest)
include hm

theorem pending_start (id : Nat) : (start m id).pending m = m.descendants id := by
  rw [pending, start, push_eq_append, List.append_nil, ← hm.descendants_eq]

/-- A round takes the next node from what is pending to what was visited. -/
theorem pending_step {w : Walk} {id : Nat} {stack : List Nat} (hw : w.stack = id :: stack) :
    w.pending m = id :: (w.step m).pending m ∧ (w.step m).visited = w.visited ++ [id] := by
  unfold step pending
  rw [hw]
  simp only [push_eq_append, List.flatMap_append, List.flatMap_cons, List.cons_append,
    ← hm.descendants_eq, and_self]

omit hm in
theorem stack_eq_nil {w : Walk} (h : w.pending m = []) : w.stack = [] := by
  obtain ⟨_ | ⟨id, stack⟩, visited⟩ := w
  · rfl
  · exact nomatch h

/-- A walk ends when all that was pending is visited. -/
theorem iterate_step (w : Walk) :
    (step m)^[(w.pending m).length] w = ⟨[], w.visited ++ w.pending m⟩ := by
  -- the induction is on how much is pending, which is one node less after each round
  induction hk : (w.pending m).length generalizing w with
  | zero =>
    have hpending := List.eq_nil_of_length_eq_zero hk
    obtain ⟨stack, visited⟩ := w
    obtain rfl : stack = [] := stack_eq_nil hpending
    rw [hpending, List.append_nil]
    rfl
  | succ k ih =>
    cases hw : w.stack with
    | nil =>
      rw [pending, hw] at hk
      exact nomatch hk
    | cons id stack =>
      obtain ⟨hpending, hvisited⟩ := pending_step hm hw
      rw [hpending, List.length_cons, Nat.add_right_cancel_iff] at hk
      rw [Function.iterate_succ_apply, ih _ hk, hvisited, hpending, List.append_assoc]
      rfl

end Walk

/-- **A walk visits the descendants** in their order, and then it ends. -/
theorem IedModel.Forest.visits_descendants {m : IedModel} (hm : m.Forest) (id : Nat) :
    Walk.Visits m id (m.descendants id) := by
  have h := Walk.iterate_step hm (Walk.start m id)
  rwa [Walk.pending_start hm id] at h

/-! ## Climbs -/

/-- A climb under way. -/
inductive Climb where
  /-- It has come to a node. -/
  | standing (id : Nat)
  /-- It is at its end and has found a node or none. -/
  | ended (found : Option Nat)
deriving DecidableEq, Repr

namespace Climb

/-- One round of a climb that looks at a node in the given way. -/
def step (look : Nat → Climb) : Climb → Climb
  | standing id => look id
  | ended found => ended found

/-- The climb from a node ends with the given answer, after no more rounds than there are numbers up
to that of the node. -/
def Finds (look : Nat → Climb) (id : Nat) (found : Option Nat) : Prop :=
  (step look)^[id + 1] (standing id) = ended found

/-- A climb that ends or goes on at a smaller number in each round ends in time, with what it would
find from where it goes on. -/
theorem finds_of_decreasing {look : Nat → Climb} {find : Nat → Option Nat}
    (h : ∀ id, look id = ended (find id) ∨ ∃ up < id, look id = standing up ∧ find id = find up)
    (id : Nat) : Finds look id (find id) := by
  have hended : ∀ k found, (step look)^[k] (ended found) = ended found := fun k found =>
    Function.iterate_fixed rfl k
  induction id using Nat.strongRecOn with
  | ind id ih =>
    rw [Finds, Function.iterate_succ_apply]
    rcases h id with hlook | ⟨up, hup, hlook, hfind⟩
    · rw [step, hlook, hended]
    · rw [step, hlook, hfind, show id = (id - (up + 1)) + (up + 1) by omega,
        Function.iterate_add_apply, ih up hup, hended]

end Climb

namespace IedModel

variable {m : IedModel} {id : Nat}

/-- Looks whether a node has a property. -/
def seek (m : IedModel) (p : Node → Bool) (id : Nat) : Climb :=
  match m.node? id with
  | none => .ended none
  | some n =>
    if p n then .ended (some id)
    else match n.parent with
      | none => .ended none
      | some up => .standing up

/-- Looks whether a node stands directly below a logical node. -/
def seekObject (m : IedModel) (id : Nat) : Climb :=
  match m.node? id with
  | none => .ended none
  | some n =>
    match n.parent with
    | none => .ended none
    | some up =>
      if m.satisfies (·.kind.isLogicalNode) up then
        .ended (if n.kind.isObject then some id else none)
      else .standing up

theorem nearest?_of_node?_eq_none (h : m.node? id = none) (p : Node → Bool) :
    m.nearest? p id = none := by
  rw [nearest?, h]

theorem topObject?_of_node?_eq_none (h : m.node? id = none) : m.topObject? id = none := by
  rw [topObject?, h]

theorem topObject?_of_parent_eq_none {n : Node} (hn : m.node? id = some n) (hp : n.parent = none) :
    m.topObject? id = none := by
  rw [topObject?, hn]
  simp only [hp]

namespace Forest

variable (hm : m.Forest)
include hm

theorem lt_of_parent {n : Node} {up : Nat} (hn : m.node? id = some n) (hp : n.parent = some up) :
    up < id :=
  hm.parent_lt (by rw [parent?, hn, Option.bind_some, hp])

theorem nearest?_eq {p : Node → Bool} {n : Node} (hn : m.node? id = some n) :
    m.nearest? p id = if p n then some id else n.parent.bind (m.nearest? p) := by
  rw [nearest?, hn]
  simp only
  cases hp : n.parent with
  | none => rfl
  | some up => simp only [hm.lt_of_parent hn hp, if_true, Option.bind_some]

theorem topObject?_eq {n : Node} {up : Nat} (hn : m.node? id = some n) (hp : n.parent = some up) :
    m.topObject? id = if m.satisfies (·.kind.isLogicalNode) up then
      if n.kind.isObject then some id else none else m.topObject? up := by
  rw [topObject?, hn]
  simp only [hp, hm.lt_of_parent hn hp, if_true]

/-- **The climb to the nearest node with a property ends.** -/
theorem finds_nearest? (p : Node → Bool) (id : Nat) :
    Climb.Finds (m.seek p) id (m.nearest? p id) := by
  refine Climb.finds_of_decreasing (fun id => ?_) id
  unfold seek
  cases hn : m.node? id with
  | none => exact .inl (congrArg Climb.ended (nearest?_of_node?_eq_none hn p).symm)
  | some n =>
    rw [hm.nearest?_eq hn]
    by_cases h : p n
    · simp only [h, if_true, true_or]
    · simp only [h, if_false, Bool.false_eq_true]
      cases hp : n.parent with
      | none => exact .inl rfl
      | some up => exact .inr ⟨up, hm.lt_of_parent hn hp, rfl, rfl⟩

/-- **The climb to the data object below the logical node ends.** -/
theorem finds_topObject? (id : Nat) : Climb.Finds m.seekObject id (m.topObject? id) := by
  refine Climb.finds_of_decreasing (fun id => ?_) id
  unfold seekObject
  cases hn : m.node? id with
  | none => exact .inl (congrArg Climb.ended (topObject?_of_node?_eq_none hn).symm)
  | some n =>
    cases hp : n.parent with
    | none =>
      rw [topObject?_of_parent_eq_none hn hp]
      simp only [hp, true_or]
    | some up =>
      rw [hm.topObject?_eq hn hp]
      simp only [hp]
      split
      · exact .inl rfl
      · exact .inr ⟨up, hm.lt_of_parent hn hp, rfl, rfl⟩

end Forest

end IedModel

end Substation.Model
