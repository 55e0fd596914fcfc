import Substation.Model.IedModel

/-!
# Branches

A branch is a node together with everything below it, as a tree. Work that goes down the model
follows branches; `IedModel.branch?` cuts one out of the table.
-/

namespace Substation.Model

/-- A node with everything below it. -/
inductive Branch where
  /-- The number of the node, the node, and the branches below it in order. -/
  | mk (id : Nat) (node : Node) (branches : List Branch)

namespace Branch

/-- The number of the node. -/
def id : Branch → Nat
  | mk id _ _ => id

/-- The node. -/
def node : Branch → Node
  | mk _ node _ => node

/-- The branches directly below. -/
def branches : Branch → List Branch
  | mk _ _ branches => branches

/-- The name of the node. -/
def name (b : Branch) : String := b.node.name

/-- The reference of the node. -/
def ref (b : Branch) : String := b.node.ref

/-- The first branch of a name directly below. -/
def child? (b : Branch) (name : String) : Option Branch := b.branches.find? (·.name = name)

/-- The branch that a sequence of names leads to, step by step. -/
def walk? : List String → Branch → Option Branch
  | [], b => some b
  | name :: names, b => (b.child? name).bind (walk? names)

mutual

/-- The branches of a branch, itself first, each before those below it. -/
def preorder : Branch → List Branch
  | mk id node branches => mk id node branches :: preorderAll branches

/-- The branches of several branches, one after the other. -/
def preorderAll : List Branch → List Branch
  | [] => []
  | b :: bs => preorder b ++ preorderAll bs

end

/-- The branches below a branch at any depth, each before those below it. -/
def descendants (b : Branch) : List Branch := preorderAll b.branches

end Branch

/-- The branch of a node. Children come after their parent, which bounds the depth. -/
def IedModel.branch? (m : IedModel) (id : Nat) : Option Branch :=
  match h : m.node? id with
  | none => none
  | some n =>
    have : id < m.size := by
      simp only [IedModel.node?, Array.getElem?_eq_some_iff] at h
      exact h.1
    some (.mk id n ((n.children.filter (id < ·)).attach.filterMap fun ⟨c, hc⟩ =>
      have : id < c := by simpa using (List.mem_filter.1 hc).2
      m.branch? c))
termination_by m.size - id

/-- The nodes below a node at any depth, each before those below it (`IedModel::descendants`). -/
def IedModel.descendants (m : IedModel) (id : Nat) : List Nat :=
  match m.branch? id with
  | none => []
  | some b => b.descendants.map Branch.id

end Substation.Model
