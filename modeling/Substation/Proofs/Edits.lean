import Mathlib.Data.List.Nodup
import Substation.Proofs.Table

/-!
# Runs of edits

A run is a list of edits, applied one after the other to the empty table. Whatever its edits are and
wherever it takes nodes back, the table it ends in is a well-linked forest: the links up, the links
down and the list of logical devices say the same thing, and no link leaves the table.

Results:
* `Built.edit`, `Built.run`: what an edit preserves, and what a run does;
* `run_wellLinked` (`add_logical_device`, `add_child`, `rename`, `set_namespace`, `rollback`): every
  run of edits ends in one.
-/

namespace Substation.Model

/-- One change of a node table. -/
inductive Edit
  /-- Adds a logical device. -/
  | addDevice (name inst : String)
  /-- Adds a node below another one. -/
  | addChild (parent : Nat) (name : String) (kind : NodeKind)
  /-- Renames a node. -/
  | rename (id : Nat) (name : String)
  /-- Sets the namespace of a node. -/
  | setSpace (id : Nat) (space : Namespace)
  /-- Takes back every node from a mark on. -/
  | rollback (mark : Nat)

namespace IedModel

/-- The table after an edit. -/
def edit (m : IedModel) : Edit → IedModel
  | .addDevice name inst => m.addDevice name inst
  | .addChild parent name kind => m.addChild parent name kind
  | .rename id name => m.rename id name
  | .setSpace id space => m.setSpace id space
  | .rollback mark => m.rollback mark

/-- The table after a run. -/
def run (m : IedModel) (edits : List Edit) : IedModel := edits.foldl edit m

variable {m : IedModel}

/-- One edit leads from a table that operations build to another one. -/
theorem Built.edit (h : m.Built) (e : Edit) : (m.edit e).Built := by
  cases e with
  | addDevice name inst => exact h.addDevice name inst
  | addChild parent name kind => exact h.addChild parent name kind
  | rename id name => exact h.rename id name
  | setSpace id space => exact h.setSpace id space
  | rollback mark => exact h.rollback mark

/-- So does every run. -/
theorem Built.run (h : m.Built) (edits : List Edit) : (m.run edits).Built := by
  induction edits generalizing m with
  | nil => exact h
  | cons e edits ih => exact ih (h.edit e)

/-- In a forest a node stands once below its parent and not at all below any other node. -/
theorem Forest.count_children (h : m.Forest) (p c : Nat) :
    (m.children p).count c = if m.parent? c = some p then 1 else 0 := by
  have hnodup : (m.children p).Nodup := (h.children_sorted p).imp Nat.ne_of_lt
  by_cases hc : m.parent? c = some p
  · rw [if_pos hc]
    exact List.count_eq_one_of_mem hnodup ((h.mem_children p c).mpr hc)
  · rw [if_neg hc]
    exact List.count_eq_zero_of_not_mem fun hmem => hc ((h.mem_children p c).mp hmem)

/-- **Every run of edits ends in a well-linked forest.** Parents come before their children; a node
stands exactly once below its parent and nowhere else; no child lies outside the table; the
children of a node and the logical devices are listed in order of creation, each once; and the
logical devices are the nodes without a parent. -/
theorem run_wellLinked (name : String) (edits : List Edit) :
    let m := run { name } edits
    (∀ c p, m.parent? c = some p → p < c) ∧
    (∀ p c, (m.children p).count c = if m.parent? c = some p then 1 else 0) ∧
    (∀ p, ∀ c ∈ m.children p, c < m.size) ∧
    (∀ p, (m.children p).Pairwise (· < ·)) ∧
    m.devices.Pairwise (· < ·) ∧
    (∀ d, d ∈ m.devices ↔ d < m.size ∧ m.parent? d = none) := by
  intro m
  have h : m.Forest := ((Built.empty name).run edits).forest
  refine ⟨?_, h.count_children, ?_, h.children_sorted, h.devices_sorted, h.mem_devices⟩
  · intro c p hp
    exact h.parent_lt hp
  · intro p c hc
    exact h.lt_size_of_mem_children hc

/-- A data object that is taken back leaves no link to it, and its number is free again. -/
example :
    let m := run { name := "E" } [.addDevice "LD" "LD",
      .addChild 0 "Mod" (.object 0 ⟨"T", "", [], []⟩ false), .rollback 1, .addDevice "AUX" "AUX"]
    m.size = 2 ∧ m.children 0 = [] ∧ m.devices = [0, 1] := by
  decide +kernel

end IedModel

end Substation.Model
