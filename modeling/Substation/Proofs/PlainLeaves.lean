import Mathlib.Data.List.Basic
import Mathlib.Tactic.Common
import Substation.Proofs.Stages

/-!
# Plain attributes

An attribute that is not structured is plain. In a resolved model nothing stands below a plain
attribute (`Stage.plainEnds`), so when its value is written in place of parts, no part is lost.
-/

namespace Substation.Model

open Substation.Template

/-- Whether this is a data attribute without structure. -/
def NodeKind.isPlain : NodeKind → Bool
  | leaf _ a => a.type != .constructed
  | _ => false

@[simp] theorem NodeKind.isPlain_withSpace (kind : NodeKind) (space : Namespace) :
    (kind.withSpace space).isPlain = kind.isPlain := by
  cases kind <;> rfl

/-- Nothing stands below plain attributes. -/
def IedModel.PlainEnds (m : IedModel) : Prop :=
  ∀ id n, m.node? id = some n → n.kind.isPlain → n.children = []

mutual

/-- Nothing grows below plain attributes. -/
def Sprout.PlainEnds : Sprout → Prop
  | mk _ kind parts => (kind.isPlain → parts = []) ∧ PlainEndsAll parts

/-- Nothing grows below plain attributes of any of the sprouts. -/
def Sprout.PlainEndsAll : List Sprout → Prop
  | [] => True
  | s :: ss => PlainEnds s ∧ PlainEndsAll ss

end

theorem Sprout.plainEndsAll_iff {ss : List Sprout} : PlainEndsAll ss ↔ ∀ s ∈ ss, s.PlainEnds := by
  induction ss with
  | nil => simp [PlainEndsAll]
  | cons s ss ih => rw [PlainEndsAll, ih, List.forall_mem_cons]

/-! ## Operations -/

namespace IedModel.PlainEnds

variable {m : IedModel}

theorem branches_eq_nil {b : Branch} (h : m.PlainEnds) (hb : b.Stands m)
    (hk : b.node.kind.isPlain) : b.branches = [] := by
  have hchildren := h _ _ hb.node? hk
  rw [hb.children] at hchildren
  exact List.map_eq_nil_iff.mp hchildren

theorem empty (name : String) : PlainEnds { name } := by
  intro id n hn
  exact absurd (lt_size_of_node? hn) (by simp [size])

theorem addDevice (h : m.PlainEnds) (name inst : String) : (m.addDevice name inst).PlainEnds := by
  intro id n hn hk
  rw [node?_addDevice] at hn
  split at hn
  · cases hn
    rfl
  · exact h id n hn hk

theorem setSpace (h : m.PlainEnds) (target : Nat) (space : Namespace) :
    (m.setSpace target space).PlainEnds := by
  intro id n hn hk
  rw [node?_setSpace] at hn
  split at hn
  · obtain ⟨n', hn', rfl⟩ := Option.map_eq_some_iff.mp hn
    exact h id n' hn' (by simpa using hk)
  · exact h id n hn hk

theorem addChild (h : m.PlainEnds) {parent : Nat} {p : Node} (hp : m.node? parent = some p)
    (hk : p.kind.isPlain = false) (name : String) (kind : NodeKind) :
    (m.addChild parent name kind).PlainEnds := by
  intro id n hn hplain
  rw [node?_addChild hp] at hn
  split at hn
  · cases hn
    rfl
  · split at hn
    · cases hn
      exact absurd hplain (by simp [Node.adopt, hk])
    · exact h id n hn hplain

mutual

theorem plant {m : IedModel} (h : m.PlainEnds) {parent : Nat} {p : Node}
    (hp : m.node? parent = some p) (hk : p.kind.isPlain = false) :
    ∀ {s : Sprout}, s.PlainEnds → (m.plant parent s).PlainEnds
  | .mk name kind parts, hs => by
    rw [Sprout.PlainEnds] at hs
    rw [IedModel.plant]
    have hchild := h.addChild hp hk name kind
    cases hplain : kind.isPlain with
    | true =>
      rw [hs.1 hplain, IedModel.plantAll]
      exact hchild
    | false => exact plantAll hchild (node?_addChild_size hp name kind) hplain hs.2

theorem plantAll {m : IedModel} (h : m.PlainEnds) {parent : Nat} {p : Node}
    (hp : m.node? parent = some p) (hk : p.kind.isPlain = false) :
    ∀ {ss : List Sprout}, Sprout.PlainEndsAll ss → (m.plantAll parent ss).PlainEnds
  | [], _ => by rw [IedModel.plantAll]; exact h
  | s :: ss, hs => by
    rw [Sprout.PlainEndsAll] at hs
    rw [IedModel.plantAll]
    exact plantAll (plant h hp hk hs.1) (plant_gains hp s).adopted hk hs.2

end

end IedModel.PlainEnds

/-! ## What is planted -/

variable {r : Registry}

theorem structureType?_of_isPlain {fc : Constraint} {a : AttributeDef}
    (h : (NodeKind.leaf fc a).isPlain) : structureType? r a = none := by
  unfold structureType?
  exact if_neg (by simpa [NodeKind.isPlain] using h)

/-- Only structures are unfolded below attributes. -/
theorem plainEndsAll_unfold (n : Nat) (site : Site) : Sprout.PlainEndsAll (unfold r n site) := by
  induction n generalizing site with
  | zero => exact trivial
  | succ n ih =>
    cases site with
    | object ref type =>
      rw [unfold, Sprout.plainEndsAll_iff]
      intro s hs
      rcases List.mem_append.mp hs with hs | hs
      · obtain ⟨d, -, hd⟩ := List.mem_filterMap.mp hs
        obtain ⟨t, -, rfl⟩ := Option.map_eq_some_iff.mp hd
        exact ⟨fun hk => Bool.noConfusion hk, ih _⟩
      · obtain ⟨a, -, rfl⟩ := List.mem_map.mp hs
        refine ⟨fun hk => ?_, ?_⟩
        · rw [structureType?_of_isPlain hk]
          split <;> rfl
        · split
          · exact trivial
          · split
            · exact ih _
            · exact trivial
    | group ref fc type =>
      rw [unfold, Sprout.plainEndsAll_iff]
      intro s hs
      obtain ⟨a, -, rfl⟩ := List.mem_map.mp hs
      refine ⟨fun hk => ?_, ?_⟩
      · rw [structureType?_of_isPlain hk]
      · split
        · exact ih _
        · exact trivial

theorem plainEnds_nodeSprout (limit n : Nat) (ref : String) (config : Config.LogicalNode) :
    (nodeSprout r limit n ref config).PlainEnds := by
  refine ⟨fun hk => Bool.noConfusion hk, Sprout.plainEndsAll_iff.mpr fun s hs => ?_⟩
  obtain ⟨d, -, hd⟩ := List.mem_filterMap.mp hs
  obtain ⟨t, -, rfl⟩ := Option.map_eq_some_iff.mp hd
  exact ⟨fun hk => Bool.noConfusion hk, plainEndsAll_unfold n _⟩

/-- **Nothing stands below the plain attributes of a resolution.** -/
theorem Stage.plainEnds {limit : Nat} {names : List String} {m : IedModel}
    (h : Stage r limit names m) : m.PlainEnds := by
  induction h with
  | empty name => exact .empty name
  | device _ name inst ih => exact ih.addDevice name inst
  | @node names m h device d hd hk config ih =>
    have hplain : d.kind.isPlain = false := by
      cases hkind : d.kind with
      | leaf => rw [hkind] at hk; exact absurd hk Bool.false_ne_true
      | _ => rfl
    exact ih.plant hd hplain (plainEnds_nodeSprout _ _ _ _)
  | space _ id space ih => exact ih.setSpace id space

end Substation.Model
