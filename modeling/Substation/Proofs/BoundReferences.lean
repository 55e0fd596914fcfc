import Mathlib.Tactic.Common
import Substation.Proofs.Binding
import Substation.Proofs.DepthLimit

/-!
# Binding by reference alone

`bind?` looks for the reference of a path first and follows the names of the path only if nothing
has that reference. In a resolved model the second way is never needed: every node that the names
lead to has the reference of the path, so an attribute that could be reached step by step is among
those that the first search looks through (`isFirst_of_walk?`). Names may repeat and may hold dots;
then several attributes can have one reference, and a path is for the first of them in preorder
(`bound_by_reference`).

Results:
* `isFirst_of_walk?`: what the names lead to has the reference of the path;
* `bound_by_reference` (`bind_dai`): so the reference alone decides.
-/

namespace Substation

open Substation.Config
open Substation.Model
open Substation.Resolution
open Substation.Template

namespace Model

variable {m : IedModel} {b c : Branch} {names : List String}

/-- The branch is an attribute, and its reference is that of the path below the other branch. -/
def Branch.HasPath (b : Branch) (names : List String) (c : Branch) : Prop :=
  c.ref = refBelow b names ∧ c.node.kind.isLeaf

instance (b : Branch) (names : List String) : DecidablePred (b.HasPath names) := fun c =>
  inferInstanceAs (Decidable (c.ref = refBelow b names ∧ c.node.kind.isLeaf))

/-- What a walk leads to is below the branch where it starts, unless it ends there. -/
theorem Branch.mem_descendants_of_walk? (h : walk? names b = some c) (hne : c ≠ b) :
    c ∈ b.descendants :=
  (mem_preorder.mp (reaches_of_walk? h).mem_preorder).resolve_left hne

/-- A walk that ends at an attribute ends at one with the reference of the path. -/
theorem Branch.hasPath_of_walk? (hm : m.Lawful) (hb : b.Stands m)
    (hk : b.node.kind.isDevice = false) (h : walk? names b = some c) (hleaf : c.node.kind.isLeaf) :
    b.HasPath names c :=
  ⟨(reaches_of_walk? h).ref_eq hm hb hk, hleaf⟩

/-- **Where a walk ends at an attribute, the search for the reference has found one.** -/
theorem Branch.isFirst_of_walk? (hm : m.Lawful) (hb : b.Stands m)
    (hk : b.node.kind.isDevice = false) (hb' : b.node.kind.isLeaf = false)
    (h : walk? names b = some c) (hleaf : c.node.kind.isLeaf) :
    ∃ e, IsFirst (b.HasPath names) b.descendants e := by
  have hne : c ≠ b := by
    rintro rfl
    rw [hb'] at hleaf
    exact absurd hleaf Bool.false_ne_true
  exact exists_isFirst.mpr
    ⟨c, mem_descendants_of_walk? h hne, hasPath_of_walk? hm hb hk h hleaf⟩

/-- A path is for what is found by its reference, or else for what its names lead to. -/
theorem bind?_eq_or (b : Branch) (names : List String) : bind? b names =
    (b.descendants.find? fun c => decide (b.HasPath names c)).or
      ((Branch.walk? names b).filter (·.node.kind.isLeaf)) := by
  simp only [bind?]
  split
  · next c hfind =>
    have hfirst : b.descendants.find? (fun c => decide (b.HasPath names c)) = some c := hfind
    rw [hfirst, Option.some_or]
  · next hfind =>
    have hnone : b.descendants.find? (fun c => decide (b.HasPath names c)) = none := hfind
    rw [hnone, Option.none_or]

/-- The names of a path need not be followed. -/
theorem bind?_eq_find? (hm : m.Lawful) (hb : b.Stands m) (hk : b.node.kind.isDevice = false)
    (hb' : b.node.kind.isLeaf = false) (names : List String) :
    bind? b names = b.descendants.find? fun c => decide (b.HasPath names c) := by
  rw [bind?_eq_or]
  cases hfind : b.descendants.find? fun c => decide (b.HasPath names c) with
  | some c => rfl
  | none =>
    rw [Option.none_or, Option.filter_eq_none_iff]
    intro c hwalk hleaf
    obtain ⟨e, he⟩ := Branch.isFirst_of_walk? hm hb hk hb' hwalk hleaf
    rw [find?_eq_some_iff_isFirst.mpr he] at hfind
    exact absurd hfind (Option.some_ne_none e)

end Model

/-- **Configured values are bound by reference alone.** Below a logical node of a resolved model,
whenever the names of a path lead to an attribute step by step, some attribute has the reference of
the path. So the path is for the first attribute in preorder that has its reference, and for none if
no attribute has it; names may repeat and hold dots. -/
theorem bound_by_reference {d : Document} {ied : String} {ap : Option String} {o : ResolveOptions}
    {res : Resolution} (h : resolve d ied ap o = .ok res) {id : Nat} {ln : Branch}
    (hln : res.model.branch? id = some ln) (hk : ln.node.kind.isLogicalNode)
    (names : List String) :
    (∀ c, Branch.walk? names ln = some c → c.node.kind.isLeaf →
      ∃ e, IsFirst (ln.HasPath names) ln.descendants e) ∧
    (∀ c, bind? ln names = some c ↔ IsFirst (ln.HasPath names) ln.descendants c) ∧
    (bind? ln names = none ↔ ∀ c ∈ ln.descendants, ¬ ln.HasPath names c) := by
  obtain ⟨_, _, -, -, hstage⟩ := stage_of_resolve h
  have hm := hstage.lawful
  obtain ⟨hstands, -⟩ := (Branch.branch?_eq_some_iff hm.forest).mp hln
  have hdevice := NodeKind.isDevice_eq_false hk
  have hleaf : ln.node.kind.isLeaf = false := by
    obtain ⟨config, space, hkind⟩ := NodeKind.exists_of_isLogicalNode hk
    rw [hkind]
    rfl
  refine ⟨fun c => Branch.isFirst_of_walk? hm hstands hdevice hleaf, fun c => ?_, ?_⟩
  · rw [bind?_eq_find? hm hstands hdevice hleaf, find?_eq_some_iff_isFirst]
  · rw [bind?_eq_find? hm hstands hdevice hleaf, List.find?_eq_none]
    simp only [decide_eq_true_eq]

/-- A data object with an attribute `origin.q` and a structured attribute `origin` that has an
attribute `q`. -/
def dottedTypes : Registry where
  nodeTypes := ⟨[("L", ⟨"L", "LLN0", [⟨"Mod", "M", 0, false⟩]⟩)]⟩
  objectTypes := ⟨[("M", ⟨"M", "ENC", [],
    [⟨"origin.q", .st, .int32, none, 0, {}, none, []⟩,
      ⟨"origin", .st, .constructed, some "O", 0, {}, none, []⟩]⟩)]⟩
  attributeTypes := ⟨[("O", ⟨"O", [⟨"q", .none, .int32, none, 0, {}, none, []⟩]⟩)]⟩

/-- A document with these types. -/
def dottedDocument : Document := { nestedDocument with registry := dottedTypes }

/-- Both attributes have one reference. The names lead to the second one, node 5, but the path is
for the first one, node 3. -/
theorem bound_by_reference_dotted : ∃ res ln walked bound,
    resolve dottedDocument "E" none { checkNamespaces := false } = .ok res ∧
      res.model.branch? 1 = some ln ∧ ln.node.kind.isLogicalNode ∧
      Branch.walk? ["Mod", "origin", "q"] ln = some walked ∧ walked.id = 5 ∧
      IsFirst (ln.HasPath ["Mod", "origin", "q"]) ln.descendants bound ∧ bound.id = 3 ∧
      bind? ln ["Mod", "origin", "q"] = some bound := by
  let point : AccessPoint := ⟨"A", some ⟨[⟨"LD", none, none, some nestedNode, []⟩]⟩⟩
  let res := ofAccessPoint dottedDocument { checkNamespaces := false }
    ⟨"E", none, none, none, [point]⟩ point
  have h : resolve dottedDocument "E" none { checkNamespaces := false } = .ok res := rfl
  have hcheck : (res.model.branch? 1).any fun ln => ln.node.kind.isLogicalNode ∧
      ((Branch.walk? ["Mod", "origin", "q"] ln).any fun c => c.id = 5 ∧ c.node.kind.isLeaf) ∧
      (ln.descendants.find? fun c => decide (ln.HasPath ["Mod", "origin", "q"] c)).any
        (·.id = 3) := by
    decide +kernel
  obtain ⟨ln, hln, hcheck⟩ := (Option.any_eq_true _ _).mp hcheck
  obtain ⟨hk, hwalked, hbound⟩ := of_decide_eq_true hcheck
  obtain ⟨walked, hwalk, hwalked⟩ := (Option.any_eq_true _ _).mp hwalked
  obtain ⟨bound, hfind, hbound⟩ := (Option.any_eq_true _ _).mp hbound
  have hfirst := find?_eq_some_iff_isFirst.mp hfind
  exact ⟨res, ln, walked, bound, h, hln, hk, hwalk, (of_decide_eq_true hwalked).1, hfirst,
    of_decide_eq_true hbound, ((bound_by_reference h hln hk _).2.1 bound).mpr hfirst⟩

end Substation
