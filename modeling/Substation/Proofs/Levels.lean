import Mathlib.Data.List.Basic
import Mathlib.Tactic.Common
import Substation.Proofs.Unfolding

/-!
# Sites level by level

The sites that follow a site directly can be listed in the order in which they are expanded
(`successors`), and so can those that follow it in any number of steps (`sitesBelow`). An expansion
stops at the first site that follows in as many steps as it has levels (`stopped_harvest_eq`), and
the reference of that site continues the one the expansion started from (`FollowsIn.ref_eq`).
-/

namespace Substation.Model

open Substation.Template

variable (r : Registry)

/-! ## The order of expansion -/

/-- The sites that follow a site, in the order in which they are expanded: nested data objects come
before structured attributes. -/
def successors : Site → List Site
  | .object ref type =>
    (type.objects.filterMap fun d =>
        (r.objectType? d.typeId).map (Site.object (ref ++ "." ++ d.name))) ++
      type.leaves.filterMap fun a =>
        if endsTwice (ref ++ "." ++ a.name) a.name then none
        else (structureType? r a).map (Site.group (ref ++ "." ++ a.name) a.fc)
  | .group ref fc type =>
    type.leaves.filterMap fun a =>
      (structureType? r a).map (Site.group (ref ++ "." ++ a.name) (innerConstraint fc a))

/-- The sites that follow a site in a number of steps, in the order in which they are reached. -/
def sitesBelow : Nat → Site → List Site
  | 0, s => [s]
  | k + 1, s => (successors r s).flatMap (sitesBelow k)

variable {r}

theorem mem_successors {s t : Site} : t ∈ successors r s ↔ Follows r s t := by
  cases s with
  | object ref type =>
    rw [successors, List.mem_append, List.mem_filterMap, List.mem_filterMap]
    constructor
    · rintro (⟨d, hd, h⟩ | ⟨a, ha, h⟩)
      · obtain ⟨t, ht, rfl⟩ := Option.map_eq_some_iff.mp h
        exact .object hd ht
      · split at h
        · exact nomatch h
        · rename_i hn
          obtain ⟨t, ht, rfl⟩ := Option.map_eq_some_iff.mp h
          exact .leaf ha ht (Bool.eq_false_iff.mpr hn)
    · intro h
      cases h with
      | object hd ht => exact Or.inl ⟨_, hd, by rw [ht, Option.map_some]⟩
      | leaf ha ht hn => exact Or.inr ⟨_, ha, by rw [hn, ht]; rfl⟩
  | group ref fc type =>
    rw [successors, List.mem_filterMap]
    constructor
    · rintro ⟨a, ha, h⟩
      obtain ⟨t, ht, rfl⟩ := Option.map_eq_some_iff.mp h
      exact .nested ha ht
    · intro h
      cases h with
      | nested ha ht => exact ⟨_, ha, by rw [ht, Option.map_some]⟩

theorem mem_sitesBelow {k : Nat} {s u : Site} : u ∈ sitesBelow r k s ↔ FollowsIn r k s u := by
  induction k generalizing s with
  | zero =>
    rw [sitesBelow, List.mem_singleton]
    constructor
    · rintro rfl
      exact .zero u
    · intro h
      cases h
      rfl
  | succ k ih =>
    rw [sitesBelow, List.mem_flatMap]
    constructor
    · rintro ⟨t, ht, hu⟩
      exact .succ (mem_successors.mp ht) (ih.mp hu)
    · intro h
      cases h with
      | succ hs ht => exact ⟨_, mem_successors.mpr hs, ih.mpr ht⟩

/-! ## References -/

theorem Follows.ref_eq {s t : Site} (h : Follows r s t) :
    ∃ name, t.ref = s.ref ++ "." ++ name := by
  cases h with
  | object => exact ⟨_, rfl⟩
  | leaf => exact ⟨_, rfl⟩
  | nested => exact ⟨_, rfl⟩

/-- A site that follows in some steps is as many names further down. -/
theorem FollowsIn.ref_eq {k : Nat} {s u : Site} (h : FollowsIn r k s u) :
    ∃ names : List String, names.length = k ∧
      u.ref = names.foldl (fun ref name => ref ++ "." ++ name) s.ref := by
  induction h with
  | zero s => exact ⟨[], rfl, rfl⟩
  | succ hs _ ih =>
    obtain ⟨name, hname⟩ := hs.ref_eq
    obtain ⟨names, hlength, href⟩ := ih
    exact ⟨name :: names, by rw [List.length_cons, hlength], by rw [href, hname, List.foldl_cons]⟩

/-! ## Where an expansion stops -/

namespace Harvest

theorem stopped_andThen_eq (h next : Harvest) :
    (h.andThen next).stopped = h.stopped.or next.stopped := by
  unfold andThen
  cases hs : h.stopped with
  | none => rfl
  | some e => exact hs

/-- The first of several harvests that stops is where all of them stop. -/
theorem stopped_all_eq (hs : List Harvest) : (all hs).stopped = hs.findSome? stopped := by
  induction hs with
  | nil => rfl
  | cons h hs ih =>
    rw [all, stopped_andThen_eq, ih, List.findSome?_cons]
    cases h.stopped <;> rfl

end Harvest

theorem findSome?_filterMap {α β γ : Type} (f : α → Option β) (g : β → Option γ) (l : List α) :
    (l.filterMap f).findSome? g = l.findSome? fun a => (f a).bind g := by
  rw [← List.head?_filterMap, List.filterMap_filterMap, List.head?_filterMap]

theorem stopped_objectHarvest_eq (ref : String) (d : ObjectDef) (inner : ObjectType → Harvest) :
    (objectHarvest r ref d inner).stopped =
      (r.objectType? d.typeId).bind fun t => (inner t).stopped := by
  unfold objectHarvest Harvest.under
  cases r.objectType? d.typeId <;> rfl

theorem stopped_leafHarvest_eq (ref : String) (fc : Constraint) (a : AttributeDef)
    (inner : AttributeType → Harvest) : (leafHarvest r ref fc a inner).stopped =
      (structureType? r a).bind fun t => (inner t).stopped := by
  unfold leafHarvest Harvest.under
  cases structureType? r a <;> rfl

/-- An expansion stops where the first of the sites that follow stops. -/
theorem stopped_harvest_succ_eq (n : Nat) (s : Site) : (harvest r (n + 1) s).stopped =
    (successors r s).findSome? fun t => (harvest r n t).stopped := by
  cases s with
  | object ref type =>
    rw [harvest, successors, Harvest.stopped_andThen_eq, Harvest.stopped_all_eq,
      Harvest.stopped_all_eq, List.findSome?_append, List.findSome?_map, List.findSome?_map,
      findSome?_filterMap, findSome?_filterMap]
    congr 2
    · funext d
      rw [Function.comp_apply, stopped_objectHarvest_eq, Option.bind_map]
      rfl
    · funext a
      rw [Function.comp_apply, stopped_leafHarvest_eq]
      -- below an attribute whose name is doubled nothing is expanded
      cases endsTwice (ref ++ "." ++ a.name) a.name with
      | true => cases structureType? r a <;> rfl
      | false => cases structureType? r a <;> rfl
  | group ref fc type =>
    rw [harvest, successors, Harvest.stopped_all_eq, List.findSome?_map, findSome?_filterMap]
    congr 1
    funext a
    rw [Function.comp_apply, stopped_leafHarvest_eq, Option.bind_map]
    rfl

/-- **An expansion stops at the first site that follows in as many steps as it has levels.** -/
theorem stopped_harvest_eq (n : Nat) (s : Site) :
    (harvest r n s).stopped = (sitesBelow r n s).head?.map fun u => ⟨u.ref⟩ := by
  induction n generalizing s with
  | zero => rfl
  | succ n ih =>
    rw [stopped_harvest_succ_eq, sitesBelow, List.head?_flatMap]
    simp only [ih]
    rw [List.map_findSome?]
    rfl

end Substation.Model
