import Mathlib.Data.List.Basic
import Mathlib.Tactic.Common
import Substation.Model.Expansion
import Substation.Proofs.Planting

/-!
# Unfolding of types

A site is a type that is to be expanded below a node. Sites follow one another as the definitions of
a type refer to further types (`Follows`), perhaps in a circle; `FollowsIn k` counts the steps.
`unfold n` is what grows at a site when `n` levels of sites are expanded.

`harvest n` is what an expansion with `n` levels brings in, step by step: what grows, the entries
that are made, and where it stops if it meets a site one level too deep. The two agree:

* `harvest_stopped_eq_none_iff`: the expansion does not stop iff no site follows in `n` steps;
* `sprouts_harvest`: if it does not stop, it grows the unfolding, of `n` or of any more levels.
-/

namespace Substation.Model

open Substation.Journal
open Substation.Template

/-- A type to be expanded, with the reference of the node below which it is. -/
inductive Site where
  /-- A data object type. -/
  | object (ref : String) (type : ObjectType)
  /-- An attribute type, with the functional constraint of the structured attribute. -/
  | group (ref : String) (fc : Constraint) (type : AttributeType)

/-- The reference of the node. -/
def Site.ref : Site → String
  | object ref _ => ref
  | group ref _ _ => ref

variable (r : Registry)

/-- The type of a structured attribute, if it is registered. -/
def structureType? (a : AttributeDef) : Option AttributeType :=
  if a.type = .constructed then r.attributeType? (a.typeId.getD "") else none

/-! ## Sites that follow one another -/

/-- A definition of one site refers to the other one. A structured attribute of a data object is
not followed if its reference ends with its name twice. -/
inductive Follows : Site → Site → Prop
  | object {ref : String} {type : ObjectType} {d : ObjectDef} {t : ObjectType}
      (hd : d ∈ type.objects) (ht : r.objectType? d.typeId = some t) :
      Follows (.object ref type) (.object (ref ++ "." ++ d.name) t)
  | leaf {ref : String} {type : ObjectType} {a : AttributeDef} {t : AttributeType}
      (ha : a ∈ type.leaves) (ht : structureType? r a = some t)
      (hn : endsTwice (ref ++ "." ++ a.name) a.name = false) :
      Follows (.object ref type) (.group (ref ++ "." ++ a.name) a.fc t)
  | nested {ref : String} {fc : Constraint} {type : AttributeType} {a : AttributeDef}
      {t : AttributeType} (ha : a ∈ type.leaves) (ht : structureType? r a = some t) :
      Follows (.group ref fc type) (.group (ref ++ "." ++ a.name) (innerConstraint fc a) t)

/-- The second site follows the first one in a number of steps. -/
inductive FollowsIn : Nat → Site → Site → Prop
  | zero (s : Site) : FollowsIn 0 s s
  | succ {k : Nat} {s t u : Site} (h : Follows r s t) (ht : FollowsIn k t u) :
      FollowsIn (k + 1) s u

/-- The type is registered, and no site is more than `limit` levels deep in its expansion; the site
of the data object itself is the first level. -/
def Fits (limit : Nat) (ref : String) (d : ObjectDef) : Prop :=
  ∃ t, r.objectType? d.typeId = some t ∧
    ∀ k s, FollowsIn r k (.object (ref ++ "." ++ d.name) t) s → k + 1 ≤ limit

/-! ## What grows at a site -/

/-- What grows at a site when `n` levels are expanded: at a data object type the nested data objects
and then the attributes, each in the order of their definitions, and at an attribute type its
attributes. -/
def unfold : Nat → Site → List Sprout
  | 0, _ => []
  | n + 1, .object ref type =>
    (type.objects.filterMap fun d => (r.objectType? d.typeId).map fun t =>
        .mk d.name (.object d.count t d.transient) (unfold n (.object (ref ++ "." ++ d.name) t))) ++
      type.leaves.map fun a => .mk a.name (.leaf a.fc a) <|
        if endsTwice (ref ++ "." ++ a.name) a.name then []
        else match structureType? r a with
          | some t => unfold n (.group (ref ++ "." ++ a.name) a.fc t)
          | none => []
  | n + 1, .group ref fc type =>
    type.leaves.map fun a => .mk a.name (.leaf (innerConstraint fc a) a) <|
      match structureType? r a with
      | some t => unfold n (.group (ref ++ "." ++ a.name) (innerConstraint fc a) t)
      | none => []

/-- A data object below a node of reference `ref`, unfolded for `n` levels. -/
def objectSprout? (n : Nat) (ref : String) (d : ObjectDef) : Option Sprout :=
  (r.objectType? d.typeId).map fun t =>
    .mk d.name (.object d.count t d.transient) (unfold r n (.object (ref ++ "." ++ d.name) t))

/-! ## Harvests -/

/-- What an expansion brings in. -/
structure Harvest where
  /-- What grows. -/
  sprouts : List Sprout := []
  /-- The entries that are made. -/
  entries : List Entry := []
  /-- Where the limit is reached, if it is. -/
  stopped : Option TooDeep := none

namespace Harvest

/-- One harvest after another, unless the first one stops. -/
def andThen (h next : Harvest) : Harvest :=
  match h.stopped with
  | some _ => h
  | none => ⟨h.sprouts ++ next.sprouts, h.entries ++ next.entries, next.stopped⟩

/-- Several harvests, up to the first one that stops. -/
def all : List Harvest → Harvest
  | [] => {}
  | h :: hs => h.andThen (all hs)

/-- A node with the harvest below it, and the entries made before. -/
def under (name : String) (kind : NodeKind) (first : List Entry) (h : Harvest) : Harvest :=
  ⟨[.mk name kind h.sprouts], first ++ h.entries, h.stopped⟩

theorem stopped_andThen {h next : Harvest} :
    (h.andThen next).stopped = none ↔ h.stopped = none ∧ next.stopped = none := by
  unfold andThen
  cases hs : h.stopped with
  | none => simp
  | some e => simp [hs]

theorem sprouts_andThen {h next : Harvest} (hs : h.stopped = none) :
    (h.andThen next).sprouts = h.sprouts ++ next.sprouts := by
  unfold andThen
  rw [hs]

theorem stopped_all {hs : List Harvest} : (all hs).stopped = none ↔ ∀ h ∈ hs, h.stopped = none := by
  induction hs with
  | nil => simp [all]
  | cons h hs ih => rw [all, stopped_andThen, ih, List.forall_mem_cons]

theorem sprouts_all {hs : List Harvest} (h : ∀ h ∈ hs, h.stopped = none) :
    (all hs).sprouts = hs.flatMap sprouts := by
  induction hs with
  | nil => rfl
  | cons x xs ih =>
    obtain ⟨hx, hxs⟩ := List.forall_mem_cons.mp h
    rw [all, sprouts_andThen hx, ih hxs, List.flatMap_cons]

theorem entries_andThen {h next : Harvest} (hs : h.stopped = none) :
    (h.andThen next).entries = h.entries ++ next.entries := by
  unfold andThen
  rw [hs]

theorem entries_all {hs : List Harvest} (h : ∀ h ∈ hs, h.stopped = none) :
    (all hs).entries = hs.flatMap entries := by
  induction hs with
  | nil => rfl
  | cons x xs ih =>
    obtain ⟨hx, hxs⟩ := List.forall_mem_cons.mp h
    rw [all, entries_andThen hx, ih hxs, List.flatMap_cons]

end Harvest

/-- The entry made for an attribute: a mark or a finding for the type that it refers to. -/
def leafEntries (ref : String) (a : AttributeDef) : List Entry :=
  let typeId := a.typeId.getD ""
  match a.type with
  | .constructed =>
    match r.attributeType? typeId with
    | some _ => [.mark ⟨.attributeType, typeId, ref⟩]
    | none => [.finding (.noAttributeType ref a.name typeId)]
  | .enumerated =>
    if r.contains .enumType typeId then [.mark ⟨.enumType, typeId, ref⟩]
    else [.finding (.noEnumType ref a.name typeId)]
  | _ => []

/-- The harvest of an attribute of reference `ref`. -/
def leafHarvest (ref : String) (fc : Constraint) (a : AttributeDef)
    (inner : AttributeType → Harvest) : Harvest :=
  .under a.name (.leaf fc a) (leafEntries r ref a) <|
    match structureType? r a with
    | some t => inner t
    | none => {}

/-- The harvest of a data object of reference `ref`. -/
def objectHarvest (ref : String) (d : ObjectDef) (inner : ObjectType → Harvest) : Harvest :=
  match r.objectType? d.typeId with
  | none => { entries := [.finding (.noObjectType ref d.name d.typeId)] }
  | some t =>
    .under d.name (.object d.count t d.transient) [.mark ⟨.objectType, d.typeId, ref⟩] (inner t)

/-- The harvest at a site with `n` levels left. -/
def harvest : Nat → Site → Harvest
  | 0, s => { stopped := some ⟨s.ref⟩ }
  | n + 1, .object ref type =>
    (Harvest.all (type.objects.map fun d =>
        objectHarvest r (ref ++ "." ++ d.name) d fun t =>
          harvest n (.object (ref ++ "." ++ d.name) t))).andThen <|
      Harvest.all (type.leaves.map fun a =>
        leafHarvest r (ref ++ "." ++ a.name) a.fc a fun t =>
          if endsTwice (ref ++ "." ++ a.name) a.name then {}
          else harvest n (.group (ref ++ "." ++ a.name) a.fc t))
  | n + 1, .group ref fc type =>
    Harvest.all (type.leaves.map fun a =>
      leafHarvest r (ref ++ "." ++ a.name) (innerConstraint fc a) a fun t =>
        harvest n (.group (ref ++ "." ++ a.name) (innerConstraint fc a) t))

variable {r}

/-! ### Where a harvest stops -/

theorem stopped_leafHarvest {ref : String} {fc : Constraint} {a : AttributeDef}
    {inner : AttributeType → Harvest} : (leafHarvest r ref fc a inner).stopped = none ↔
      ∀ t, structureType? r a = some t → (inner t).stopped = none := by
  unfold leafHarvest Harvest.under
  cases structureType? r a with
  | none => simp
  | some t => simp

theorem stopped_objectHarvest {ref : String} {d : ObjectDef} {inner : ObjectType → Harvest} :
    (objectHarvest r ref d inner).stopped = none ↔
      ∀ t, r.objectType? d.typeId = some t → (inner t).stopped = none := by
  unfold objectHarvest Harvest.under
  cases r.objectType? d.typeId with
  | none => simp
  | some t => simp

/-- An expansion with one more level does not stop iff none of the sites that follow does. -/
theorem stopped_harvest_succ {n : Nat} {s : Site} :
    (harvest r (n + 1) s).stopped = none ↔
      ∀ t, Follows r s t → (harvest r n t).stopped = none := by
  cases s with
  | object ref type =>
    rw [harvest, Harvest.stopped_andThen, Harvest.stopped_all, Harvest.stopped_all,
      List.forall_mem_map, List.forall_mem_map]
    constructor
    · rintro ⟨hobjects, hleaves⟩ t ht
      cases ht with
      | object hd ht => exact stopped_objectHarvest.mp (hobjects _ hd) _ ht
      | leaf ha ht hn =>
        have h := stopped_leafHarvest.mp (hleaves _ ha) _ ht
        rwa [if_neg (by rw [hn]; exact Bool.false_ne_true)] at h
    · intro h
      refine ⟨fun d hd => stopped_objectHarvest.mpr fun t ht => h _ (.object hd ht),
        fun a ha => stopped_leafHarvest.mpr fun t ht => ?_⟩
      cases hn : endsTwice (ref ++ "." ++ a.name) a.name with
      | true => rfl
      | false => exact h _ (.leaf ha ht hn)
  | group ref fc type =>
    rw [harvest, Harvest.stopped_all, List.forall_mem_map]
    constructor
    · intro hleaves t ht
      cases ht with
      | nested ha ht => exact stopped_leafHarvest.mp (hleaves _ ha) _ ht
    · exact fun h a ha => stopped_leafHarvest.mpr fun t ht => h _ (.nested ha ht)

/-- Induction over an expansion that does not stop, beside one with at least as many levels. -/
theorem harvest_induction {motive : Nat → Nat → Site → Prop}
    (step : ∀ n k s, (harvest r (n + 1) s).stopped = none →
      (∀ t, Follows r s t → motive n k t) → motive (n + 1) (k + 1) s)
    {n k : Nat} {s : Site} (h : (harvest r n s).stopped = none) (hle : n ≤ k) : motive n k s := by
  induction n generalizing s k with
  | zero => exact absurd h (by simp [harvest])
  | succ n ih =>
    obtain ⟨k, rfl⟩ := Nat.exists_eq_succ_of_ne_zero (n := k) (by omega)
    exact step n k s h fun t ht => ih (stopped_harvest_succ.mp h t ht) (Nat.le_of_succ_le_succ hle)

/-- **An expansion stops iff a site follows in as many steps as it has levels.** -/
theorem harvest_stopped_eq_none_iff {n : Nat} {s : Site} :
    (harvest r n s).stopped = none ↔ ∀ t, ¬ FollowsIn r n s t := by
  induction n generalizing s with
  | zero =>
    rw [harvest]
    exact ⟨fun h => absurd h (by simp), fun h => absurd (.zero s) (h s)⟩
  | succ n ih =>
    rw [stopped_harvest_succ]
    constructor
    · intro h u hu
      cases hu with
      | succ hs ht => exact ih.mp (h _ hs) u ht
    · exact fun h t ht => ih.mpr fun u hu => h u (.succ ht hu)

/-- What follows in some steps is preceded by what follows in fewer steps. -/
theorem FollowsIn.of_le {j k : Nat} {s u : Site} (h : FollowsIn r k s u) (hle : j ≤ k) :
    ∃ t, FollowsIn r j s t := by
  induction h generalizing j with
  | zero s => exact ⟨s, Nat.le_zero.mp hle ▸ .zero s⟩
  | @succ k s t u hs _ ih =>
    cases j with
    | zero => exact ⟨s, .zero s⟩
    | succ j =>
      obtain ⟨v, hv⟩ := ih (Nat.le_of_succ_le_succ hle)
      exact ⟨v, .succ hs hv⟩

/-- A data object fits iff its type is registered and its expansion does not stop. -/
theorem fits_iff {limit : Nat} {ref : String} {d : ObjectDef} :
    Fits r limit ref d ↔ ∃ t, r.objectType? d.typeId = some t ∧
      (harvest r limit (.object (ref ++ "." ++ d.name) t)).stopped = none := by
  refine exists_congr fun t => and_congr_right fun _ => ?_
  rw [harvest_stopped_eq_none_iff]
  constructor
  · exact fun h u hu => absurd (h _ u hu) (Nat.not_succ_le_self _)
  · intro h k u hu
    by_contra hk
    obtain ⟨t, ht⟩ := hu.of_le (Nat.le_of_lt_succ (Nat.lt_of_not_le hk))
    exact h t ht

instance (limit : Nat) (ref : String) (d : ObjectDef) : Decidable (Fits r limit ref d) :=
  decidable_of_iff ((r.objectType? d.typeId).any fun t =>
      (harvest r limit (.object (ref ++ "." ++ d.name) t)).stopped.isNone) <| by
    rw [fits_iff, Option.any_eq_true]
    simp only [Option.isNone_iff_eq_none]

/-! ### What a harvest brings in -/

theorem sprouts_leafHarvest {ref : String} {fc : Constraint} {a : AttributeDef}
    {inner : AttributeType → Harvest} (below : AttributeType → List Sprout)
    (h : ∀ t, structureType? r a = some t → (inner t).sprouts = below t) :
    (leafHarvest r ref fc a inner).sprouts = [.mk a.name (.leaf fc a) <|
      match structureType? r a with
      | some t => below t
      | none => []] := by
  unfold leafHarvest Harvest.under
  cases ht : structureType? r a with
  | none => rfl
  | some t => simp only [h t ht]

theorem sprouts_objectHarvest {ref : String} {d : ObjectDef} {inner : ObjectType → Harvest}
    (below : ObjectType → List Sprout)
    (h : ∀ t, r.objectType? d.typeId = some t → (inner t).sprouts = below t) :
    (objectHarvest r ref d inner).sprouts =
      ((r.objectType? d.typeId).map fun t =>
        Sprout.mk d.name (.object d.count t d.transient) (below t)).toList := by
  unfold objectHarvest Harvest.under
  cases ht : r.objectType? d.typeId with
  | none => rfl
  | some t => simp only [h t ht, Option.map_some, Option.toList_some]

/-- **An expansion that does not stop grows the unfolding**, and more levels change nothing. -/
theorem sprouts_harvest {n k : Nat} {s : Site} (h : (harvest r n s).stopped = none)
    (hle : n ≤ k) : (harvest r n s).sprouts = unfold r k s := by
  refine harvest_induction (motive := fun n k s => (harvest r n s).sprouts = unfold r k s)
    (fun n k s h ih => ?_) h hle
  cases s with
  | object ref type =>
    rw [harvest] at h ⊢
    rw [unfold]
    obtain ⟨hobjects, hleaves⟩ := Harvest.stopped_andThen.mp h
    rw [Harvest.sprouts_andThen hobjects, Harvest.sprouts_all (Harvest.stopped_all.mp hobjects),
      Harvest.sprouts_all (Harvest.stopped_all.mp hleaves), List.flatMap_map, List.flatMap_map,
      List.filterMap_eq_flatMap_toList, List.map_eq_flatMap]
    congr 1
    · exact List.flatMap_congr fun d hd => sprouts_objectHarvest _ fun t ht => ih _ (.object hd ht)
    · refine List.flatMap_congr fun a ha => ?_
      cases hn : endsTwice (ref ++ "." ++ a.name) a.name with
      | true =>
        rw [sprouts_leafHarvest (fun _ => []) fun t _ => by simp]
        cases structureType? r a <;> rfl
      | false => exact sprouts_leafHarvest _ fun t ht => ih _ (.leaf ha ht hn)
  | group ref fc type =>
    rw [harvest] at h ⊢
    rw [unfold, Harvest.sprouts_all (Harvest.stopped_all.mp h), List.flatMap_map,
      List.map_eq_flatMap]
    exact List.flatMap_congr fun a ha => sprouts_leafHarvest _ fun t ht => ih _ (.nested ha ht)

end Substation.Model
