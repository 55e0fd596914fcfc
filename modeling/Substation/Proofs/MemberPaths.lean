import Mathlib.Data.List.Nodup
import Mathlib.Tactic.Common
import Substation.Proofs.GrownTypes
import Substation.Proofs.MemberNodes

/-!
# Names that lead through types and through the model

The check of members follows names through types, from a logical node type over data object types
(`memberType?`) to attribute types (`hasAttribute`). What it follows was expanded into nodes, except
in two places: a data object whose types are nested too deeply was taken back, and below some
attributes nothing was expanded (`Branch.StopsAt`). So names that lead through types lead through
the model as well, or to one of these places (`exists_object_of_memberType?`,
`exists_leaf_of_hasAttribute`).

Names that lead through data objects and then through attributes of the model lead through the types
if no type lists a name twice (`memberType?_of_reachesVia`, `hasAttribute_of_reachesVia`): the check
takes the first definition of a name, whatever became of the second one.
-/

namespace Substation

open Substation.Config
open Substation.Template
open Substation.Text

/-! ## Types without repeated names -/

/-- No type lists a name twice, and no attribute type goes without an id. -/
structure Template.Registry.Distinct (r : Registry) : Prop where
  nodes : ∀ e ∈ r.nodeTypes.entries, (e.2.objects.map ObjectDef.name).Nodup
  objects : ∀ e ∈ r.objectTypes.entries, (e.2.objects.map ObjectDef.name).Nodup
  leaves : ∀ e ∈ r.objectTypes.entries, (e.2.leaves.map AttributeDef.name).Nodup
  inner : ∀ e ∈ r.attributeTypes.entries, (e.2.leaves.map AttributeDef.name).Nodup
  named : r.attributeType? "" = none

namespace Model

variable {r : Registry} {m : IedModel} {b c o : Branch} {names : List String}

namespace Branch

/-- The names lead from the branch to an attribute below which nothing was expanded, and on: it is
not structured, or its reference ends with its name twice. -/
def StopsAt (b : Branch) (names : List String) : Prop :=
  ∃ front back c fc a, names = front ++ back ∧ back ≠ [] ∧
    b.ReachesVia NodeKind.isLeaf front c ∧ c.node.kind = .leaf fc a ∧ c.branches = [] ∧
    (a.type ≠ .constructed ∨ endsTwice c.ref c.name)

theorem StopsAt.step (hc : c ∈ b.branches) (hk : c.node.kind.isLeaf) (h : c.StopsAt names) :
    b.StopsAt (c.name :: names) := by
  obtain ⟨front, back, d, fc, a, rfl, hback, hr, hd⟩ := h
  exact ⟨c.name :: front, back, d, fc, a, rfl, hback, .step hc hk hr, hd⟩

end Branch

theorem LeafOf.isLeaf {a : AttributeDef} (h : LeafOf r m a c) : c.node.kind.isLeaf := by
  obtain ⟨fc, hk⟩ := h.kind
  rw [hk]
  rfl

theorem ObjectOf.isObject {d : ObjectDef} {t : ObjectType} (h : ObjectOf r m d t c) :
    c.node.kind.isObject := by
  rw [h.kind]
  rfl

/-! ## Names through types -/

/-- Names lead on from an attribute through a registered type. -/
theorem exists_of_hasNested {a : AttributeDef} {name : String}
    (h : hasNested r (name :: names) a) :
    ∃ typeId t inner, a.typeId = some typeId ∧ r.attributeType? typeId = some t ∧
      (inner ∈ t.leaves ∧ inner.name = name) ∧ hasNested r names inner := by
  rw [hasNested] at h
  cases hfound : (a.typeId.bind r.attributeType?).bind (·.leaf? name) with
  | none =>
    rw [hfound] at h
    exact absurd h Bool.false_ne_true
  | some inner =>
    rw [hfound] at h
    obtain ⟨t, ht, hinner⟩ := Option.bind_eq_some_iff.mp hfound
    obtain ⟨typeId, htypeId, ht⟩ := Option.bind_eq_some_iff.mp ht
    exact ⟨typeId, t, inner, htypeId, ht, mem_of_find?_name hinner, h⟩

/-- A dotted name leads to an attribute of the type first. -/
theorem exists_of_hasAttribute {type : ObjectType} {name : String}
    (h : hasAttribute r type name) :
    ∃ first rest a, segments '.' name = first :: rest ∧ (a ∈ type.leaves ∧ a.name = first) ∧
      hasNested r rest a := by
  unfold hasAttribute at h
  split at h
  · exact absurd h Bool.false_ne_true
  · next first rest hsegments =>
    obtain ⟨a, ha, hnested⟩ := (Option.any_eq_true _ _).mp h
    exact ⟨first, rest, a, hsegments, mem_of_find?_name ha, hnested⟩

/-- Names lead on from a data object type through a registered type. -/
theorem exists_of_nestedType? {start type : ObjectType} {name : String}
    (h : nestedType? r (name :: names) start = some type) :
    ∃ d t, (d ∈ start.objects ∧ d.name = name) ∧ r.objectType? d.typeId = some t ∧
      nestedType? r names t = some type := by
  obtain ⟨t, ht, hnext⟩ := Option.bind_eq_some_iff.mp h
  obtain ⟨d, hd, ht⟩ := Option.bind_eq_some_iff.mp ht
  exact ⟨d, t, mem_of_find?_name hd, ht, hnext⟩

/-- A dotted name leads to a data object of the logical node type first. -/
theorem exists_of_memberType? {typeId name : String} {type : ObjectType}
    (h : memberType? r typeId name = some type) :
    ∃ first rest nodeType d start, segments '.' name = first :: rest ∧
      r.nodeType? typeId = some nodeType ∧ (d ∈ nodeType.objects ∧ d.name = first) ∧
        r.objectType? d.typeId = some start ∧ nestedType? r rest start = some type := by
  unfold memberType? at h
  split at h
  · exact absurd h (by simp)
  · next first rest hsegments =>
    obtain ⟨start, hstart, hnested⟩ := Option.bind_eq_some_iff.mp h
    obtain ⟨nodeType, hnode, hstart⟩ := Option.bind_eq_some_iff.mp hstart
    obtain ⟨d, hd, ht⟩ := Option.bind_eq_some_iff.mp hstart
    exact ⟨first, rest, nodeType, d, start, hsegments, hnode, mem_of_find?_name hd, ht, hnested⟩

/-! ## From types to the model -/

section Types

variable (hm : m.Lawful)
include hm

/-- Names that lead on from an attribute of the types lead on from its node, or stop. -/
theorem exists_leaf_of_hasNested {a : AttributeDef} (h : hasNested r names a)
    (hc : LeafOf r m a c) :
    (∃ e, c.ReachesVia NodeKind.isLeaf names e) ∨ c.StopsAt names := by
  induction names generalizing a c with
  | nil => exact Or.inl ⟨c, .refl c⟩
  | cons name names ih =>
    obtain ⟨typeId, t, inner, htypeId, ht, ⟨hinner, rfl⟩, hnested⟩ := exists_of_hasNested h
    rcases hc.below with ⟨fc, t', ht', hgrown⟩ | ⟨hnone, hend⟩
    · obtain rfl : t' = t := by
        unfold structureType? at ht'
        split at ht'
        · rw [htypeId, Option.getD_some, ht] at ht'
          exact (Option.some.inj ht').symm
        · exact absurd ht' (by simp)
      obtain ⟨d, hd, hleaf⟩ := (hgrown.group_below hm).1 inner hinner
      rw [← hleaf.name]
      rcases ih hnested hleaf with ⟨e, he⟩ | hstop
      · exact Or.inl ⟨e, .step hd hleaf.isLeaf he⟩
      · exact Or.inr (hstop.step hd hleaf.isLeaf)
    · obtain ⟨fc, hk⟩ := hc.kind
      refine Or.inr ⟨[], inner.name :: names, c, fc, a, rfl, List.cons_ne_nil _ _, .refl c, hk,
        hnone, hend.imp (fun hnone htype => ?_) id⟩
      rw [structureType?, if_pos htype, htypeId, Option.getD_some, ht] at hnone
      exact absurd hnone (by simp)

/-- A dotted name that leads to an attribute of a data object type leads on from a data object of
that type, or stops. -/
theorem exists_leaf_of_hasAttribute {type : ObjectType} {name : String}
    (h : hasAttribute r type name) (ho : Grown r m o (.object o.ref type)) :
    (∃ e, o.ReachesVia NodeKind.isLeaf (segments '.' name) e) ∨ o.StopsAt (segments '.' name) := by
  obtain ⟨_, rest, a, hsegments, ⟨ha, rfl⟩, hnested⟩ := exists_of_hasAttribute h
  obtain ⟨c, hc, hleaf⟩ := (ho.object_below hm).2.1 a ha
  rw [hsegments, ← hleaf.name]
  rcases exists_leaf_of_hasNested hm hnested hleaf with ⟨e, he⟩ | hstop
  · exact Or.inl ⟨e, .step hc hleaf.isLeaf he⟩
  · exact Or.inr (hstop.step hc hleaf.isLeaf)

/-- Names that lead on through data object types lead on through data objects. -/
theorem exists_object_of_nestedType? {start type : ObjectType}
    (h : nestedType? r names start = some type) (hb : Grown r m b (.object b.ref start)) :
    ∃ o, b.ReachesVia NodeKind.isObject names o ∧ Grown r m o (.object o.ref type) := by
  induction names generalizing start b with
  | nil =>
    rw [nestedType?, Option.some.injEq] at h
    exact ⟨b, .refl b, h ▸ hb⟩
  | cons name names ih =>
    obtain ⟨d, t, ⟨hd, rfl⟩, ht, hnext⟩ := exists_of_nestedType? h
    obtain ⟨t', c, hc, hobject⟩ := (hb.object_below hm).1 d hd
      (by rw [ht]; exact Option.some_ne_none t)
    obtain rfl : t' = t := Option.some.inj (hobject.type.symm.trans ht)
    rw [← hobject.name]
    obtain ⟨o, hr, ho⟩ := ih hnext hobject.grown
    exact ⟨o, .step hc hobject.isObject hr, ho⟩

omit hm in
/-- A dotted name that leads to a data object type from a logical node type leads to a data object
below a logical node, unless the first data object on the way was taken back. -/
theorem exists_object_of_memberType? {limit : Nat} {devices : List String}
    (h : Stage r limit devices m) (hb : b.Stands m) {config : LogicalNode}
    (hconfig : b.node.kind.config? = some config) {name : String} {type : ObjectType}
    (htype : memberType? r config.lnType name = some type) :
    (∃ o, b.ReachesVia NodeKind.isObject (segments '.' name) o ∧
      Grown r m o (.object o.ref type)) ∨
    ∃ d ∈ nodeObjects r config, (segments '.' name).head? = some d.name ∧
      r.objectType? d.typeId ≠ none ∧ ¬ Fits r limit b.ref d := by
  obtain ⟨_, rest, nodeType, d, start, hsegments, hnode, ⟨hd, rfl⟩, ht, hnested⟩ :=
    exists_of_memberType? htype
  have hmem : d ∈ nodeObjects r config := by
    rw [nodeObjects, hnode]
    exact hd
  rw [hsegments]
  by_cases hfit : Fits r limit b.ref d
  · obtain ⟨t', c, hc, hobject⟩ := (h.objects_below hb hconfig).1 d hmem hfit
    obtain rfl : t' = start := Option.some.inj (hobject.type.symm.trans ht)
    obtain ⟨o, hr, ho⟩ := exists_object_of_nestedType? h.lawful hnested hobject.grown
    rw [← hobject.name]
    exact Or.inl ⟨o, .step hc hobject.isObject hr, ho⟩
  · have hne : r.objectType? d.typeId ≠ none := by rw [ht]; exact Option.some_ne_none start
    exact Or.inr ⟨d, hmem, rfl, hne, hfit⟩

/-! ## From the model to types -/

variable (hr : r.Distinct)
include hr

/-- Names that lead on through attributes of the model lead on through attribute types. -/
theorem hasNested_of_reachesVia {a : AttributeDef} (hc : LeafOf r m a c)
    (h : c.ReachesVia NodeKind.isLeaf names o) : hasNested r names a := by
  induction h generalizing a with
  | refl c => rfl
  | @step c d e names hd hk _ ih =>
    rcases hc.below with ⟨fc, t, ht, hgrown⟩ | ⟨hnone, -⟩
    · obtain ⟨inner, hinner, hleaf⟩ := (hgrown.group_below hm).2 d hd
      -- an attribute without a type id could only refer to a type without an id
      obtain ⟨typeId, htypeId, ht⟩ : ∃ typeId, a.typeId = some typeId ∧
          r.attributeType? typeId = some t := by
        unfold structureType? at ht
        split at ht
        · cases htypeId : a.typeId with
          | none =>
            rw [htypeId, Option.getD_none, hr.named] at ht
            exact absurd ht (by simp)
          | some typeId =>
            rw [htypeId, Option.getD_some] at ht
            exact ⟨typeId, rfl, ht⟩
        · exact absurd ht (by simp)
      obtain ⟨entry, hentry, rfl⟩ := Catalogue.exists_entry ht
      have hfind : entry.2.leaf? d.name = some inner :=
        (find?_name_eq_some_iff (hr.inner entry hentry)).mpr ⟨hinner, hleaf.name.symm⟩
      rw [hasNested, htypeId, Option.bind_some, ht, Option.bind_some, hfind]
      exact ih hleaf
    · rw [hnone] at hd
      exact absurd hd List.not_mem_nil

theorem hasAttribute_of_reachesVia {type : ObjectType} {name : String}
    (hreg : ∃ id, r.objectType? id = some type) (ho : Grown r m o (.object o.ref type))
    (h : o.ReachesVia NodeKind.isLeaf (segments '.' name) c) : hasAttribute r type name := by
  unfold hasAttribute
  cases hsegments : segments '.' name with
  | nil => exact absurd hsegments (segments_ne_nil '.' name)
  | cons first rest =>
    rw [hsegments] at h
    cases h with
    | @step _ d _ _ hd hk h =>
      obtain ⟨id, hid⟩ := hreg
      obtain ⟨entry, hentry, rfl⟩ := Catalogue.exists_entry hid
      rcases (ho.object_below hm).2.2 d hd with ⟨def', -, t, hobject⟩ | ⟨a, ha, hleaf⟩
      · rw [NodeKind.isLeaf_eq_false hobject.isObject] at hk
        exact absurd hk Bool.false_ne_true
      · have hfind : entry.2.leaf? d.name = some a :=
          (find?_name_eq_some_iff (hr.leaves entry hentry)).mpr ⟨ha, hleaf.name.symm⟩
        show (entry.2.leaf? d.name).any _ = true
        rw [hfind]
        exact hasNested_of_reachesVia hm hr hleaf h

/-- Names that lead on through data objects lead on through data object types. -/
theorem nestedType?_of_reachesVia {start : ObjectType}
    (hreg : ∃ id, r.objectType? id = some start) (hb : Grown r m b (.object b.ref start))
    (h : b.ReachesVia NodeKind.isObject names o) :
    ∃ type, nestedType? r names start = some type ∧ (∃ id, r.objectType? id = some type) ∧
      Grown r m o (.object o.ref type) := by
  induction h generalizing start with
  | refl b => exact ⟨start, rfl, hreg, hb⟩
  | @step b c o names hc hk _ ih =>
    obtain ⟨id, hid⟩ := hreg
    obtain ⟨entry, hentry, rfl⟩ := Catalogue.exists_entry hid
    rcases (hb.object_below hm).2.2 c hc with ⟨d, hd, t, hobject⟩ | ⟨a, -, hleaf⟩
    · have hfind : entry.2.object? c.name = some d :=
        (find?_name_eq_some_iff (hr.objects entry hentry)).mpr ⟨hd, hobject.name.symm⟩
      rw [nestedType?, hfind, Option.bind_some, hobject.type]
      exact ih ⟨_, hobject.type⟩ hobject.grown
    · have hleafKind := hleaf.isLeaf
      rw [NodeKind.isLeaf_eq_false hk] at hleafKind
      exact absurd hleafKind Bool.false_ne_true

omit hm in
theorem memberType?_of_reachesVia {limit : Nat} {devices : List String}
    (h : Stage r limit devices m) (hb : b.Stands m) {config : LogicalNode}
    (hconfig : b.node.kind.config? = some config) {name : String}
    (hreach : b.ReachesVia NodeKind.isObject (segments '.' name) o) :
    ∃ type, memberType? r config.lnType name = some type ∧
      (∃ id, r.objectType? id = some type) ∧ Grown r m o (.object o.ref type) := by
  unfold memberType?
  cases hsegments : segments '.' name with
  | nil => exact absurd hsegments (segments_ne_nil '.' name)
  | cons first rest =>
    rw [hsegments] at hreach
    cases hreach with
    | @step _ c _ _ hc hk hreach =>
      obtain ⟨d, hd, t, hobject⟩ := (h.objects_below hb hconfig).2 c hc
      unfold nodeObjects at hd
      split at hd
      · exact absurd hd List.not_mem_nil
      · rename_i nodeType hnode
        obtain ⟨entry, hentry, rfl⟩ := Catalogue.exists_entry hnode
        have hfind : entry.2.object? c.name = some d :=
          (find?_name_eq_some_iff (hr.nodes entry hentry)).mpr ⟨hd, hobject.name.symm⟩
        simp only [hnode, hfind, Option.bind_some, hobject.type]
        exact nestedType?_of_reachesVia h.lawful hr ⟨_, hobject.type⟩ hobject.grown hreach

end Types

end Model

end Substation
