import Mathlib.Data.List.Basic
import Mathlib.Tactic.Common
import Substation.Proofs.NodeBranches

/-!
# Types and the nodes that grew from them

A resolved model shows the types it grew from. Below a logical node there is a data object for each
definition of its type that fits (`Stage.objects_below`), below a data object of a type one for each
nested definition whose type is registered and an attribute for each definition of an attribute
(`Grown.object_below`), and below a structured attribute those of its type (`Grown.group_below`). An
attribute has nothing below it if it is not structured, if its type is not registered, or if its
reference ends with its name twice (`LeafOf`).
-/

namespace Substation.Model

open Substation.Config
open Substation.Template

variable {r : Registry} {m : IedModel} {b c : Branch}

/-! ## Branches and sprouts -/

namespace Branch

theorem sproutAll_eq_map (bs : List Branch) : sproutAll bs = bs.map sprout := by
  induction bs with
  | nil => rfl
  | cons b bs ih => rw [sproutAll, ih, List.map_cons]

theorem sprout_eq (b : Branch) : b.sprout = .mk b.name b.node.kind (sproutAll b.branches) := by
  cases b
  rfl

theorem eq_nil_of_sproutAll {bs : List Branch} (h : sproutAll bs = []) : bs = [] := by
  rw [sproutAll_eq_map] at h
  exact List.map_eq_nil_iff.mp h

theorem exists_of_mem_sproutAll {bs : List Branch} {s : Sprout} (h : s ∈ sproutAll bs) :
    ∃ c ∈ bs, c.sprout = s := by
  rw [sproutAll_eq_map] at h
  exact List.mem_map.mp h

theorem sprout_mem_sproutAll {bs : List Branch} (h : c ∈ bs) : c.sprout ∈ sproutAll bs := by
  rw [sproutAll_eq_map]
  exact List.mem_map_of_mem h

end Branch

/-! ## Unfoldings, part by part -/

/-- An attribute of a data object, with what grows below it in `n` levels. -/
def leafSprout (r : Registry) (n : Nat) (ref : String) (a : AttributeDef) : Sprout :=
  .mk a.name (.leaf a.fc a) <|
    if endsTwice (ref ++ "." ++ a.name) a.name then []
    else match structureType? r a with
      | some t => unfold r n (.group (ref ++ "." ++ a.name) a.fc t)
      | none => []

/-- An attribute of a structured one, with what grows below it in `n` levels. -/
def innerSprout (r : Registry) (n : Nat) (ref : String) (fc : Constraint) (a : AttributeDef) :
    Sprout :=
  .mk a.name (.leaf (innerConstraint fc a) a) <|
    match structureType? r a with
    | some t => unfold r n (.group (ref ++ "." ++ a.name) (innerConstraint fc a) t)
    | none => []

theorem unfold_object (n : Nat) (ref : String) (type : ObjectType) :
    unfold r (n + 1) (.object ref type) =
      type.objects.filterMap (objectSprout? r n ref) ++ type.leaves.map (leafSprout r n ref) := by
  rw [unfold]
  rfl

theorem unfold_group (n : Nat) (ref : String) (fc : Constraint) (type : AttributeType) :
    unfold r (n + 1) (.group ref fc type) = type.leaves.map (innerSprout r n ref fc) := by
  rw [unfold]
  rfl

/-! ## What grew at a site -/

/-- What stands below the branch is the whole of what grows at the site. -/
structure Grown (r : Registry) (m : IedModel) (b : Branch) (s : Site) : Prop where
  stands : b.Stands m
  inner : b.node.kind.isDevice = false
  ref : b.ref = s.ref
  unfolds : ∃ n, (harvest r n s).stopped = none ∧ Branch.sproutAll b.branches = unfold r n s

/-- The branch is the data object of a definition. -/
structure ObjectOf (r : Registry) (m : IedModel) (d : ObjectDef) (t : ObjectType) (c : Branch) :
    Prop where
  type : r.objectType? d.typeId = some t
  name : c.name = d.name
  kind : c.node.kind = .object d.count t d.transient
  grown : Grown r m c (.object c.ref t)

/-- The branch is the attribute of a definition. Below it stands what its type lists, or nothing. -/
structure LeafOf (r : Registry) (m : IedModel) (a : AttributeDef) (c : Branch) : Prop where
  name : c.name = a.name
  kind : ∃ fc, c.node.kind = .leaf fc a
  below : (∃ fc t, structureType? r a = some t ∧ Grown r m c (.group c.ref fc t)) ∨
    c.branches = [] ∧ (structureType? r a = none ∨ endsTwice c.ref c.name)

section Below

variable (hm : m.Lawful)
include hm

/-- What is below a child that grew as a site unfolds. -/
theorem grown_of_mem (hb : b.Stands m) (hk : b.node.kind.isDevice = false) (hc : c ∈ b.branches)
    {s : Site} (href : s.ref = b.ref ++ "." ++ c.name) {n : Nat}
    (hn : (harvest r n s).stopped = none) (hs : Branch.sproutAll c.branches = unfold r n s) :
    Grown r m c s := by
  obtain ⟨hadmits, hcref⟩ := hb.law_of_mem hm hc
  rw [NodeKind.separator_of_not_isDevice hk] at hcref
  exact ⟨hb.of_mem hc, hadmits.isDevice_eq_false, hcref.trans href.symm, n, hn, hs⟩

/-- An attribute below which the site of its type was expanded. -/
theorem leafOf_of_group (hb : b.Stands m) (hk : b.node.kind.isDevice = false) (hc : c ∈ b.branches)
    {a : AttributeDef} {fc : Constraint} {t : AttributeType} (ht : structureType? r a = some t)
    {n : Nat} (hn : (harvest r n (.group (b.ref ++ "." ++ a.name) fc t)).stopped = none)
    (hs : c.sprout = .mk a.name (.leaf fc a) (unfold r n (.group (b.ref ++ "." ++ a.name) fc t))) :
    LeafOf r m a c := by
  rw [c.sprout_eq] at hs
  injection hs with hname hkind hparts
  have hgrown : Grown r m c (.group (b.ref ++ "." ++ a.name) fc t) :=
    grown_of_mem hm hb hk hc (by rw [hname]; rfl) hn hparts
  exact ⟨hname, ⟨fc, hkind⟩, Or.inl ⟨fc, t, ht, hgrown.ref ▸ hgrown⟩⟩

/-- An attribute below which nothing was expanded. -/
theorem leafOf_of_nil (hb : b.Stands m) (hk : b.node.kind.isDevice = false) (hc : c ∈ b.branches)
    {a : AttributeDef} {fc : Constraint}
    (hend : structureType? r a = none ∨ endsTwice (b.ref ++ "." ++ a.name) a.name)
    (hs : c.sprout = .mk a.name (.leaf fc a) []) : LeafOf r m a c := by
  rw [c.sprout_eq] at hs
  injection hs with hname hkind hparts
  obtain ⟨-, hcref⟩ := hb.law_of_mem hm hc
  rw [NodeKind.separator_of_not_isDevice hk, hname] at hcref
  exact ⟨hname, ⟨fc, hkind⟩, Or.inr ⟨Branch.eq_nil_of_sproutAll hparts, by rwa [hcref, hname]⟩⟩

/-! ## Below a data object -/

omit hm in
theorem exists_levels {s : Site} (h : ∃ n, (harvest r n s).stopped = none ∧
    Branch.sproutAll b.branches = unfold r n s) :
    ∃ n, (∀ t, Follows r s t → (harvest r n t).stopped = none) ∧
      Branch.sproutAll b.branches = unfold r (n + 1) s := by
  obtain ⟨n, hn, hs⟩ := h
  cases n with
  | zero => exact absurd hn (by simp [harvest])
  | succ n => exact ⟨n, stopped_harvest_succ.mp hn, hs⟩

theorem objectOf_of_objectSprout? (hb : b.Stands m) (hk : b.node.kind.isDevice = false)
    (hc : c ∈ b.branches) {d : ObjectDef} {n : Nat}
    (hn : ∀ t, r.objectType? d.typeId = some t →
      (harvest r n (.object (b.ref ++ "." ++ d.name) t)).stopped = none)
    (hs : objectSprout? r n b.ref d = some c.sprout) : ∃ t, ObjectOf r m d t c := by
  obtain ⟨t, ht, hsprout⟩ := Option.map_eq_some_iff.mp hs
  rw [c.sprout_eq] at hsprout
  injection hsprout with hname hkind hparts
  have hgrown : Grown r m c (.object (b.ref ++ "." ++ d.name) t) :=
    grown_of_mem hm hb hk hc (by rw [← hname]; rfl) (hn t ht) hparts.symm
  exact ⟨t, ht, hname.symm, hkind.symm, hgrown.ref ▸ hgrown⟩

theorem leafOf_of_leafSprout (hb : b.Stands m) (hk : b.node.kind.isDevice = false)
    (hc : c ∈ b.branches) {a : AttributeDef} {n : Nat}
    (hn : ∀ t, structureType? r a = some t → endsTwice (b.ref ++ "." ++ a.name) a.name = false →
      (harvest r n (.group (b.ref ++ "." ++ a.name) a.fc t)).stopped = none)
    (hs : c.sprout = leafSprout r n b.ref a) : LeafOf r m a c := by
  unfold leafSprout at hs
  cases htwice : endsTwice (b.ref ++ "." ++ a.name) a.name with
  | true =>
    rw [htwice] at hs
    exact leafOf_of_nil hm hb hk hc (Or.inr htwice) hs
  | false =>
    rw [htwice] at hs
    cases ht : structureType? r a with
    | none =>
      rw [ht] at hs
      exact leafOf_of_nil hm hb hk hc (Or.inl ht) hs
    | some t =>
      rw [ht] at hs
      exact leafOf_of_group hm hb hk hc ht (hn t ht htwice) hs

/-- **Below a data object** stand the nested data objects whose types are registered and the
attributes of its type, and nothing else. -/
theorem Grown.object_below {ref : String} {type : ObjectType}
    (h : Grown r m b (.object ref type)) :
    (∀ d ∈ type.objects, r.objectType? d.typeId ≠ none →
      ∃ t, ∃ c ∈ b.branches, ObjectOf r m d t c) ∧
    (∀ a ∈ type.leaves, ∃ c ∈ b.branches, LeafOf r m a c) ∧
    ∀ c ∈ b.branches, (∃ d ∈ type.objects, ∃ t, ObjectOf r m d t c) ∨
      ∃ a ∈ type.leaves, LeafOf r m a c := by
  obtain ⟨hb, hk, href, hunfolds⟩ := h
  obtain rfl : b.ref = ref := href
  obtain ⟨n, hfollows, hs⟩ := exists_levels hunfolds
  rw [unfold_object] at hs
  have hobject : ∀ c ∈ b.branches, ∀ d ∈ type.objects, objectSprout? r n b.ref d = some c.sprout →
      ∃ t, ObjectOf r m d t c := fun c hc d hd =>
    objectOf_of_objectSprout? hm hb hk hc fun t ht => hfollows _ (.object hd ht)
  have hleaf : ∀ c ∈ b.branches, ∀ a ∈ type.leaves, c.sprout = leafSprout r n b.ref a →
      LeafOf r m a c := fun c hc a ha =>
    leafOf_of_leafSprout hm hb hk hc fun t ht htwice => hfollows _ (.leaf ha ht htwice)
  refine ⟨fun d hd hne => ?_, fun a ha => ?_, fun c hc => ?_⟩
  · obtain ⟨s, hsome⟩ : ∃ s, objectSprout? r n b.ref d = some s := by
      obtain ⟨t, ht⟩ := Option.ne_none_iff_exists'.mp hne
      rw [objectSprout?, ht]
      exact ⟨_, rfl⟩
    obtain ⟨c, hc, rfl⟩ := Branch.exists_of_mem_sproutAll
      (hs ▸ List.mem_append_left _ (List.mem_filterMap.mpr ⟨d, hd, hsome⟩))
    obtain ⟨t, hobjectOf⟩ := hobject c hc d hd hsome
    exact ⟨t, c, hc, hobjectOf⟩
  · obtain ⟨c, hc, hsprout⟩ := Branch.exists_of_mem_sproutAll
      (hs ▸ List.mem_append_right _ (List.mem_map_of_mem ha))
    exact ⟨c, hc, hleaf c hc a ha hsprout⟩
  · have hmem := Branch.sprout_mem_sproutAll hc
    rw [hs] at hmem
    rcases List.mem_append.mp hmem with hmem | hmem
    · obtain ⟨d, hd, hsome⟩ := List.mem_filterMap.mp hmem
      exact Or.inl ⟨d, hd, hobject c hc d hd hsome⟩
    · obtain ⟨a, ha, hsprout⟩ := List.mem_map.mp hmem
      exact Or.inr ⟨a, ha, hleaf c hc a ha hsprout.symm⟩

/-! ## Below a structured attribute -/

theorem leafOf_of_innerSprout (hb : b.Stands m) (hk : b.node.kind.isDevice = false)
    (hc : c ∈ b.branches) {a : AttributeDef} {fc : Constraint} {n : Nat}
    (hn : ∀ t, structureType? r a = some t →
      (harvest r n (.group (b.ref ++ "." ++ a.name) (innerConstraint fc a) t)).stopped = none)
    (hs : c.sprout = innerSprout r n b.ref fc a) : LeafOf r m a c := by
  unfold innerSprout at hs
  cases ht : structureType? r a with
  | none =>
    rw [ht] at hs
    exact leafOf_of_nil hm hb hk hc (Or.inl ht) hs
  | some t =>
    rw [ht] at hs
    exact leafOf_of_group hm hb hk hc ht (hn t ht) hs

/-- **Below a structured attribute** stand the attributes of its type and nothing else. -/
theorem Grown.group_below {ref : String} {fc : Constraint} {type : AttributeType}
    (h : Grown r m b (.group ref fc type)) :
    (∀ a ∈ type.leaves, ∃ c ∈ b.branches, LeafOf r m a c) ∧
    ∀ c ∈ b.branches, ∃ a ∈ type.leaves, LeafOf r m a c := by
  obtain ⟨hb, hk, href, hunfolds⟩ := h
  obtain rfl : b.ref = ref := href
  obtain ⟨n, hfollows, hs⟩ := exists_levels hunfolds
  rw [unfold_group] at hs
  have hleaf : ∀ c ∈ b.branches, ∀ a ∈ type.leaves, c.sprout = innerSprout r n b.ref fc a →
      LeafOf r m a c := fun c hc a ha =>
    leafOf_of_innerSprout hm hb hk hc fun t ht => hfollows _ (.nested ha ht)
  refine ⟨fun a ha => ?_, fun c hc => ?_⟩
  · obtain ⟨c, hc, hsprout⟩ := Branch.exists_of_mem_sproutAll (hs ▸ List.mem_map_of_mem ha)
    exact ⟨c, hc, hleaf c hc a ha hsprout⟩
  · have hmem := Branch.sprout_mem_sproutAll hc
    rw [hs] at hmem
    obtain ⟨a, ha, hsprout⟩ := List.mem_map.mp hmem
    exact ⟨a, ha, hleaf c hc a ha hsprout.symm⟩

end Below

/-! ## Below a logical node -/

/-- The logical node is named as it is configured, and below it grew the data objects of its type
that fit. -/
def NodeGrown (r : Registry) (limit : Nat) (b : Branch) : Prop :=
  ∃ config, b.node.kind.config? = some config ∧ b.name = config.name ∧
    Branch.sproutAll b.branches = ((nodeObjects r config).filter (Fits r limit b.ref ·)).filterMap
      (objectSprout? r limit b.ref)

/-- So it is for every logical node of a resolution. -/
theorem Stage.nodeGrown {limit : Nat} {names : List String} (h : Stage r limit names m)
    (hb : b.Stands m) (hk : b.node.kind.isLogicalNode) : NodeGrown r limit b := by
  refine h.forall_logicalNode (P := NodeGrown r limit) ?_ ?_ b hb hk
  · intro config parent stem id
    rw [nodeSprout, Sprout.grown]
    exact ⟨config, rfl, rfl, Sprout.sproutAll_grownAll _ _ _ _⟩
  · rintro b b' halike ⟨config, hconfig, hname, hs⟩
    refine ⟨config, halike.config.trans hconfig, halike.name.trans hname, ?_⟩
    rw [halike.branches, halike.ref, hs]

/-- **Below a logical node** stand the data objects of its type that fit, and nothing else. -/
theorem Stage.objects_below {limit : Nat} {names : List String} (h : Stage r limit names m)
    (hb : b.Stands m) {config : LogicalNode} (hconfig : b.node.kind.config? = some config) :
    (∀ d ∈ nodeObjects r config, Fits r limit b.ref d →
      ∃ t, ∃ c ∈ b.branches, ObjectOf r m d t c) ∧
    ∀ c ∈ b.branches, ∃ d ∈ nodeObjects r config, ∃ t, ObjectOf r m d t c := by
  have hk : b.node.kind.isLogicalNode := by
    rw [NodeKind.isLogicalNode_eq, hconfig]
    rfl
  have hdevice := NodeKind.isDevice_eq_false hk
  obtain ⟨config', hconfig', -, hs⟩ := h.nodeGrown hb hk
  obtain rfl : config = config' := Option.some.inj (hconfig.symm.trans hconfig')
  have hobject : ∀ c ∈ b.branches, ∀ d, Fits r limit b.ref d →
      objectSprout? r limit b.ref d = some c.sprout → ∃ t, ObjectOf r m d t c := by
    intro c hc d hfit
    refine objectOf_of_objectSprout? h.lawful hb hdevice hc fun t ht => ?_
    obtain ⟨t', ht', hn⟩ := fits_iff.mp hfit
    rw [ht] at ht'
    exact Option.some.inj ht' ▸ hn
  refine ⟨fun d hd hfit => ?_, fun c hc => ?_⟩
  · obtain ⟨s, hsome⟩ : ∃ s, objectSprout? r limit b.ref d = some s := by
      obtain ⟨t, ht, -⟩ := hfit
      rw [objectSprout?, ht]
      exact ⟨_, rfl⟩
    have hfits : d ∈ (nodeObjects r config).filter (Fits r limit b.ref ·) :=
      List.mem_filter.mpr ⟨hd, decide_eq_true hfit⟩
    obtain ⟨c, hc, rfl⟩ := Branch.exists_of_mem_sproutAll
      (hs ▸ List.mem_filterMap.mpr ⟨d, hfits, hsome⟩)
    obtain ⟨t, hobjectOf⟩ := hobject c hc d hfit hsome
    exact ⟨t, c, hc, hobjectOf⟩
  · have hmem := Branch.sprout_mem_sproutAll hc
    rw [hs] at hmem
    obtain ⟨d, hd, hsome⟩ := List.mem_filterMap.mp hmem
    obtain ⟨hd, hfit⟩ := List.mem_filter.mp hd
    exact ⟨d, hd, hobject c hc d (of_decide_eq_true hfit) hsome⟩

end Substation.Model
