import Mathlib.Data.List.Basic
import Mathlib.Tactic.Common
import Substation.Proofs.Ancestry
import Substation.Proofs.GrownTypes
import Substation.Proofs.MemberFindings
import Substation.Proofs.NodeParts
import Substation.Proofs.UsedTemplates

/-!
# What the usage pass collects

The pass over a finished model goes down the types of its data objects, not the data objects. Since
every type that is nested in one of them grew a data object of its own, and the expansion did not
stop there, the pass meets exactly the types of the data objects of the model
(`mentions_objectTypeMarks`), and its own limit never cuts it (`objectTypeMarks_of_le`). So it
collects a closure that can be read off the model (`tracked_exact`).

Results:
* `mentions_objectTypeMarks` (`mark_do_type_references`): the types that the pass meets;
* `objectTypeMarks_of_le`: its limit never cuts it;
* `tracked_exact` (`track_usage`, `mark_model`): what it collects.
-/

namespace Substation

open Substation.Config
open Substation.Model
open Substation.Template

/-! ## Marks that mention a template -/

namespace Template

/-- Some mark is for the template. -/
def Mentions (ms : List Mark) (kind : Kind) (id : String) : Prop :=
  ∃ mark ∈ ms, mark.kind = kind ∧ mark.id = id

variable {ms ms' : List Mark} {kind : Kind} {id : String}

theorem Usage.isUsed_ofList_iff : (ofList ms).isUsed kind id ↔ Mentions ms kind id := by
  rw [isUsed, marks_ofList, List.any_eq_true]
  simp only [List.mem_eraseDups, decide_eq_true_eq]
  rfl

@[simp] theorem mentions_nil : ¬ Mentions [] kind id := fun ⟨_, h, _⟩ => List.not_mem_nil h

@[simp] theorem mentions_cons {mark : Mark} :
    Mentions (mark :: ms) kind id ↔ (mark.kind = kind ∧ mark.id = id) ∨ Mentions ms kind id := by
  simp [Mentions]

@[simp] theorem mentions_append :
    Mentions (ms ++ ms') kind id ↔ Mentions ms kind id ∨ Mentions ms' kind id := by
  simp [Mentions, or_and_right, exists_or]

@[simp] theorem mentions_flatMap {α : Type} {f : α → List Mark} {l : List α} :
    Mentions (l.flatMap f) kind id ↔ ∃ x ∈ l, Mentions (f x) kind id := by
  simp only [Mentions, List.mem_flatMap]
  constructor
  · rintro ⟨mark, ⟨x, hx, hmark⟩, h⟩
    exact ⟨x, hx, mark, hmark, h⟩
  · rintro ⟨x, hx, mark, hmark, h⟩
    exact ⟨mark, ⟨x, hx, hmark⟩, h⟩

/-- What a data object type stands for: itself, the types of its structures and those of the
structures directly inside them, and its enumerations. -/
inductive ObjectType.Reports (r : Registry) (t : ObjectType) : Kind → String → Prop
  | self : Reports r t .objectType t.id
  | struct {a : AttributeDef} {id : String} (ha : a ∈ t.leaves) (hc : a.type = .constructed)
      (hid : a.typeId = some id) : Reports r t .attributeType id
  | nested {a b : AttributeDef} {u : AttributeType} {id inner : String} (ha : a ∈ t.leaves)
      (hc : a.type = .constructed) (hid : a.typeId = some id) (hu : r.attributeType? id = some u)
      (hb : b ∈ u.leaves) (hcb : b.type = .constructed) (hinner : b.typeId = some inner) :
      Reports r t .attributeType inner
  | enumeration {a : AttributeDef} {id : String} (ha : a ∈ t.leaves) (he : a.type = .enumerated)
      (hid : a.typeId = some id) : Reports r t .enumType id

end Template

/-! ## Marks of types -/

namespace Model

variable {r : Registry} {kind : Kind} {id user : String}

theorem mentions_markIfRegistered {kind' : Kind} {id? : Option String} :
    Mentions (markIfRegistered r kind' user id?) kind id ↔
      kind' = kind ∧ id? = some id ∧ r.contains kind id := by
  unfold markIfRegistered
  cases id? with
  | none => simp
  | some i =>
    cases hi : r.contains kind' i with
    | true =>
      simp only [hi, Option.filter_some, if_true, mentions_cons, mentions_nil, or_false,
        Option.some.injEq]
      constructor
      · rintro ⟨rfl, rfl⟩
        exact ⟨rfl, rfl, hi⟩
      · exact fun h => ⟨h.1, h.2.1⟩
    | false =>
      simp only [hi, Option.filter_some, Bool.false_eq_true, if_false, mentions_nil,
        Option.some.injEq, false_iff]
      rintro ⟨rfl, rfl, h⟩
      exact Bool.false_ne_true (hi.symm.trans h)

theorem mentions_innerStructures {u : AttributeType} :
    Mentions (innerStructures r user u) kind id ↔
      kind = .attributeType ∧ r.contains kind id ∧
        ∃ b ∈ u.leaves, b.type = .constructed ∧ b.typeId = some id := by
  rw [innerStructures, mentions_flatMap]
  constructor
  · rintro ⟨b, hb, h⟩
    split at h
    · rename_i hc
      obtain ⟨rfl, hid, hcontains⟩ := mentions_markIfRegistered.mp h
      exact ⟨rfl, hcontains, b, hb, hc, hid⟩
    · exact absurd h mentions_nil
  · rintro ⟨rfl, hcontains, b, hb, hc, hid⟩
    refine ⟨b, hb, ?_⟩
    rw [if_pos hc]
    exact mentions_markIfRegistered.mpr ⟨rfl, hid, hcontains⟩

theorem leafMarks_of_constructed {a : AttributeDef} {i : String} {u : AttributeType}
    (hc : a.type = .constructed) (hi : a.typeId = some i) (hu : r.attributeType? i = some u) :
    leafMarks r user a =
      markIfRegistered r .attributeType user (some i) ++ innerStructures r user u := by
  unfold leafMarks
  rw [hc, hi]
  simp only [Option.bind_some, hu]

/-- The attributes of a data object type mark what it stands for, itself apart. -/
theorem reports_of_mentions {t : ObjectType} {a : AttributeDef} (ha : a ∈ t.leaves)
    (h : Mentions (leafMarks r user a) kind id) : r.contains kind id ∧ t.Reports r kind id := by
  unfold leafMarks at h
  split at h
  · rename_i hc
    split at h
    · exact absurd h mentions_nil
    · rename_i u hu
      obtain ⟨i, hi, hu⟩ := Option.bind_eq_some_iff.mp hu
      rcases mentions_append.mp h with h | h
      · obtain ⟨rfl, hid, hcontains⟩ := mentions_markIfRegistered.mp h
        exact ⟨hcontains, .struct ha hc hid⟩
      · obtain ⟨rfl, hcontains, b, hb, hcb, hid⟩ := mentions_innerStructures.mp h
        exact ⟨hcontains, .nested ha hc hi hu hb hcb hid⟩
  · rename_i he
    obtain ⟨rfl, hid, hcontains⟩ := mentions_markIfRegistered.mp h
    exact ⟨hcontains, .enumeration ha he hid⟩
  · exact absurd h mentions_nil

theorem mentions_of_reports {t : ObjectType} (hcontains : r.contains kind id)
    (h : t.Reports r kind id) : (Kind.objectType = kind ∧ t.id = id) ∨
      ∃ a ∈ t.leaves, Mentions (leafMarks r user a) kind id := by
  cases h with
  | self => exact Or.inl ⟨rfl, rfl⟩
  | @struct a _ ha hc hid =>
    obtain ⟨u, hu⟩ : ∃ u, r.attributeType? id = some u :=
      Option.isSome_iff_exists.mp (by simpa [Registry.contains, Registry.find?] using hcontains)
    refine Or.inr ⟨a, ha, ?_⟩
    rw [leafMarks_of_constructed hc hid hu, mentions_append]
    exact Or.inl (mentions_markIfRegistered.mpr ⟨rfl, rfl, hcontains⟩)
  | @nested a b u i _ ha hc hi hu hb hcb hid =>
    refine Or.inr ⟨a, ha, ?_⟩
    rw [leafMarks_of_constructed hc hi hu, mentions_append]
    exact Or.inr (mentions_innerStructures.mpr ⟨rfl, hcontains, b, hb, hcb, hid⟩)
  | @enumeration a _ ha he hid =>
    refine Or.inr ⟨a, ha, ?_⟩
    unfold leafMarks
    rw [he]
    exact mentions_markIfRegistered.mpr ⟨rfl, hid, hcontains⟩

/-- What a data object type marks with its attributes is what it stands for. -/
theorem mentions_leafMarks {t : ObjectType} (ht : r.contains .objectType t.id) :
    ((Kind.objectType = kind ∧ t.id = id) ∨ ∃ a ∈ t.leaves, Mentions (leafMarks r user a) kind id) ↔
      r.contains kind id ∧ t.Reports r kind id := by
  constructor
  · rintro (⟨rfl, rfl⟩ | ⟨a, ha, h⟩)
    · exact ⟨ht, .self⟩
    · exact reports_of_mentions ha h
  · exact fun h => mentions_of_reports h.1 h.2

/-! ## Types below data objects -/

theorem contains_objectType {t : ObjectType} {i : String} (hr : Keyed r)
    (ht : r.objectType? i = some t) : r.contains .objectType t.id := by
  rw [Registry.contains, Registry.find?, hr i t ht, ht]
  rfl

variable {m : IedModel} {b : Branch}

/-- A type for which a branch or something in it is a data object. -/
def Branch.HasType (b : Branch) (t : ObjectType) : Prop :=
  ∃ c ∈ b.preorder, ∃ count transient, c.node.kind = .object count t transient

/-- There are no data objects in attributes. -/
theorem Branch.Stands.not_hasType (hm : m.Lawful) (hb : b.Stands m) (hk : b.node.kind.isLeaf)
    {t : ObjectType} : ¬ b.HasType t := by
  rintro ⟨c, hc, count, transient, hkind⟩
  obtain ⟨names, hr⟩ := mem_preorder_iff.mp hc
  induction hr with
  | refl b =>
    rw [hkind] at hk
    exact Bool.false_ne_true hk
  | @step b d c names hd hr ih =>
    exact ih (hb.of_mem hd) ((hb.law_of_mem hm hd).1.isLeaf_of_isLeaf hk) hr.mem_preorder hkind

/-- The types in a data object are its own and those in the data objects below it. -/
theorem hasType_iff (hm : m.Lawful) {t u : ObjectType} (hb : Grown r m b (.object b.ref t))
    {count : Nat} {transient : Bool} (hk : b.node.kind = .object count t transient) :
    b.HasType u ↔ u = t ∨
      ∃ d ∈ t.objects, ∃ v, ∃ c ∈ b.branches, ObjectOf r m d v c ∧ c.HasType u := by
  constructor
  · rintro ⟨c, hc, count', transient', hkind⟩
    rcases Branch.mem_preorder.mp hc with rfl | hc
    · rw [hk] at hkind
      cases hkind
      exact Or.inl rfl
    · obtain ⟨e, he, hc⟩ := Branch.mem_descendants.mp hc
      have htype : e.HasType u := ⟨c, hc, count', transient', hkind⟩
      rcases (hb.object_below hm).2.2 e he with ⟨d, hd, v, hobject⟩ | ⟨a, -, hleaf⟩
      · exact Or.inr ⟨d, hd, v, e, he, hobject, htype⟩
      · obtain ⟨fc, hkind'⟩ := hleaf.kind
        exact absurd htype ((hb.stands.of_mem he).not_hasType hm (by rw [hkind']; rfl))
  · rintro (rfl | ⟨d, -, v, c, hc, -, e, he, htype⟩)
    · exact ⟨b, Branch.self_mem_preorder _, count, transient, hk⟩
    · exact ⟨e, Branch.mem_preorder_of_mem_branches hc he, htype⟩

/-- **The pass down a data object type marks the types of the data objects** that grew from it. -/
theorem mentions_objectTypeMarks (hm : m.Lawful) (hr : Keyed r) {n : Nat} {t : ObjectType}
    (hb : Grown r m b (.object b.ref t)) {count : Nat} {transient : Bool}
    (hk : b.node.kind = .object count t transient) (ht : r.contains .objectType t.id)
    (hstop : (harvest r n (.object b.ref t)).stopped = none) :
    Mentions (⟨.objectType, t.id, user⟩ :: objectTypeMarks r user n t) kind id ↔
      r.contains kind id ∧ ∃ u, b.HasType u ∧ u.Reports r kind id := by
  induction n generalizing b t count transient with
  | zero => exact absurd hstop (by simp [harvest])
  | succ n ih =>
    have hfollows := stopped_harvest_succ.mp hstop
    -- the pass goes down a nested type as it does down a data object of it
    have hbelow : ∀ d ∈ t.objects, ∀ v, ∀ c ∈ b.branches, ObjectOf r m d v c →
        (Mentions (⟨.objectType, d.typeId, user⟩ :: objectTypeMarks r user n v) kind id ↔
          r.contains kind id ∧ ∃ u, c.HasType u ∧ u.Reports r kind id) := by
      intro d hd v c hc hobject
      have href : c.ref = b.ref ++ "." ++ d.name := by
        rw [(hb.stands.law_of_mem hm hc).2, NodeKind.separator_of_not_isDevice hb.inner,
          hobject.name]
      rw [← hr _ v hobject.type]
      refine ih hobject.grown hobject.kind (contains_objectType hr hobject.type) ?_
      rw [href]
      exact hfollows _ (.object hd hobject.type)
    have hobjects := (hb.object_below hm).1
    rw [objectTypeMarks, mentions_cons, mentions_append, or_left_comm, mentions_flatMap,
      mentions_flatMap, mentions_leafMarks ht]
    constructor
    · rintro (⟨d, hd, h⟩ | ⟨hcontains, hreports⟩)
      · cases hv : r.objectType? d.typeId with
        | none =>
          rw [hv] at h
          exact absurd h mentions_nil
        | some v =>
          rw [hv] at h
          obtain ⟨v', c, hc, hobject⟩ := hobjects d hd (by rw [hv]; exact Option.some_ne_none v)
          obtain rfl : v = v' := Option.some.inj (hv.symm.trans hobject.type)
          obtain ⟨hcontains, u, hu, hreports⟩ := (hbelow d hd v c hc hobject).mp h
          exact ⟨hcontains, u, (hasType_iff hm hb hk).mpr
            (Or.inr ⟨d, hd, v, c, hc, hobject, hu⟩), hreports⟩
      · exact ⟨hcontains, t, (hasType_iff hm hb hk).mpr (Or.inl rfl), hreports⟩
    · rintro ⟨hcontains, u, hu, hreports⟩
      rcases (hasType_iff hm hb hk).mp hu with rfl | ⟨d, hd, v, c, hc, hobject, hu⟩
      · exact Or.inr ⟨hcontains, hreports⟩
      · refine Or.inl ⟨d, hd, ?_⟩
        rw [hobject.type]
        exact (hbelow d hd v c hc hobject).mpr ⟨hcontains, u, hu, hreports⟩

/-- **The limit of the pass does not cut it** where it did not cut the expansion. -/
theorem objectTypeMarks_of_le {n k : Nat} {ref : String} {t : ObjectType}
    (h : (harvest r n (.object ref t)).stopped = none) (hle : n ≤ k) :
    objectTypeMarks r user k t = objectTypeMarks r user n t := by
  induction n generalizing k ref t with
  | zero => exact absurd h (by simp [harvest])
  | succ n ih =>
    obtain ⟨k, rfl⟩ := Nat.exists_eq_succ_of_ne_zero (n := k) (by omega)
    have hfollows := stopped_harvest_succ.mp h
    rw [objectTypeMarks, objectTypeMarks]
    congr 1
    refine List.flatMap_congr fun d hd => ?_
    cases hv : r.objectType? d.typeId with
    | none => rfl
    | some v =>
      exact congrArg (_ :: ·) (ih (hfollows _ (.object hd hv)) (Nat.le_of_succ_le_succ hle))

/-! ## Marks of logical nodes -/

/-- A value configured directly below a data object is for an attribute of the enumeration. -/
def ValueReports (ln : Branch) (doi : Doi) (id : String) : Prop :=
  ∃ dai ∈ doi.leaves, dai.values ≠ [] ∧ ∃ (b : Branch) (fc : Constraint) (a : AttributeDef),
    bind? ln [doi.name, dai.name] = some b ∧ b.node.kind = .leaf fc a ∧ a.type = .enumerated ∧
      a.typeId = some id

/-- What a logical node stands for: the enumerations of its values, its type, and the types of its
data objects with what they stand for. -/
def NodeReports (r : Registry) (ln : Branch) (config : LogicalNode) (kind : Kind) (id : String) :
    Prop :=
  (∃ doi ∈ config.instances, Kind.enumType = kind ∧ ValueReports ln doi id) ∨
    (Kind.nodeType = kind ∧ config.lnType = id) ∨ ∃ u, ln.HasType u ∧ u.Reports r kind id

theorem mentions_valueMarks {ln : Branch} {doi : Doi} : Mentions (valueMarks r ln doi) kind id ↔
    r.contains kind id ∧ Kind.enumType = kind ∧ ValueReports ln doi id := by
  rw [valueMarks, mentions_flatMap]
  constructor
  · rintro ⟨dai, hdai, h⟩
    split at h
    · exact absurd h mentions_nil
    · rename_i hvalues
      split at h
      · exact absurd h mentions_nil
      · rename_i b hbind
        split at h
        · rename_i fc a hleaf
          split at h
          · rename_i he
            obtain ⟨rfl, hid, hcontains⟩ := mentions_markIfRegistered.mp h
            exact ⟨hcontains, rfl, dai, hdai, fun hnil => hvalues (List.isEmpty_iff.mpr hnil), b,
              fc, a, hbind, hleaf, he, hid⟩
          · exact absurd h mentions_nil
        · exact absurd h mentions_nil
  · rintro ⟨hcontains, rfl, dai, hdai, hvalues, b, fc, a, hbind, hleaf, he, hid⟩
    refine ⟨dai, hdai, ?_⟩
    rw [if_neg fun hempty => hvalues (List.isEmpty_iff.mp hempty), hbind]
    simp only [hleaf, he, if_true]
    exact mentions_markIfRegistered.mpr ⟨rfl, hid, hcontains⟩

section Stage

variable {limit : Nat} {names : List String} (h : Stage r limit names m) {ln : Branch}
  (hln : ln.Stands m) {config : LogicalNode} (hconfig : ln.node.kind.config? = some config)
include h hln hconfig

/-- The expansion of a data object of a logical node does not stop. -/
theorem exists_objectOf {c : Branch} (hc : c ∈ ln.branches) : ∃ d t, ObjectOf r m d t c ∧
    (harvest r limit (.object c.ref t)).stopped = none := by
  obtain ⟨d, -, t, hobject⟩ := (h.objects_below hln hconfig).2 c hc
  refine ⟨d, t, hobject, ?_⟩
  have hpart : c.node.part ∈ ln.parts := List.mem_map_of_mem hc
  rw [(h.full hln hconfig).1] at hpart
  obtain ⟨d', hd', hpart⟩ := List.mem_filterMap.mp hpart
  obtain ⟨t', ht', hsame⟩ := Option.map_eq_some_iff.mp hpart
  obtain ⟨hname, hkind⟩ := Prod.mk.inj hsame
  obtain rfl : t' = t := by
    rw [show c.node.kind = _ from hobject.kind] at hkind
    injection hkind
  obtain ⟨t'', ht'', hstop⟩ := fits_iff.mp (of_decide_eq_true (List.mem_filter.mp hd').2)
  obtain rfl : t' = t'' := Option.some.inj (ht'.symm.trans ht'')
  have hdevice : ln.node.kind.isDevice = false := (NodeKind.of_config?_eq_some hconfig).2.1
  rwa [(hln.law_of_mem h.lawful hc).2, NodeKind.separator_of_not_isDevice hdevice,
    show c.name = d'.name from hname.symm]

omit h hln in
theorem hasType_of_config {u : ObjectType} :
    ln.HasType u ↔ ∃ c ∈ ln.branches, c.HasType u := by
  constructor
  · rintro ⟨c, hc, count, transient, hkind⟩
    rcases Branch.mem_preorder.mp hc with rfl | hc
    · rw [hkind] at hconfig
      exact nomatch hconfig
    · obtain ⟨d, hd, hc⟩ := Branch.mem_descendants.mp hc
      exact ⟨d, hd, c, hc, count, transient, hkind⟩
  · rintro ⟨d, hd, c, hc, hkind⟩
    exact ⟨c, Branch.mem_preorder_of_mem_branches hd hc, hkind⟩

/-- What marks each data object of a logical node with what it stands for marks all of it. -/
theorem mentions_objects (hr : Keyed r) (f : Branch → List Template.Mark)
    (hf : ∀ c ∈ ln.branches, ∀ d t, ObjectOf r m d t c →
      f c = ⟨.objectType, t.id, c.ref⟩ :: objectTypeMarks r c.ref limit t) :
    (∃ c ∈ ln.branches, Mentions (f c) kind id) ↔
      r.contains kind id ∧ ∃ u, ln.HasType u ∧ u.Reports r kind id := by
  have hobject : ∀ c ∈ ln.branches, (Mentions (f c) kind id ↔
      r.contains kind id ∧ ∃ u, c.HasType u ∧ u.Reports r kind id) := by
    intro c hc
    obtain ⟨d, t, hobject, hstop⟩ := exists_objectOf h hln hconfig hc
    rw [hf c hc d t hobject]
    exact mentions_objectTypeMarks h.lawful hr hobject.grown hobject.kind
      (contains_objectType hr hobject.type) hstop
  constructor
  · rintro ⟨c, hc, h⟩
    obtain ⟨hcontains, u, hu, hreports⟩ := (hobject c hc).mp h
    exact ⟨hcontains, u, (hasType_of_config hconfig).mpr ⟨c, hc, hu⟩, hreports⟩
  · rintro ⟨hcontains, u, hu, hreports⟩
    obtain ⟨c, hc, hu⟩ := (hasType_of_config hconfig).mp hu
    exact ⟨c, hc, (hobject c hc).mpr ⟨hcontains, u, hu, hreports⟩⟩

/-- **A logical node marks what it stands for.** -/
theorem mentions_nodeMarks (hr : Keyed r) : Mentions (nodeMarks r limit ln) kind id ↔
    r.contains kind id ∧ NodeReports r ln config kind id := by
  rw [nodeMarks, hconfig, NodeReports]
  simp only [mentions_append, mentions_flatMap, mentions_markIfRegistered, mentions_valueMarks,
    Option.some.injEq]
  refine (or_congr Iff.rfl (mentions_objects h hln hconfig hr _ fun c _ d t hobject => ?_)).trans ?_
  · rw [hobject.kind]
  · cases r.contains kind id with
    | true => simp [or_assoc]
    | false => simp

/-- The limit of the pass makes no difference beyond that of the expansion. -/
theorem nodeMarks_of_le {n : Nat} (hle : limit ≤ n) : nodeMarks r n ln = nodeMarks r limit ln := by
  rw [nodeMarks, nodeMarks, hconfig]
  simp only
  congr 1
  refine List.flatMap_congr fun c hc => ?_
  obtain ⟨d, t, hobject, hstop⟩ := exists_objectOf h hln hconfig hc
  rw [hobject.kind]
  simp only
  rw [objectTypeMarks_of_le hstop hle]

end Stage

/-! ## Marks of a model -/

/-- What a model stands for: the types of its logical nodes, the types of its data objects with what
they stand for, and the enumerations for which a value is configured directly below a data
object. -/
inductive IedModel.Reports (r : Registry) (m : IedModel) : Kind → String → Prop
  | node {i : Nat} {n : Node} {config : LogicalNode} {space : Option Namespace}
      (hn : m.node? i = some n) (hk : n.kind = .logicalNode config space) :
      Reports r m .nodeType config.lnType
  | object {i : Nat} {n : Node} {count : Nat} {t : ObjectType} {transient : Bool} {kind : Kind}
      {id : String} (hn : m.node? i = some n) (hk : n.kind = .object count t transient)
      (h : t.Reports r kind id) : Reports r m kind id
  | value {i : Nat} {ln : Branch} {config : LogicalNode} {doi : Doi} {id : String}
      (hln : m.branch? i = some ln) (hk : ln.node.kind.config? = some config)
      (hdoi : doi ∈ config.instances) (h : ValueReports ln doi id) : Reports r m .enumType id

/-- A model stands for what its logical nodes stand for, since all its data objects lie in them. -/
theorem IedModel.reports_iff (hm : m.Lawful) : m.Reports r kind id ↔
    ∃ (ln : Branch) (config : LogicalNode), ln.Stands m ∧ ln.node.kind.config? = some config ∧
      NodeReports r ln config kind id := by
  constructor
  · rintro (⟨hn, hk⟩ | ⟨hn, hk, h⟩ | ⟨hln, hk, hdoi, h⟩)
    · obtain ⟨b, hb, rfl⟩ := Branch.exists_stands hm.forest (lt_size_of_node? hn)
      obtain rfl := Option.some.inj (hb.node?.symm.trans hn)
      exact ⟨b, _, hb, by rw [hk]; rfl, Or.inr (Or.inl ⟨rfl, rfl⟩)⟩
    · obtain ⟨c, hc, rfl⟩ := Branch.exists_stands hm.forest (lt_size_of_node? hn)
      obtain rfl := Option.some.inj (hc.node?.symm.trans hn)
      obtain ⟨ln, hln, hnode, hin⟩ := hm.exists_logicalNode hc (by rw [hk]; rfl)
      obtain ⟨config, space, hkind⟩ := NodeKind.exists_of_isLogicalNode hnode
      exact ⟨ln, config, hln, by rw [hkind]; rfl, Or.inr (Or.inr ⟨_, ⟨c, hin, _, _, hk⟩, h⟩)⟩
    · exact ⟨_, _, ((Branch.branch?_eq_some_iff hm.forest).mp hln).1, hk,
        Or.inl ⟨_, hdoi, rfl, h⟩⟩
  · rintro ⟨ln, config, hln, hconfig, ⟨doi, hdoi, rfl, h⟩ | ⟨rfl, rfl⟩ | ⟨u, hu, h⟩⟩
    · exact .value hln.branch? hconfig hdoi h
    · obtain ⟨config', space, hkind⟩ :=
        NodeKind.exists_of_isLogicalNode (NodeKind.of_config?_eq_some hconfig).1
      rw [hkind] at hconfig
      obtain rfl : config' = config := Option.some.inj hconfig
      exact .node hln.node? hkind
    · obtain ⟨c, hc, count, transient, hk⟩ := hu
      exact .object (hln.of_mem_preorder c hc).1.node? hk h

end Model

/-- **The usage pass computes a closure of the model**, whatever had been recorded before. A
template is used iff it is registered and is one of these: the type of a logical node; the type of a
data object, nested ones included; the type of a structured attribute of such a type, or of a
structure directly inside that; the enumeration of an attribute of such a type; or the enumeration
of an attribute for which a value is configured directly below a data object. The limit of the pass
does not cut it: a greater one changes nothing. -/
theorem tracked_exact {scl : Scl} {ied : String} {ap : Option String} {o : ResolveOptions}
    {res : Resolution} (h : resolve (Document.ofScl scl) ied ap o = .ok res) (before : Usage) :
    let r := (Document.ofScl scl).registry
    let after := (Resolution.trackUsage (Document.ofScl scl) o { res with usage := before }).usage
    (∀ kind id, after.isUsed kind id ↔ r.contains kind id ∧ res.model.Reports r kind id) ∧
    ∀ n, o.maxDepth ≤ n → modelUsage r n res.model = after := by
  intro r after
  obtain ⟨i, a, -, -, hstage⟩ := Resolution.stage_of_resolve h
  have hm := hstage.lawful
  have hr : Keyed r := keyed_ofScl scl
  refine ⟨fun kind id => ?_, fun n hn => ?_⟩
  · show (modelUsage r o.maxDepth res.model).isUsed kind id ↔ _
    rw [modelUsage, Usage.isUsed_ofList_iff, mentions_flatMap, IedModel.reports_iff hm]
    constructor
    · rintro ⟨id, hid, hmarks⟩
      obtain ⟨ln, hln, hk, rfl⟩ := (mem_logicalNodes_iff hm).mp hid
      obtain ⟨config, space, hkind⟩ := NodeKind.exists_of_isLogicalNode hk
      have hconfig : ln.node.kind.config? = some config := by rw [hkind]; rfl
      rw [hln.branch?, Option.toList_some, List.flatMap_singleton] at hmarks
      obtain ⟨hcontains, hreports⟩ := (mentions_nodeMarks hstage hln hconfig hr).mp hmarks
      exact ⟨hcontains, ln, config, hln, hconfig, hreports⟩
    · rintro ⟨hcontains, ln, config, hln, hconfig, hreports⟩
      have hk := (NodeKind.of_config?_eq_some hconfig).1
      refine ⟨ln.id, (mem_logicalNodes_iff hm).mpr ⟨ln, hln, hk, rfl⟩, ?_⟩
      rw [hln.branch?, Option.toList_some, List.flatMap_singleton]
      exact (mentions_nodeMarks hstage hln hconfig hr).mpr ⟨hcontains, hreports⟩
  · show _ = modelUsage r o.maxDepth res.model
    refine congrArg Usage.ofList (List.flatMap_congr fun id hid => ?_)
    obtain ⟨ln, hln, hk, rfl⟩ := (mem_logicalNodes_iff hm).mp hid
    obtain ⟨config, space, hkind⟩ := NodeKind.exists_of_isLogicalNode hk
    rw [hln.branch?, Option.toList_some, List.flatMap_singleton, List.flatMap_singleton]
    exact nodeMarks_of_le hstage hln (by rw [hkind]; rfl) hn

/-- Structures within structures, with an enumeration outside and one inside. -/
def deepTypes : TypeSection :=
  ⟨[⟨"L", "GGIO", [⟨some "Mod", some "M", none, none⟩]⟩],
    [⟨"M", "ENS", [], [⟨some "s", some "Struct", some "V1", some "ST", none, none, none, none, none,
        none, none, []⟩,
      ⟨some "t", some "Enum", some "B", some "ST", none, none, none, none, none, none, none, []⟩]⟩],
    [⟨"V1", [⟨some "n", some "Struct", some "V2", none, none, none, none, none, none, none, none,
        []⟩,
      ⟨some "e", some "Enum", some "C", none, none, none, none, none, none, none, none, []⟩]⟩,
      ⟨"V2", [⟨some "x", some "Struct", some "V3", none, none, none, none, none, none, none, none,
        []⟩]⟩,
      ⟨"V3", [⟨some "f", some "FLOAT32", none, none, none, none, none, none, none, none, none,
        []⟩]⟩],
    [⟨"B", [⟨some "1", "on"⟩]⟩, ⟨"C", [⟨some "1", "on"⟩]⟩]⟩

/-- An access point with a logical node of these types. -/
def deepPoint : AccessPoint :=
  ⟨"A", some ⟨[⟨"LD", none, none, none,
    [⟨"GGIO", "L", "1", none, none, [], [], [], [], [], [], [], none⟩]⟩]⟩⟩

/-- A configuration with that access point. -/
def deepScl : Scl where
  version := none
  revision := none
  release := none
  header := none
  communication := none
  ieds := [⟨"E", none, none, none, [deepPoint]⟩]
  types := some deepTypes

/-- The structured attribute of the data object. -/
def deepStructure : AttributeDef := ⟨"s", .st, .constructed, some "V1", 0, {}, none, []⟩

/-- Its enumerated one. -/
def deepSwitch : AttributeDef := ⟨"t", .st, .enumerated, some "B", 0, {}, none, []⟩

/-- The structure directly inside the structure. -/
def deepInner : AttributeDef := ⟨"n", .none, .constructed, some "V2", 0, {}, none, []⟩

/-- The enumeration beside it. -/
def deepState : AttributeDef := ⟨"e", .none, .enumerated, some "C", 0, {}, none, []⟩

/-- Few levels, and no check of namespaces. -/
def deepOptions : ResolveOptions := { maxDepth := 4, checkNamespaces := false }

/-- The resolution of that configuration. -/
def deepResolution : Resolution :=
  .ofAccessPoint (Document.ofScl deepScl) deepOptions ⟨"E", none, none, none, [deepPoint]⟩ deepPoint

/-- A use that the pass does not see. -/
def deepBefore : Usage := ⟨[⟨.attributeType, "V3", "ELD/GGIO1.Mod.s.n.x"⟩]⟩

/-- What the pass collects after it was recorded. -/
def deepUsage : Usage :=
  (Resolution.trackUsage (Document.ofScl deepScl) deepOptions
    { deepResolution with usage := deepBefore }).usage

/-- The pass stops one structure inside the first one, and forgets what had been recorded for the
next; with a greater limit it does so too. -/
theorem tracked_exact_deep :
    resolve (Document.ofScl deepScl) "E" none deepOptions = .ok deepResolution ∧
    deepUsage.isUsed .attributeType "V2" ∧ deepUsage.isUsed .enumType "B" ∧
    ¬ deepUsage.isUsed .attributeType "V3" ∧ ¬ deepUsage.isUsed .enumType "C" ∧
    modelUsage (Document.ofScl deepScl).registry 100 deepResolution.model = deepUsage := by
  have h : resolve (Document.ofScl deepScl) "E" none deepOptions = .ok deepResolution := rfl
  obtain ⟨hused, hlimit⟩ := tracked_exact h deepBefore
  have hobject : deepResolution.model.node? 2 = some ⟨"Mod", "ELD/GGIO1.Mod", some 1, [3, 8],
    .object 0 ⟨"M", "ENS", [], [deepStructure, deepSwitch]⟩ false⟩ := rfl
  have hinner : (Document.ofScl deepScl).registry.attributeType? "V1" =
    some ⟨"V1", [deepInner, deepState]⟩ := rfl
  refine ⟨h, (hused _ _).mpr ⟨by decide +kernel, .object hobject rfl ?_⟩,
    (hused _ _).mpr ⟨by decide +kernel, .object hobject rfl ?_⟩, by decide +kernel,
    by decide +kernel, hlimit 100 (by decide)⟩
  · exact .nested List.mem_cons_self rfl rfl hinner List.mem_cons_self rfl rfl
  · exact .enumeration (List.mem_cons_of_mem _ List.mem_cons_self) rfl rfl

end Substation
