import Mathlib.Data.List.Basic
import Mathlib.Tactic.Common
import Substation.Proofs.NodeParts
import Substation.Proofs.UsedTemplates

/-!
# Reports of types that are not defined

`references` lists what an unfolding refers to, in the order of the expansion: a data object refers
to its type, a structured or enumerated attribute to its own, and below it comes what its type
refers to. Apart from the data objects these are the references of the nodes that grow, each before
those below it (`referred_unfold`).

As long as no data object is taken back, the issues that are found while a logical node is added
are those of the references that are not registered, one for each, in order (`undefined_reported`).

Results:
* `referred_unfold`: the references of an unfolding;
* `undefined_reported` (`resolve_logical_node`, `constructed_type`, `enum_type`): those that are
  reported.
-/

namespace Substation

open Substation.Config
open Substation.Journal
open Substation.Model
open Substation.Template

/-! ## References to templates -/

namespace Template.Kind

/-- What a missing template of the kind is called in messages. -/
def label : Kind → String
  | nodeType => "LNType"
  | kind => kind.name

/-- What refers to a template of the kind. -/
def referrer : Kind → String
  | nodeType => "LN"
  | objectType => "DO"
  | _ => "DA"

end Template.Kind

namespace Model

/-- A reference to a template. -/
structure Reference where
  /-- The kind of the template. -/
  kind : Kind
  /-- The id of the template. -/
  id : String
  /-- The name of what refers to it; a logical node goes by its reference. -/
  name : String
  /-- The reference of the node that refers to it, or would do so. -/
  node : String
deriving DecidableEq, Repr

/-- The issue that the template is not defined. -/
def Reference.issue (x : Reference) : Issue where
  severity := .error
  message := x.kind.label ++ " \"" ++ x.id ++ "\" of " ++ x.kind.referrer ++ " \"" ++ x.name ++
    "\" is not defined"
  object := x.node

/-- An attribute of reference `ref` refers to the type of its structure or to its enumeration. -/
def leafReference? (ref : String) (a : AttributeDef) : Option Reference :=
  match a.type with
  | .constructed => some ⟨.attributeType, a.typeId.getD "", a.name, ref⟩
  | .enumerated => some ⟨.enumType, a.typeId.getD "", a.name, ref⟩
  | _ => none

variable (r : Registry)

/-- The issue of a reference to a template that is not registered. -/
def Reference.issue? (x : Reference) : Option Issue :=
  if r.contains x.kind x.id then none else some x.issue

/-- What an attribute of reference `ref` refers to, and then what its site does. -/
def leafReferences (inObject : Bool) (ref : String) (fc : Constraint) (a : AttributeDef)
    (below : Site → List Reference) : List Reference :=
  (leafReference? ref a).toList ++
    match siteOf? r inObject ref (.leaf fc a) with
    | some s => below s
    | none => []

/-- A data object of reference `ref` refers to its type, and then to what its site does. -/
def objectReferences (ref : String) (d : ObjectDef) (below : Site → List Reference) :
    List Reference :=
  ⟨.objectType, d.typeId, d.name, ref⟩ ::
    match r.objectType? d.typeId with
    | some t => below (.object ref t)
    | none => []

/-- What an unfolding of `n` levels refers to. -/
def references : Nat → Site → List Reference
  | 0, _ => []
  | n + 1, .object ref type =>
    (type.objects.flatMap fun d => objectReferences r (ref ++ "." ++ d.name) d (references n)) ++
      type.leaves.flatMap fun a =>
        leafReferences r true (ref ++ "." ++ a.name) a.fc a (references n)
  | n + 1, .group ref fc type =>
    type.leaves.flatMap fun a =>
      leafReferences r false (ref ++ "." ++ a.name) (innerConstraint fc a) a (references n)

/-- What a logical node of reference `ref` refers to, unfolded for `n` levels. -/
def nodeReferences (n : Nat) (ref : String) (config : LogicalNode) : List Reference :=
  ⟨.nodeType, config.lnType, ref, ref⟩ :: (nodeObjects r config).flatMap fun d =>
    objectReferences r (ref ++ "." ++ d.name) d (references r n)

variable {r}

/-! ## What is reported -/

theorem issuesOf_leafEntries (ref : String) (a : AttributeDef) :
    issuesOf (leafEntries r ref a) = (leafReference? ref a).toList.filterMap (·.issue? r) := by
  unfold leafEntries leafReference?
  cases a.type with
  | constructed =>
    rw [Option.toList_some, List.filterMap_cons, Reference.issue?, Registry.contains,
      Registry.find?]
    simp only
    cases r.attributeType? (a.typeId.getD "") <;> rfl
  | enumerated =>
    rw [Option.toList_some, List.filterMap_cons, Reference.issue?]
    cases hcontains : r.contains .enumType (a.typeId.getD "") with
    | true => simp only [hcontains]; rfl
    | false => simp only [hcontains]; rfl
  | _ => rfl

theorem issuesOf_leafHarvest {inObject : Bool} {ref : String} {fc : Constraint} {a : AttributeDef}
    {inner : AttributeType → Harvest} {below : Site → List Reference}
    (h : ∀ t, structureType? r a = some t → issuesOf (inner t).entries =
      (if inObject && endsTwice ref a.name then [] else below (.group ref fc t)).filterMap
        (·.issue? r)) :
    issuesOf (leafHarvest r ref fc a inner).entries =
      (leafReferences r inObject ref fc a below).filterMap (·.issue? r) := by
  rw [leafHarvest, Harvest.under, leafReferences, siteOf?, issuesOf_append, issuesOf_leafEntries,
    List.filterMap_append]
  congr 1
  cases ht : structureType? r a with
  | none => cases inObject && endsTwice ref a.name <;> rfl
  | some t =>
    refine (h t ht).trans ?_
    cases inObject && endsTwice ref a.name <;> rfl

theorem issuesOf_objectHarvest {ref : String} {d : ObjectDef} {inner : ObjectType → Harvest}
    {below : Site → List Reference}
    (h : ∀ t, r.objectType? d.typeId = some t →
      issuesOf (inner t).entries = (below (.object ref t)).filterMap (·.issue? r)) :
    issuesOf (objectHarvest r ref d inner).entries =
      (objectReferences r ref d below).filterMap (·.issue? r) := by
  rw [objectHarvest, objectReferences, List.filterMap_cons, Reference.issue?, Registry.contains,
    Registry.find?]
  cases ht : r.objectType? d.typeId with
  | none => rfl
  | some t => exact h t ht

/-- Harvests of a list that do not stop report what each of them does. -/
theorem issuesOf_all {α : Type} {f : α → Harvest} {below : α → List Reference} {l : List α}
    (hstops : (Harvest.all (l.map f)).stopped = none)
    (h : ∀ x ∈ l, issuesOf (f x).entries = (below x).filterMap (·.issue? r)) :
    issuesOf (Harvest.all (l.map f)).entries = (l.flatMap below).filterMap (·.issue? r) := by
  rw [Harvest.entries_all (Harvest.stopped_all.mp hstops), List.flatMap_map, issuesOf,
    List.filterMap_flatMap, List.filterMap_flatMap]
  exact List.flatMap_congr h

/-- **An expansion that does not stop reports the references to types that are not defined.** -/
theorem issuesOf_harvest {n k : Nat} {s : Site} (h : (harvest r n s).stopped = none)
    (hle : n ≤ k) :
    issuesOf (harvest r n s).entries = (references r k s).filterMap (·.issue? r) := by
  refine harvest_induction (motive := fun n k s => issuesOf (harvest r n s).entries =
    (references r k s).filterMap (·.issue? r)) (fun n k s h ih => ?_) h hle
  cases s with
  | object ref type =>
    rw [harvest] at h ⊢
    obtain ⟨hobjects, hleaves⟩ := Harvest.stopped_andThen.mp h
    rw [references, List.filterMap_append, Harvest.entries_andThen hobjects, issuesOf_append]
    congr 1
    · exact issuesOf_all hobjects fun d hd => issuesOf_objectHarvest fun t ht =>
        ih _ (.object hd ht)
    · refine issuesOf_all hleaves fun a ha => issuesOf_leafHarvest fun t ht => ?_
      cases hn : endsTwice (ref ++ "." ++ a.name) a.name with
      | true => rfl
      | false => exact ih _ (.leaf ha ht hn)
  | group ref fc type =>
    rw [harvest] at h ⊢
    rw [references]
    exact issuesOf_all h fun a ha => issuesOf_leafHarvest fun t ht => ih _ (.nested ha ht)

/-- If no data object of a logical node is taken back, none is while it is added. -/
theorem noneTakenBack_nodeHarvest {limit : Nat} {ref : String} {config : LogicalNode}
    (h : NoneTakenBack
      (nodeEntries r ref config (nodeHarvest r limit ref (nodeObjects r config)))) :
    NoneTakenBack (nodeHarvest r limit ref (nodeObjects r config)).entries := by
  rw [nodeEntries] at h
  cases htype : r.nodeType? config.lnType with
  | none =>
    rw [nodeObjects_of_none htype]
    exact fun e he => absurd he List.not_mem_nil
  | some type =>
    rw [htype] at h
    exact h.mono fun e he => List.mem_append_left _ (List.mem_cons_of_mem _ he)

/-- All of its data objects with types that are defined fit then. -/
theorem definedParts_filter_fits {limit : Nat} {ref : String} {objects : List ObjectDef}
    (h : NoneTakenBack (nodeHarvest r limit ref objects).entries) :
    definedParts r (objects.filter (Fits r limit ref ·)) = definedParts r objects := by
  rw [definedParts, List.filterMap_filter]
  refine List.filterMap_congr fun d hd => ?_
  cases ht : r.objectType? d.typeId with
  | none => exact ite_self none
  | some t =>
    have hfit : Fits r limit ref d :=
      fits_iff.mpr ⟨t, ht, stopped_objectHarvest.mp (stopped_of_noneTakenBack h hd) t ht⟩
    rw [if_pos (decide_eq_true hfit)]

/-- **A logical node is reported with the references to types that are not defined**, if none of
its data objects is taken back. -/
theorem issuesOf_nodeEntries {limit n : Nat} (hn : limit ≤ n) {ref : String} {config : LogicalNode}
    (h : NoneTakenBack
      (nodeEntries r ref config (nodeHarvest r limit ref (nodeObjects r config)))) :
    issuesOf (nodeEntries r ref config (nodeHarvest r limit ref (nodeObjects r config))) =
      (nodeReferences r n ref config).filterMap (·.issue? r) := by
  have hkept := noneTakenBack_nodeHarvest h
  have hstops := stopped_nodeHarvest (r := r) limit ref (nodeObjects r config)
  have hobjects : issuesOf (nodeHarvest r limit ref (nodeObjects r config)).entries =
      ((nodeObjects r config).flatMap fun d =>
        objectReferences r (ref ++ "." ++ d.name) d (references r n)).filterMap (·.issue? r) := by
    rw [nodeHarvest_of_noneTakenBack hkept] at hstops ⊢
    refine issuesOf_all hstops fun d hd => issuesOf_objectHarvest fun t ht => ?_
    exact issuesOf_harvest (stopped_objectHarvest.mp (stopped_of_noneTakenBack hkept hd) t ht) hn
  rw [nodeEntries, nodeReferences, List.filterMap_cons, Reference.issue?, Registry.contains,
    Registry.find?, ← hobjects]
  cases htype : r.nodeType? config.lnType with
  | none =>
    rw [nodeObjects_of_none htype]
    rfl
  | some type =>
    -- the mark before and the note behind are no findings
    exact (issuesOf_append _ _).trans (List.append_nil _)

/-! ## The nodes that refer -/

theorem definedParts_eq_flatMap (ds : List ObjectDef) :
    definedParts r ds = ds.flatMap fun d => definedParts r [d] := by
  rw [definedParts, List.filterMap_eq_flatMap_toList]
  refine List.flatMap_congr fun d _ => ?_
  rw [definedParts, List.filterMap_cons]
  cases r.objectType? d.typeId <;> rfl

/-- What a logical node or an attribute refers to. -/
def Branch.reference? (b : Branch) : Option Reference :=
  match b.node.kind with
  | .logicalNode config _ => some ⟨.nodeType, config.lnType, b.ref, b.ref⟩
  | .leaf _ a => leafReference? b.ref a
  | _ => none

/-- Apart from those of data objects, the references are those of the nodes that grow below a node
of reference `ref`, wherever they get their places. -/
def Referred (ref : String) (xs : List Reference) (ss : List Sprout) : Prop :=
  ∀ parent id, xs.filter (·.kind ≠ .objectType) =
    (Branch.preorderAll (Sprout.grownAll parent (ref ++ ".") id ss)).filterMap Branch.reference?

namespace Referred

variable {ref : String} {xs ys : List Reference} {ss ts : List Sprout}

theorem nil : Referred ref [] [] := fun _ _ => rfl

theorem append (h : Referred ref xs ss) (h' : Referred ref ys ts) :
    Referred ref (xs ++ ys) (ss ++ ts) := by
  intro parent id
  rw [List.filter_append, Sprout.grownAll_append, Branch.preorderAll_append, List.filterMap_append,
    h parent id, h' parent _]

theorem flatMap {α : Type} {f : α → List Reference} {g : α → List Sprout} {l : List α}
    (h : ∀ x ∈ l, Referred ref (f x) (g x)) : Referred ref (l.flatMap f) (l.flatMap g) := by
  induction l with
  | nil => exact nil
  | cons x l ih =>
    obtain ⟨hx, hl⟩ := List.forall_mem_cons.mp h
    rw [List.flatMap_cons, List.flatMap_cons]
    exact hx.append (ih hl)

/-- A node with what is below it. -/
theorem under {name : String} {kind : NodeKind} (hsep : kind.separator = ".")
    {first : Option Reference}
    (hfirst : ∀ parent id children branches, (first.toList).filter (·.kind ≠ .objectType) =
      (Branch.reference? (.mk id ⟨name, ref ++ "." ++ name, parent, children, kind⟩
        branches)).toList)
    (h : Referred (ref ++ "." ++ name) xs ss) :
    Referred ref (first.toList ++ xs) [.mk name kind ss] := by
  intro parent id
  let below := Sprout.grownAll id (ref ++ "." ++ name ++ ".") (id + 1) ss
  let top : Branch :=
    .mk id ⟨name, ref ++ "." ++ name, some parent, below.map Branch.id, kind⟩ below
  have htop : (first.toList ++ xs).filter (·.kind ≠ .objectType) =
      top.reference?.toList ++ (Branch.preorderAll below).filterMap Branch.reference? := by
    rw [List.filter_append, hfirst (some parent) id (below.map Branch.id) below, h id (id + 1)]
  have hcons : (top :: Branch.preorderAll below).filterMap Branch.reference? =
      top.reference?.toList ++ (Branch.preorderAll below).filterMap Branch.reference? := by
    rw [List.filterMap_cons]
    cases top.reference? <;> rfl
  rw [htop, Sprout.grownAll, Sprout.grownAll, Sprout.grown, hsep, Branch.preorderAll,
    Branch.preorderAll, Branch.preorder, List.append_nil]
  exact hcons.symm

theorem leaf {n : Nat} {inObject : Bool} {fc : Constraint} {a : AttributeDef}
    {below : Site → List Reference} (h : ∀ s, Referred s.ref (below s) (unfold r n s)) :
    Referred ref (leafReferences r inObject (ref ++ "." ++ a.name) fc a below)
      [partSprout r n inObject (ref ++ ".") (a.name, .leaf fc a)] := by
  refine under rfl (fun parent id children branches => ?_) ?_
  · show _ = (leafReference? (ref ++ "." ++ a.name) a).toList
    unfold leafReference?
    cases a.type <;> rfl
  · cases hs : siteOf? r inObject (ref ++ "." ++ a.name) (.leaf fc a) with
    | none => exact nil
    | some s => exact (of_siteOf? hs).1 ▸ h s

theorem object {n : Nat} {inObject : Bool} {d : ObjectDef} {below : Site → List Reference}
    (h : ∀ s, Referred s.ref (below s) (unfold r n s)) :
    Referred ref (objectReferences r (ref ++ "." ++ d.name) d below)
      ((definedParts r [d]).map (partSprout r n inObject (ref ++ "."))) := by
  rw [objectReferences, definedParts, List.filterMap_cons]
  cases ht : r.objectType? d.typeId with
  | none => exact fun _ _ => rfl
  | some t =>
    have hsep : (NodeKind.object d.count t d.transient).separator = "." := rfl
    have hbelow : Referred ref (none.toList ++ below (.object (ref ++ "." ++ d.name) t)) _ :=
      under hsep (fun _ _ _ _ => rfl) (h (.object (ref ++ "." ++ d.name) t))
    exact hbelow

end Referred

/-- **The references of an unfolding are those of the nodes that grow**, apart from those of data
objects. -/
theorem referred_unfold (n : Nat) (s : Site) :
    Referred s.ref (references r n s) (unfold r n s) := by
  induction n generalizing s with
  | zero => exact .nil
  | succ n ih =>
    rw [unfold_succ]
    cases s with
    | object ref type =>
      rw [references, Site.parts, List.map_append, definedParts_eq_flatMap, List.map_flatMap,
        List.map_map, List.map_eq_flatMap]
      exact .append (.flatMap fun d _ => .object ih) (.flatMap fun a _ => .leaf ih)
    | group ref fc type =>
      rw [references, Site.parts, List.map_map, List.map_eq_flatMap]
      exact .flatMap fun a _ => .leaf ih

/-- Levels beyond the limit make no difference to a logical node. -/
theorem nodeSprout_of_le {limit n : Nat} (hn : limit ≤ n) (ref : String) (config : LogicalNode) :
    nodeSprout r limit limit ref config = nodeSprout r limit n ref config := by
  rw [nodeSprout, nodeSprout, ← sprouts_nodeHarvest limit ref _ hn,
    ← sprouts_nodeHarvest limit ref _ (Nat.le_refl limit)]

/-- The same holds of a whole logical node of which no data object is taken back. -/
theorem filter_nodeReferences {limit n : Nat} (hn : limit ≤ n) (config : LogicalNode)
    (parent : Nat) (stem : String) (id : Nat) (h : NoneTakenBack
      (nodeHarvest r limit (stem ++ config.name) (nodeObjects r config)).entries) :
    let b := (nodeSprout r limit limit (stem ++ config.name) config).grown parent stem id
    (nodeReferences r n b.ref config).filter (·.kind ≠ .objectType) =
      b.preorder.filterMap Branch.reference? := by
  intro b
  have href : b.ref = stem ++ config.name := Sprout.ref_grown ..
  have hobjects : Referred (stem ++ config.name)
      ((nodeObjects r config).flatMap fun d =>
        objectReferences r (stem ++ config.name ++ "." ++ d.name) d (references r n))
      ((definedParts r (nodeObjects r config)).map
        (partSprout r n false (stem ++ config.name ++ "."))) := by
    rw [definedParts_eq_flatMap, List.map_flatMap]
    exact .flatMap fun d _ => .object (referred_unfold n)
  have hb : b = (Sprout.mk config.name (.logicalNode config none)
      ((definedParts r (nodeObjects r config)).map
        (partSprout r n false (stem ++ config.name ++ ".")))).grown parent stem id := by
    rw [← definedParts_filter_fits h, ← nodeSprout_eq, ← nodeSprout_of_le hn]
  rw [href, nodeReferences, List.filter_cons_of_pos rfl, hobjects id (id + 1), hb, Sprout.grown,
    Branch.preorder]
  rfl

/-! ## Nodes without parts -/

/-- An attribute that refers to a type that is not defined has no structure. -/
theorem structureType?_eq_none {ref : String} {a : AttributeDef} {x : Reference}
    (hx : leafReference? ref a = some x) (hnot : r.contains x.kind x.id = false) :
    structureType? r a = none := by
  unfold leafReference? at hx
  unfold structureType?
  split at hx
  · rename_i htype
    cases hx
    rw [Registry.contains, Registry.find?, Option.isSome_map] at hnot
    rw [if_pos htype]
    exact Option.isNone_iff_eq_none.mp (Option.isSome_eq_false_iff.mp hnot)
  · rename_i htype
    exact if_neg (by rw [htype]; decide)
  · cases hx

/-- What refers to a type that is not defined has nothing below it. -/
theorem Branch.Complete.branches_eq_nil {b : Branch} {inObject : Bool} (h : b.Complete r inObject)
    {x : Reference} (hx : b.reference? = some x) (hnot : r.contains x.kind x.id = false) :
    b.branches = [] := by
  have hsite : siteOf? r inObject b.ref b.node.kind = none := by
    unfold reference? at hx
    split at hx
    · rename_i config space hkind
      rw [hkind]
      rfl
    · rename_i fc a hkind
      rw [hkind, siteOf?, structureType?_eq_none hx hnot]
      exact ite_self none
    · cases hx
  rw [Complete, hsite] at h
  exact List.map_eq_nil_iff.mp h

theorem Branch.exists_of_mem_preorder {b c : Branch} (hc : c ∈ b.preorder) :
    c = b ∨ ∃ up ∈ b.preorder, c ∈ up.branches := by
  obtain ⟨names, hr⟩ := mem_preorder_iff.mp hc
  induction hr with
  | refl b => exact Or.inl rfl
  | @step b d c names hd hr ih =>
    right
    rcases ih hr.mem_preorder with rfl | ⟨up, hup, hmem⟩
    · exact ⟨b, self_mem_preorder _, hd⟩
    · exact ⟨up, mem_preorder_of_mem_branches hd hup, hmem⟩

end Model

/-- **Types that are not defined are reported, each reference once.** If no data object is taken
back while a logical node is added, the issues found are those of the references of its unfolding
that are not registered, in order, and the log keeps the first occurrence of each; levels beyond the
limit make no difference. The logical node has a data object for every one whose type is defined,
below these stands what their types define, and a node whose own type is not defined has nothing
below it. -/
theorem undefined_reported (r : Registry) (limit : Nat) {g : Growth} (hm : g.model.Built)
    {device : Nat} {d : Node} (hd : g.model.node? device = some d) (config : LogicalNode) :
    ∃ g' b es, (addLogicalNode r limit device config).exec g = (.ok g.model.size, g') ∧
      g'.journal.toList = g.journal.toList ++ es ∧
      g'.model.branch? g.model.size = some b ∧
      b.ref = d.ref ++ d.kind.separator ++ config.name ∧
      b.node.kind = .logicalNode config none ∧
      (NoneTakenBack es →
        (∀ n, limit ≤ n →
          issuesOf es = (nodeReferences r n b.ref config).filterMap (·.issue? r) ∧
          (issueLog g'.journal.toList).issues = (issuesOf g.journal.toList ++
            (nodeReferences r n b.ref config).filterMap (·.issue? r)).eraseDups ∧
          (nodeReferences r n b.ref config).filter (·.kind ≠ .objectType) =
            b.preorder.filterMap Branch.reference?) ∧
        b.parts = definedParts r (nodeObjects r config) ∧ b.Full r ∧
        ∀ c ∈ b.preorder, ∀ x, c.reference? = some x → r.contains x.kind x.id = false →
          c.branches = []) := by
  let stem := d.ref ++ d.kind.separator
  let ref := stem ++ config.name
  let es := nodeEntries r ref config (nodeHarvest r limit ref (nodeObjects r config))
  let b := (nodeSprout r limit limit ref config).grown device stem g.model.size
  obtain ⟨g', hrun, hmodel, hjournal⟩ :=
    addLogicalNode_enters hm.forest hd (Nat.le_refl limit) config
  have hes : g'.journal.toList = g.journal.toList ++ es := by
    rw [hjournal, Array.toList_appendList]
  have hb : g'.model.branch? g.model.size = some b := by
    rw [← Sprout.id_grown device stem g.model.size (nodeSprout r limit limit ref config), hmodel]
    exact ((IedModel.plant_gains hd _).stands _ (List.mem_singleton.mpr rfl)).branch?
  have href : b.ref = ref := Sprout.ref_grown ..
  have hkind : b.node.kind = .logicalNode config none := by
    show ((nodeSprout r limit limit ref config).grown device stem g.model.size).node.kind = _
    rw [nodeSprout, Sprout.grown]
    rfl
  refine ⟨g', b, es, hrun, hes, hb, href, hkind, fun hkept => ?_⟩
  have hbelow := noneTakenBack_nodeHarvest hkept
  obtain ⟨hparts, hfull⟩ := full_nodeSprout (r := r) limit config device stem g.model.size
  have hall : b.parts = definedParts r (nodeObjects r config) := by
    rw [← definedParts_filter_fits hbelow, ← href]
    exact hparts
  refine ⟨fun n hn => ?_, hall, hfull, fun c hc x hx hnot => ?_⟩
  · have hissues := issuesOf_nodeEntries hn hkept
    rw [href]
    refine ⟨hissues, ?_, filter_nodeReferences hn config device stem g.model.size hbelow⟩
    rw [issueLog, IssueLog.issues_ofList, hes, issuesOf_append, hissues]
  · rcases Branch.exists_of_mem_preorder hc with rfl | ⟨up, hup, hmem⟩
    · rw [Branch.reference?, hkind] at hx
      cases hx
      rw [Registry.contains, Registry.find?, Option.isSome_map, Option.isSome_eq_false_iff,
        Option.isNone_iff_eq_none] at hnot
      rw [nodeObjects_of_none hnot] at hall
      exact List.map_eq_nil_iff.mp hall
    · exact (hfull up hup c hmem).branches_eq_nil hx hnot

/-- Types with references of every kind to the id `?`, which none of them has. -/
def danglingTypes : Registry where
  nodeTypes := ⟨[("L", ⟨"L", "GGIO", [⟨"Gone", "?", 0, false⟩, ⟨"Mod", "M", 0, false⟩]⟩)]⟩
  objectTypes := ⟨[("M", ⟨"M", "ENS", [⟨"sub", "?", 0, false⟩],
    [⟨"s", .st, .constructed, some "V", 0, {}, none, []⟩,
      ⟨"t", .st, .constructed, some "?", 0, {}, none, []⟩]⟩)]⟩
  attributeTypes := ⟨[("V", ⟨"V", [⟨"e", .none, .enumerated, some "?", 0, {}, none, []⟩]⟩)]⟩

/-- A logical node of these types. -/
def danglingNode : LogicalNode :=
  ⟨"GGIO", "L", "1", none, none, [], [], [], [], [], [], [], none⟩

/-- A logical device for it. -/
def danglingStart : Growth := { model := ({ name := "E" } : IedModel).addDevice "ELD" "LD" }

/-- The four are reported in the order of the expansion. The two data objects are not there; the
attributes are, and have nothing below them. -/
theorem undefined_reported_dangling :
    danglingStart.model.Built ∧
    danglingStart.model.node? 0 = some ⟨"ELD", "ELD", none, [], .device "LD" none⟩ ∧
    ∃ g' b es, (addLogicalNode danglingTypes 3 0 danglingNode).exec danglingStart = (.ok 1, g') ∧
      g'.journal.toList = es ∧ g'.model.branch? 1 = some b ∧ NoneTakenBack es ∧
      issuesOf es = [
        { severity := .error, message := "DOType \"?\" of DO \"Gone\" is not defined",
          object := "ELD/GGIO1.Gone" },
        { severity := .error, message := "DOType \"?\" of DO \"sub\" is not defined",
          object := "ELD/GGIO1.Mod.sub" },
        { severity := .error, message := "EnumType \"?\" of DA \"e\" is not defined",
          object := "ELD/GGIO1.Mod.s.e" },
        { severity := .error, message := "DAType \"?\" of DA \"t\" is not defined",
          object := "ELD/GGIO1.Mod.t" }] ∧
      (b.preorder.filterMap Branch.reference?).map Reference.node =
        ["ELD/GGIO1", "ELD/GGIO1.Mod.s", "ELD/GGIO1.Mod.s.e", "ELD/GGIO1.Mod.t"] := by
  have hm : danglingStart.model.Built := .addDevice (.empty "E") "ELD" "LD"
  have hd : danglingStart.model.node? 0 = some ⟨"ELD", "ELD", none, [], .device "LD" none⟩ := rfl
  obtain ⟨g', b, es, hrun, hes, hb, href, -, hreport⟩ :=
    undefined_reported danglingTypes 3 hm hd danglingNode
  have hes : g'.journal.toList = es := hes
  have hkept : NoneTakenBack es := by
    have hjournal : es = ((addLogicalNode danglingTypes 3 0 danglingNode).exec
        danglingStart).2.journal.toList := by
      rw [hrun, ← hes]
    rw [hjournal]
    decide +kernel
  obtain ⟨hissues, -, hnodes⟩ := (hreport hkept).1 3 (Nat.le_refl 3)
  have href : b.ref = "ELD/GGIO1" := href
  refine ⟨hm, hd, g', b, es, hrun, hes, hb, hkept, ?_, ?_⟩
  · rw [hissues, href]
    decide +kernel
  · rw [← hnodes, href]
    decide +kernel

end Substation
