import Mathlib.Data.List.Basic
import Mathlib.Tactic.Common
import Substation.Proofs.GrownTypes
import Substation.Proofs.Levels
import Substation.Proofs.NodeEntries
import Substation.Proofs.References

/-!
# What a resolution fails for, and what it leaves out

A resolution fails only for want of an IED or an access point (`resolve_eq_ok_iff`). What is in the
model does not make it fail: a data object whose types are nested too deeply is left out, and the
log then says where the limit was reached, which is at the first site that follows in as many steps
as there are levels (`omission_explained`).

Results:
* `resolve_eq_ok_iff` (`resolve_ied`): when a resolution succeeds;
* `omission_explained` (`depth_check`): what is reported where the limit is reached;
* `resolves_and_explains_omissions`: both together.
-/

namespace Substation

open Substation.Config
open Substation.Journal
open Substation.Model
open Substation.Template

/-! ## The first match -/

/-- The first element of a list with a property. -/
def IsFirst {α : Type} (p : α → Prop) (l : List α) (a : α) : Prop :=
  ∃ front back, l = front ++ a :: back ∧ p a ∧ ∀ b ∈ front, ¬ p b

/-- It is the one that is found. -/
theorem find?_eq_some_iff_isFirst {α : Type} {p : α → Prop} [DecidablePred p] {l : List α} {a : α} :
    l.find? (fun a => decide (p a)) = some a ↔ IsFirst p l a := by
  rw [List.find?_eq_some_iff_append]
  constructor
  · rintro ⟨ha, front, back, hl, hfront⟩
    exact ⟨front, back, hl, of_decide_eq_true ha, fun b hb => by simpa using hfront b hb⟩
  · rintro ⟨front, back, hl, ha, hfront⟩
    exact ⟨decide_eq_true ha, front, back, hl, fun b hb => by simpa using hfront b hb⟩

/-- There is a first element with a property if there is one at all. -/
theorem exists_isFirst {α : Type} {p : α → Prop} [DecidablePred p] {l : List α} :
    (∃ a, IsFirst p l a) ↔ ∃ a ∈ l, p a := by
  simp_rw [← find?_eq_some_iff_isFirst]
  rw [← Option.isSome_iff_exists, List.find?_isSome]
  simp only [decide_eq_true_eq]

/-- The access point is one that is asked for: it has the name, if a name is given. -/
def AskedFor (ap : Option String) (a : AccessPoint) : Prop :=
  ∀ name ∈ ap, a.name = name

instance (ap : Option String) : DecidablePred (AskedFor ap) := fun a =>
  inferInstanceAs (Decidable (∀ name ∈ ap, a.name = name))

theorem accessPoint?_eq_some_iff {i : Ied} {ap : Option String} {a : AccessPoint} :
    accessPoint? i ap = some a ↔ IsFirst (AskedFor ap) i.accessPoints a := by
  rw [← find?_eq_some_iff_isFirst]
  cases ap with
  | none =>
    have hall : (fun a => decide (AskedFor none a)) = fun _ => true :=
      funext fun a => decide_eq_true fun _ h => nomatch h
    rw [hall, accessPoint?]
    cases i.accessPoints <;> rfl
  | some name =>
    have hname : (fun a => decide (AskedFor (some name) a)) =
        fun a : AccessPoint => decide (a.name = name) :=
      funext fun a => decide_eq_decide.mpr
        ⟨fun h => h name rfl, fun h _ hn => Option.some.inj hn ▸ h⟩
    rw [hname]
    rfl

/-- **A resolution is that of the first matching access point of the first IED of the name.** -/
theorem resolve_eq_ok_iff {d : Document} {ied : String} {ap : Option String} {o : ResolveOptions}
    {res : Resolution} : resolve d ied ap o = .ok res ↔
      ∃ i a, IsFirst (·.name = ied) d.scl.ieds i ∧
        IsFirst (AskedFor ap) i.accessPoints a ∧
        res = Resolution.ofAccessPoint d o i a := by
  simp_rw [← accessPoint?_eq_some_iff, ← find?_eq_some_iff_isFirst]
  constructor
  · exact Resolution.exists_of_resolve
  · rintro ⟨i, a, hi, ha, rfl⟩
    unfold resolve
    rw [Document.ied?, hi]
    simp only [ha]

/-! ## Data objects that are left out -/

namespace Model

/-- The logical node has no data object of a definition of this type. -/
def Lacks (ln : Branch) (d : ObjectDef) (t : ObjectType) : Prop :=
  ∀ c ∈ ln.branches, ¬ (c.name = d.name ∧ c.node.kind = .object d.count t d.transient)

variable {r : Registry} {limit : Nat}

/-- A data object that does not fit stops somewhere, and that is reported. -/
theorem tooDeep_mem_nodeHarvest {ref : String} {objects : List ObjectDef} {d : ObjectDef}
    (hd : d ∈ objects) {t : ObjectType} (ht : r.objectType? d.typeId = some t)
    (hfit : ¬ Fits r limit ref d) :
    ∃ u, (sitesBelow r limit (.object (ref ++ "." ++ d.name) t)).head? = some u ∧
      .finding (.tooDeep u.ref limit) ∈ (nodeHarvest r limit ref objects).entries := by
  let site := Site.object (ref ++ "." ++ d.name) t
  have hstopped := stopped_harvest_eq (r := r) limit site
  cases hu : (sitesBelow r limit site).head? with
  | none =>
    rw [hu] at hstopped
    exact absurd (fits_iff.mpr ⟨t, ht, hstopped⟩) hfit
  | some u =>
    refine ⟨u, rfl, ?_⟩
    rw [hu] at hstopped
    have hobject : (objectHarvest r (ref ++ "." ++ d.name) d fun t =>
        harvest r limit (.object (ref ++ "." ++ d.name) t)).stopped = some ⟨u.ref⟩ := by
      rw [stopped_objectHarvest_eq, ht]
      exact hstopped
    rw [nodeHarvest, Harvest.entries_all (Harvest.stopped_all.mp (stopped_nodeHarvest limit ref _)),
      List.flatMap_map]
    refine List.mem_flatMap.mpr ⟨d, hd, ?_⟩
    rw [Harvest.settle, hobject]
    exact List.mem_append_right _ (List.mem_singleton.mpr rfl)

end Model

/-- The expansion of every logical node is in the journal. -/
theorem expansion_of_resolve {d : Document} {ied : String} {ap : Option String}
    {o : ResolveOptions} {res : Resolution} (h : resolve d ied ap o = .ok res) {ln : Branch}
    (hln : ln.Stands res.model) {config : LogicalNode}
    (hconfig : ln.node.kind.config? = some config) :
    Resolution.expansionEntries d.registry o.maxDepth ln.ref config ⊆ res.journal := by
  have hk : ln.node.kind.isLogicalNode := by
    rw [NodeKind.isLogicalNode_eq, hconfig]
    rfl
  refine Resolution.logicalNodes_of_resolve
    (P := fun es b => ∀ config, b.node.kind.config? = some config →
      Resolution.expansionEntries d.registry o.maxDepth b.ref config ⊆ es)
    ?_ ?_ ?_ h hln hk config hconfig
  · exact fun es es' b hkept hb config hc => List.Subset.trans (hb config hc) hkept.subset
  · intro es b b' halike hb config hc
    rw [halike.ref]
    exact hb config (halike.config ▸ hc)
  · intro g₁ inst device config b _ hkind hentries config' hc
    rw [hkind] at hc
    obtain rfl : config = config' := Option.some.inj hc
    have hremarked := (Resolution.Remarked.report g₁ _).trans
      (Resolution.remarked_checkNode (r := d.registry) o inst device b.id config g₁)
    exact fun e he => Array.mem_toList_iff.mpr
      (hremarked.mem (Array.mem_toList_iff.mp (hentries he)))

/-- The log has the error that the types below a data object of reference `ref` are nested too
deeply. It is reported at the first site, in the order of expansion, that is as many steps below the
data object as there are levels; its reference continues `ref` by as many names. -/
def DepthReported (r : Registry) (limit : Nat) (ref : String) (t : ObjectType) (log : IssueLog) :
    Prop :=
  ∃ (u : Site) (names : List String), (sitesBelow r limit (.object ref t)).head? = some u ∧
    names.length = limit ∧ u.ref = names.foldl (fun ref name => ref ++ "." ++ name) ref ∧
    { severity := .error
      message := "type nesting exceeds " ++ toString limit ++ " levels"
      object := u.ref : Issue } ∈ log.issues

/-- **A data object that is left out for its depth is explained.** If the types of a logical node
and of a data object are registered, but the logical node lacks the data object, then it is reported
that its types are nested too deeply. -/
theorem omission_explained {d : Document} {ied : String} {ap : Option String} {o : ResolveOptions}
    {res : Resolution} (h : resolve d ied ap o = .ok res) {id : Nat} {ln : Branch}
    (hln : res.model.branch? id = some ln) {config : LogicalNode}
    (hconfig : ln.node.kind.config? = some config) {type : NodeType}
    (htype : d.registry.nodeType? config.lnType = some type) {object : ObjectDef}
    (hobject : object ∈ type.objects) {t : ObjectType}
    (ht : d.registry.objectType? object.typeId = some t) (hlacks : Lacks ln object t) :
    DepthReported d.registry o.maxDepth (ln.ref ++ "." ++ object.name) t res.issues := by
  obtain ⟨i, a, -, -, hstage⟩ := Resolution.stage_of_resolve h
  obtain ⟨hstands, -⟩ := (Branch.branch?_eq_some_iff hstage.lawful.forest).mp hln
  have hobjects : nodeObjects d.registry config = type.objects := by rw [nodeObjects, htype]
  have hfit : ¬ Fits d.registry o.maxDepth ln.ref object := by
    intro hfit
    obtain ⟨t', c, hc, hof⟩ :=
      (hstage.objects_below hstands hconfig).1 object (hobjects ▸ hobject) hfit
    obtain rfl : t = t' := Option.some.inj (ht.symm.trans hof.type)
    exact hlacks c hc ⟨hof.name, hof.kind⟩
  obtain ⟨u, hu, hentry⟩ := tooDeep_mem_nodeHarvest hobject ht hfit
  obtain ⟨names, hlength, href⟩ := (mem_sitesBelow.mp (List.mem_of_head? hu)).ref_eq
  have hfinding : .finding (.tooDeep u.ref o.maxDepth) ∈ res.journal := by
    refine expansion_of_resolve h hstands hconfig ?_
    rw [Resolution.expansionEntries, nodeEntries, htype, hobjects]
    exact List.mem_append_left _ (List.mem_cons_of_mem _ hentry)
  exact ⟨u, names, hu, hlength, href, mem_issueLog_of_finding hfinding⟩

/-- The logical node of a configuration is in the model. -/
theorem exists_branch_of_resolve {d : Document} {o : ResolveOptions} {i : Ied} {a : AccessPoint}
    {device : LogicalDevice} (hdevice : device ∈ a.devices) {config : LogicalNode}
    (hconfig : config ∈ device.logicalNodes) :
    ∃ id ln, (Resolution.ofAccessPoint d o i a).model.branch? id = some ln ∧
      ln.node.kind.config? = some config ∧
      ln.ref = Resolution.deviceName i.name device ++ "/" ++ config.name := by
  obtain ⟨id, n, hface, hkind, href⟩ := Resolution.shows_built d o i a hdevice hconfig
  rw [← Resolution.model_ofAccessPoint d o i a] at hface
  obtain ⟨n, hn, rfl⟩ := IedModel.node?_of_face? hface
  have hforest := (Resolution.stage_ofAccessPoint d o i a).lawful.forest
  obtain ⟨ln, hln, rfl⟩ := Branch.exists_stands hforest (IedModel.lt_size_of_node? hn)
  obtain rfl : n = ln.node := Option.some.inj (hn.symm.trans hln.node?)
  refine ⟨ln.id, ln, hln.branch?, ?_, href⟩
  rw [← NodeKind.config?_bare, show ln.node.kind.bare = _ from hkind]
  rfl

/-- **What resolution fails for, and what is left out of a model.** Resolution succeeds iff the
first IED of the name has an access point that is asked for, and resolves the first such access
point. All logical nodes that are configured for it are in the model. If one of them lacks a data
object although the types of both are registered, it is reported that the types of the data object
are nested too deeply. -/
theorem resolves_and_explains_omissions (d : Document) (ied : String) (ap : Option String)
    (o : ResolveOptions) :
    ((∃ res, resolve d ied ap o = .ok res) ↔
      ∃ i, IsFirst (·.name = ied) d.scl.ieds i ∧ ∃ a ∈ i.accessPoints, AskedFor ap a) ∧
    ∀ res, resolve d ied ap o = .ok res → ∃ i a, IsFirst (·.name = ied) d.scl.ieds i ∧
      IsFirst (AskedFor ap) i.accessPoints a ∧ res = .ofAccessPoint d o i a ∧
      (∀ device ∈ a.devices, ∀ config ∈ device.logicalNodes, ∃ id ln,
        res.model.branch? id = some ln ∧ ln.node.kind.config? = some config ∧
          ln.ref = Resolution.deviceName i.name device ++ "/" ++ config.name) ∧
      ∀ id ln config type, res.model.branch? id = some ln →
        ln.node.kind.config? = some config → d.registry.nodeType? config.lnType = some type →
        ∀ object ∈ type.objects, ∀ t, d.registry.objectType? object.typeId = some t →
          Lacks ln object t →
          DepthReported d.registry o.maxDepth (ln.ref ++ "." ++ object.name) t res.issues := by
  refine ⟨?_, fun res h => ?_⟩
  · simp_rw [← exists_isFirst, resolve_eq_ok_iff]
    constructor
    · rintro ⟨res, i, a, hi, ha, -⟩
      exact ⟨i, hi, a, ha⟩
    · rintro ⟨i, hi, a, ha⟩
      exact ⟨_, i, a, hi, ha, rfl⟩
  · obtain ⟨i, a, hi, ha, rfl⟩ := resolve_eq_ok_iff.mp h
    refine ⟨i, a, hi, ha, rfl, fun device hdevice config hconfig =>
      exists_branch_of_resolve hdevice hconfig, ?_⟩
    intro id ln config type hln hconfig htype object hobject t ht hlacks
    exact omission_explained h hln hconfig htype hobject ht hlacks

/-- With three levels, `Loop` of the document with types in a circle is left out. -/
theorem resolves_and_explains_omissions_circular : ∃ res id ln,
    resolve circularDocument "E" none { maxDepth := 3, checkNamespaces := false } = .ok res ∧
      res.model.branch? id = some ln ∧
      Lacks ln ⟨"Loop", "C", 0, false⟩ ⟨"C", "WYE", [⟨"sub", "C", 0, false⟩], []⟩ ∧
      { severity := .error
        message := "type nesting exceeds 3 levels"
        object := "ELD/LLN0.Loop.sub.sub.sub" : Issue } ∈ res.issues.issues := by
  let o : ResolveOptions := { maxDepth := 3, checkNamespaces := false }
  let res := Resolution.ofAccessPoint circularDocument o
    ⟨"E", none, none, none, [circularPoint]⟩ circularPoint
  have h : resolve circularDocument "E" none o = .ok res := rfl
  obtain ⟨id, ln, hln, hconfig, href⟩ := exists_branch_of_resolve (d := circularDocument) (o := o)
    (i := ⟨"E", none, none, none, [circularPoint]⟩) (a := circularPoint)
    (List.mem_singleton.mpr rfl) (List.mem_singleton.mpr rfl)
  -- no node has this name at all
  have hnames : ∀ id < res.model.size, res.model.nameOf id ≠ "Loop" := by decide +kernel
  have hlacks : Lacks ln ⟨"Loop", "C", 0, false⟩ ⟨"C", "WYE", [⟨"sub", "C", 0, false⟩], []⟩ := by
    rintro c hc ⟨hname, -⟩
    have hforest : res.model.Forest := (Resolution.stage_ofAccessPoint _ _ _ _).lawful.forest
    obtain ⟨hstands, -⟩ := (Branch.branch?_eq_some_iff hforest).mp hln
    have hn := (hstands.of_mem hc).node?
    exact hnames c.id (IedModel.lt_size_of_node? hn) ((IedModel.nameOf_eq hn).trans hname)
  obtain ⟨i, a, -, -, -, -, hexplained⟩ :=
    (resolves_and_explains_omissions circularDocument "E" none o).2 res h
  obtain ⟨u, names, hu, -, -, hissue⟩ :=
    hexplained id ln circularNode _ hln hconfig rfl _ List.mem_cons_self _ rfl hlacks
  have href : ln.ref = "ELD/LLN0" := href
  rw [href] at hu
  have huref : u.ref = "ELD/LLN0.Loop.sub.sub.sub" := by
    rw [← Option.some.inj hu]
    decide +kernel
  have hmessage : "type nesting exceeds " ++ toString o.maxDepth ++ " levels" =
      "type nesting exceeds 3 levels" := by decide +kernel
  rw [huref, hmessage] at hissue
  exact ⟨res, id, ln, h, hln, hlacks, hissue⟩

end Substation
