import Mathlib.Data.List.Basic
import Mathlib.Tactic.Common
import Substation.Proofs.FirstDefinitions
import Substation.Proofs.Marks
import Substation.Proofs.NodeEntries
import Substation.Proofs.Repetitions
import Substation.Proofs.References

/-!
# The templates that a resolution uses

While a model is built, the journal has the marks of its nodes in order, as long as no data object
is taken back (`marks_of_resolve`). So a resolution uses exactly the registered templates that a
node of its model refers to, and the users of a template are those nodes (`usage_exact`).

Results:
* `marks_of_resolve` (`resolve_ied`): the marks of a resolution;
* `usage_exact` (`is_used`, `used_on`, `unused_templates`): the templates that it uses.
-/

namespace Substation

open Substation.Config
open Substation.Journal
open Substation.Model
open Substation.Template

/-! ## Types under their own ids -/

/-- The types of a document are registered under their own ids. -/
theorem keyed_ofScl (scl : Scl) : Keyed (Document.ofScl scl).registry := by
  intro id t ht
  have hfind : (Document.ofScl scl).registry.find? id .objectType = some (.objectType t) := by
    rw [Registry.find?, ht]
    rfl
  obtain ⟨w, -, -, hid, hconvert⟩ := exists_of_find?_ofScl hfind
  -- what is converted keeps its id
  exact (Written.key_of_convert hconvert).2.trans hid

/-! ## Marks of a logical node -/

/-- Whether an entry tells that a data object was taken back, which it does where it names the node
that is too deep. -/
def takesBack : Entry → Bool
  | .finding (.tooDeep ..) => true
  | _ => false

/-- No data object was taken back. -/
def NoneTakenBack (es : List Entry) : Prop := ∀ e ∈ es, takesBack e = false

instance (es : List Entry) : Decidable (NoneTakenBack es) :=
  inferInstanceAs (Decidable (∀ e ∈ es, takesBack e = false))

theorem NoneTakenBack.mono {es es' : List Entry} (h : NoneTakenBack es') (hsub : es ⊆ es') :
    NoneTakenBack es := fun e he => h e (hsub he)

variable {r : Registry}

/-- A data object whose expansion stopped would have been taken back. -/
theorem stopped_of_noneTakenBack {limit : Nat} {ref : String} {objects : List ObjectDef}
    (h : NoneTakenBack (nodeHarvest r limit ref objects).entries) {d : ObjectDef}
    (hd : d ∈ objects) : (objectHarvest r (ref ++ "." ++ d.name) d fun t =>
      harvest r limit (.object (ref ++ "." ++ d.name) t)).stopped = none := by
  rw [nodeHarvest, Harvest.entries_all (Harvest.stopped_all.mp (stopped_nodeHarvest limit ref _)),
    List.flatMap_map] at h
  by_contra hne
  obtain ⟨e, hstopped⟩ := Option.ne_none_iff_exists'.mp hne
  have hmem : Entry.finding (.tooDeep e.node limit) ∈ (Harvest.settle limit <|
      objectHarvest r (ref ++ "." ++ d.name) d fun t =>
        harvest r limit (.object (ref ++ "." ++ d.name) t)).entries := by
    rw [Harvest.settle, hstopped]
    exact List.mem_append_right _ (List.mem_singleton.mpr rfl)
  exact Bool.noConfusion (h _ (List.mem_flatMap.mpr ⟨d, hd, hmem⟩))

/-- If no data object is taken back, the harvest of a logical node is that of its data objects. -/
theorem nodeHarvest_of_noneTakenBack {limit : Nat} {ref : String} {objects : List ObjectDef}
    (h : NoneTakenBack (nodeHarvest r limit ref objects).entries) :
    nodeHarvest r limit ref objects = .all (objects.map fun d =>
      objectHarvest r (ref ++ "." ++ d.name) d fun t =>
        harvest r limit (.object (ref ++ "." ++ d.name) t)) := by
  refine congrArg Harvest.all (List.map_congr_left fun d hd => ?_)
  rw [Harvest.settle, stopped_of_noneTakenBack h hd]

theorem marked_nodeHarvest (hr : Keyed r) {limit : Nat} {ref : String} {objects : List ObjectDef}
    (h : NoneTakenBack (nodeHarvest r limit ref objects).entries) :
    (nodeHarvest r limit ref objects).Marked r ref := by
  rw [nodeHarvest_of_noneTakenBack h]
  exact .all <| List.forall_mem_map.mpr fun d _ =>
    marked_objectHarvest hr fun t _ => marked_harvest hr limit (.object _ t)

/-- The expansion of a logical node marks what its nodes refer to. -/
theorem marks_expansionEntries (hr : Keyed r) {limit : Nat} {stem : String} {config : LogicalNode}
    (h : NoneTakenBack (Resolution.expansionEntries r limit (stem ++ config.name) config))
    (parent id : Nat) :
    (Resolution.expansionEntries r limit (stem ++ config.name) config).filterMap Entry.mark? =
      Branch.marks r [(nodeSprout r limit limit (stem ++ config.name) config).grown parent stem
        id] := by
  rw [nodeSprout, ← sprouts_nodeHarvest limit _ _ (Nat.le_refl limit), Sprout.grown, Branch.marks,
    Branch.preorderAll, Branch.preorderAll, Branch.preorder, List.append_nil, List.filterMap_cons,
    Node.mark?_of_some rfl, Registry.contains, Registry.find?]
  rw [Resolution.expansionEntries, nodeEntries] at h ⊢
  cases htype : r.nodeType? config.lnType with
  | none =>
    rw [nodeObjects_of_none htype]
    rfl
  | some type =>
    rw [htype] at h
    have hbelow := marked_nodeHarvest hr (h.mono fun e he =>
      List.mem_append_left _ (List.mem_cons_of_mem _ he)) id (id + 1)
    rw [List.filterMap_append, List.filterMap_cons, hbelow]
    exact List.append_nil _

/-! ## Marks of a model -/

namespace Resolution

theorem Respaced.marks {m m' : IedModel} (h : Respaced m m') : m'.marks r = m.marks r := by
  induction h with
  | refl => rfl
  | step _ id space ih =>
    rw [← ih]
    exact IedModel.marks_congr (IedModel.size_setSpace ..) (IedModel.face?_setSpace id space)

theorem Remarked.marks {g g' : Growth} (h : Remarked g g') :
    g'.journal.toList.filterMap Entry.mark? = g.journal.toList.filterMap Entry.mark? := by
  obtain ⟨es, hes, hmarks⟩ := h
  rw [hes, List.filterMap_append, hmarks, List.append_nil]

theorem Remarked.subset {g g' : Growth} (h : Remarked g g') :
    g.journal.toList ⊆ g'.journal.toList := by
  obtain ⟨es, hes, -⟩ := h
  rw [hes]
  exact List.subset_append_left _ _

/-- The journal has the marks of the nodes in order, if no data object was taken back. -/
def Tracked (r : Registry) (g : Growth) : Prop :=
  NoneTakenBack g.journal.toList → g.journal.toList.filterMap Entry.mark? = g.model.marks r

theorem Tracked.addNode {g : Growth} (hg : Tracked r g) (hr : Keyed r) (hm : g.model.Forest)
    {device : Nat} {d : Node} (hd : g.model.node? device = some d) (o : ResolveOptions)
    (subject : Subject) (inst : String) (config : LogicalNode) :
    Tracked r (addNode r o subject inst device g config) := by
  intro hkept
  obtain ⟨g₁, n, hmodel, hjournal, hadd⟩ :=
    exists_of_addNode (r := r) hm hd o subject inst config
  have hremarked := (Remarked.report g₁ _).trans
    (remarked_checkNode (r := r) o inst device g.model.size config g₁)
  rw [hadd] at hkept ⊢
  have hkept₁ := hkept.mono hremarked.subset
  rw [hjournal] at hkept₁
  have hbefore : g.journal.toList.filterMap Entry.mark? = g.model.marks r :=
    hg (hkept₁.mono fun e he => List.mem_append_left _ (List.mem_append_left _ he))
  have hnew := marks_expansionEntries hr (hkept₁.mono fun e he =>
    List.mem_append_left _ (List.mem_append_right _ he)) device g.model.size
  rw [hremarked.marks, (respaced_checkNode o inst device g.model.size config g₁).marks, hjournal,
    hmodel, IedModel.marks_plant hd, List.filterMap_append, List.filterMap_append, hbefore, hnew]
  exact List.append_nil _

/-- **The journal of a model has the marks of its nodes in order**, if no data object was taken
back. -/
theorem marks_of_resolve {d : Document} (hr : Keyed d.registry) {ied : String} {ap : Option String}
    {o : ResolveOptions} {res : Resolution} (h : resolve d ied ap o = .ok res)
    (hkept : NoneTakenBack res.journal) :
    res.journal.filterMap Entry.mark? = res.model.marks d.registry := by
  obtain ⟨i, a, -, -, rfl⟩ := exists_of_resolve h
  obtain ⟨-, hbuilt⟩ := built_induction d o i a
    (Q := Tracked d.registry) (fun _ => rfl)
    (fun g name inst _ hg hkept => (hg hkept).trans (g.model.marks_addDevice name inst).symm)
    (fun g device up inst config hm hup _ hg => hg.addNode hr hm.forest hup o _ inst config)
  obtain ⟨es, hes, hmarks⟩ := remarked_ofAccessPoint d o i a
  rw [model_ofAccessPoint, hes, List.filterMap_append, hmarks, List.append_nil]
  refine hbuilt (hkept.mono ?_)
  rw [hes]
  exact List.subset_append_left _ _

end Resolution

/-! ## The users of a mark -/

namespace Template

/-- The user of a mark for a template. -/
def Mark.userOf? (kind : Kind) (id : String) (m : Mark) : Option String :=
  if m.kind = kind ∧ m.id = id then some m.user else none

theorem Mark.eq_of_userOf? {kind : Kind} {id user : String} {m : Mark}
    (h : m.userOf? kind id = some user) : m = ⟨kind, id, user⟩ := by
  obtain ⟨⟨rfl, rfl⟩, huser⟩ := Option.ite_none_right_eq_some.mp h
  exact Option.some.inj huser ▸ rfl

namespace Usage

variable {ms : List Mark} {kind : Kind} {id : String}

theorem isUsed_ofList : (ofList ms).isUsed kind id ↔ ms.filterMap (·.userOf? kind id) ≠ [] := by
  rw [isUsed, marks_ofList, List.any_eq_true, Ne, List.filterMap_eq_nil_iff]
  simp only [List.mem_eraseDups, decide_eq_true_eq, Mark.userOf?, ite_eq_right_iff, reduceCtorEq,
    imp_false, not_forall, not_not, exists_prop]

/-- The users of a template are the first occurrences of those who mark it. -/
theorem usersOf_ofList :
    (ofList ms).usersOf kind id = (ms.filterMap (·.userOf? kind id)).eraseDups := by
  rw [usersOf, marks_ofList, ← List.filterMap_eq_map, List.filterMap_filter, eraseDups_filterMap]
  · simp only [decide_eq_true_eq, Function.comp_apply, Mark.userOf?]
  · exact fun m m' user hm hm' => (Mark.eq_of_userOf? hm).trans (Mark.eq_of_userOf? hm').symm

end Usage

end Template

/-! ## The users of a template -/

namespace Model.IedModel

/-- The nodes that refer to a template, in order. -/
def referrers (m : IedModel) (kind : Kind) (id : String) : List Node :=
  m.nodes.toList.filter (·.kind.template? = some (kind, id))

theorem userOf?_mark? (n : Node) (kind : Kind) (id : String) :
    (n.mark? r).bind (·.userOf? kind id) =
      if r.contains kind id ∧ n.kind.template? = some (kind, id) then some n.ref else none := by
  cases ht : n.kind.template? with
  | none =>
    rw [Node.mark?_of_none ht, if_neg fun h => nomatch h.2]
    rfl
  | some t =>
    obtain ⟨kind', id'⟩ := t
    rw [Node.mark?_of_some ht]
    by_cases heq : kind' = kind ∧ id' = id
    · obtain ⟨rfl, rfl⟩ := heq
      cases r.contains kind' id' with
      | true => simp [Mark.userOf?]
      | false => simp
    · have hne : ¬ (r.contains kind id ∧ some (kind', id') = some (kind, id)) := by
        rintro ⟨-, ⟨⟩⟩
        exact heq ⟨rfl, rfl⟩
      rw [if_neg hne]
      split
      · exact if_neg heq
      · rfl

/-- Those of a registered template make its marks. -/
theorem users_marks (r : Registry) (m : IedModel) (kind : Kind) (id : String) :
    (m.marks r).filterMap (·.userOf? kind id) =
      if r.contains kind id then (m.referrers kind id).map Node.ref else [] := by
  rw [marks, List.filterMap_filterMap]
  simp only [userOf?_mark?]
  cases r.contains kind id with
  | true =>
    rw [if_pos rfl, referrers, ← List.filterMap_eq_map, List.filterMap_filter]
    simp only [true_and, decide_eq_true_eq, Function.comp_apply]
  | false =>
    rw [if_neg Bool.false_ne_true]
    exact List.filterMap_eq_nil_iff.mpr fun n _ => if_neg fun h => Bool.false_ne_true h.1

end Model.IedModel

/-- **A resolution uses what its nodes refer to.** If no data object was taken back, a template is
used iff it is registered and some node refers to it; its users are those nodes, in order and each
reference once; and the unused templates are those of the registry, in the order of its ids, that no
node refers to. -/
theorem usage_exact {scl : Scl} {ied : String} {ap : Option String} {o : ResolveOptions}
    {res : Resolution} (h : resolve (Document.ofScl scl) ied ap o = .ok res)
    (hkept : NoneTakenBack res.journal) :
    let r := (Document.ofScl scl).registry
    (∀ kind id, res.usage.isUsed kind id ↔
      r.contains kind id ∧ res.model.referrers kind id ≠ []) ∧
    (∀ kind id, res.usage.usersOf kind id =
      if r.contains kind id then ((res.model.referrers kind id).map Node.ref).eraseDups else []) ∧
    res.usage.unused r = r.ids.filter fun (kind, id) => (res.model.referrers kind id).isEmpty := by
  intro r
  have husage : res.usage = .ofList (res.model.marks r) := by
    have hmarks := Resolution.marks_of_resolve (keyed_ofScl scl) h hkept
    obtain ⟨i, a, -, -, rfl⟩ := Resolution.exists_of_resolve h
    exact congrArg Usage.ofList hmarks
  have hused : ∀ kind id, res.usage.isUsed kind id ↔
      r.contains kind id ∧ res.model.referrers kind id ≠ [] := by
    intro kind id
    rw [husage, Usage.isUsed_ofList, IedModel.users_marks]
    cases r.contains kind id with
    | true => simp
    | false => simp
  refine ⟨hused, fun kind id => ?_, List.filter_congr fun ⟨kind, id⟩ hid => ?_⟩
  · rw [husage, Usage.usersOf_ofList, IedModel.users_marks]
    cases r.contains kind id <;> rfl
  · have hiff := hused kind id
    rw [and_iff_right (Registry.mem_ids.mp hid)] at hiff
    rw [Bool.eq_iff_iff, Bool.not_eq_true', ← Bool.not_eq_true, hiff, not_not, List.isEmpty_iff]

/-- Types that two logical nodes share, and one that nothing refers to. -/
def sharedTypes : TypeSection :=
  ⟨[⟨"L", "LLN0", [⟨some "Mod", some "M", none, none⟩]⟩],
    [⟨"M", "ENS", [], [⟨some "stVal", some "Enum", some "B", some "ST", none, none, none, none,
      none, none, none, []⟩]⟩, ⟨"Spare", "ENS", [], []⟩],
    [], [⟨"B", [⟨some "1", "on"⟩]⟩]⟩

/-- An access point with those logical nodes. -/
def sharedPoint : AccessPoint :=
  ⟨"A", some ⟨[⟨"LD", none, none,
    some ⟨"LLN0", "L", "", none, none, [], [], [], [], [], [], [], none⟩,
    [⟨"GGIO", "L", "1", none, none, [], [], [], [], [], [], [], none⟩]⟩]⟩⟩

/-- A configuration with that access point. -/
def sharedScl : Scl where
  version := none
  revision := none
  release := none
  header := none
  communication := none
  ieds := [⟨"E", none, none, none, [sharedPoint]⟩]
  types := some sharedTypes

/-- Both use the enumeration, and the one type is left over. -/
theorem usage_exact_shared : ∃ res, resolve (Document.ofScl sharedScl) "E" none {} = .ok res ∧
    NoneTakenBack res.journal ∧
    res.usage.usersOf .enumType "B" = ["ELD/LLN0.Mod.stVal", "ELD/GGIO1.Mod.stVal"] ∧
    res.usage.unused (Document.ofScl sharedScl).registry = [(.objectType, "Spare")] := by
  let res := Resolution.ofAccessPoint (Document.ofScl sharedScl) {}
    ⟨"E", none, none, none, [sharedPoint]⟩ sharedPoint
  have h : resolve (Document.ofScl sharedScl) "E" none {} = .ok res := rfl
  have hkept : NoneTakenBack res.journal := by decide +kernel
  obtain ⟨-, husers, hunused⟩ := usage_exact h hkept
  refine ⟨res, h, hkept, (husers _ _).trans ?_, hunused.trans ?_⟩
  · decide +kernel
  · decide +kernel

end Substation
