import Mathlib.Data.List.Basic
import Mathlib.Tactic.Common
import Substation.Proofs.Unfolding

/-!
# Expansion grows the unfolding

`Grow` work is followed step by step: `Reaps work parent ref h` says that from every model in which
`parent` is a node of reference `ref`, the work plants what the harvest `h` brings in, makes its
entries, and stops where it stops. `growStructure` and `growObject` reap the harvest of their site.

A data object that stops is taken back, which leaves the model as it was before it
(`rollback_of_extends`), so a logical node gets the unfoldings of the data objects that fit and
nothing else (`addLogicalNode_appends_unfolding`).

Results:
* `growStructure_reaps`, `growObject_reaps` (`expand_sub_attributes`, `expand_data_object`): the
  work reaps the harvest of its site;
* `addLogicalNode_appends_unfolding` (`resolve_logical_node`): what a logical node gets.
-/

namespace Substation.Model

open Substation.Journal
open Substation.Template

namespace Grow

/-- The result of work that starts from `g`. -/
def exec {α : Type} (x : Grow α) (g : Growth) : Except TooDeep α × Growth := x.run.run g

theorem exec_bind {α β : Type} (x : Grow α) (f : α → Grow β) (g : Growth) :
    (x >>= f).exec g = match x.exec g with
      | (.ok a, g) => (f a).exec g
      | (.error e, g) => (.error e, g) := by
  unfold exec ExceptT.run StateT.run
  simp only [bind, ExceptT.bind, ExceptT.mk, StateT.bind, ExceptT.bindCont]
  obtain ⟨a, g'⟩ := x g
  cases a <;> rfl

theorem exec_of_ok {α β : Type} {x : Grow α} {f : α → Grow β} {g g' : Growth} {a : α}
    (h : x.exec g = (.ok a, g')) : (x >>= f).exec g = (f a).exec g' := by
  rw [exec_bind, h]

theorem exec_tryCatch {α : Type} (x : Grow α) (f : TooDeep → Grow α) (g : Growth) :
    (tryCatch x f).exec g = match x.exec g with
      | (.ok a, g) => (.ok a, g)
      | (.error e, g) => (f e).exec g := by
  unfold exec ExceptT.run StateT.run
  simp only [tryCatch, tryCatchThe, MonadExceptOf.tryCatch, ExceptT.tryCatch, ExceptT.mk, bind,
    StateT.bind]
  obtain ⟨a, g'⟩ := x g
  cases a <;> rfl

theorem exec_undoIfTooDeep (limit : Nat) (x : Grow Unit) (g : Growth) :
    (undoIfTooDeep limit x).exec g = match x.exec g with
      | (.ok v, g') => (.ok v, g')
      | (.error e, g') => (.ok (), (g'.onModel (·.rollback g.model.size)).enter
          (.finding (.tooDeep e.node limit))) := by
  have hget : (get : Grow Growth).exec g = (.ok g, g) := rfl
  unfold undoIfTooDeep
  rw [exec_of_ok hget, exec_tryCatch]
  rcases x.exec g with ⟨_ | _, _⟩ <;> rfl

theorem exec_addChild (parent : Nat) (name : String) (kind : NodeKind) (g : Growth) :
    (addChild parent name kind).exec g =
      (.ok g.model.size, g.onModel (·.addChild parent name kind)) := rfl

theorem exec_refOf (id : Nat) (g : Growth) : (refOf id).exec g = (.ok (g.model.ref id), g) := rfl

theorem exec_enter (e : Entry) (g : Growth) : (enter e).exec g = (.ok (), g.enter e) := rfl

theorem exec_use (kind : Kind) (id user : String) (g : Growth) :
    (use kind id user).exec g = (.ok (), g.enter (.mark ⟨kind, id, user⟩)) := rfl

theorem exec_stop {α : Type} (id : Nat) (g : Growth) :
    (stop id : Grow α).exec g = (.error ⟨g.model.ref id⟩, g) := rfl

end Grow

open Grow

/-! ## Work and its harvest -/

/-- A state after a harvest below a node. -/
def Growth.gather (g : Growth) (parent : Nat) (h : Harvest) : Growth :=
  ⟨g.model.plantAll parent h.sprouts, g.journal ++ h.entries⟩

theorem Growth.gather_gather (g : Growth) (parent : Nat) (h h' : Harvest) :
    (g.gather parent h).gather parent h' =
      g.gather parent ⟨h.sprouts ++ h'.sprouts, h.entries ++ h'.entries, h'.stopped⟩ := by
  unfold gather
  rw [IedModel.plantAll_append]
  congr 1
  exact Array.ext' (by simp)

/-- How work with a harvest ends. -/
def Harvest.outcome (h : Harvest) : Except TooDeep Unit :=
  match h.stopped with
  | none => .ok ()
  | some e => .error e

theorem Harvest.outcome_of_none {h : Harvest} (hs : h.stopped = none) : h.outcome = .ok () := by
  unfold outcome
  rw [hs]

/-- The work brings in the harvest, wherever `parent` is a node of reference `ref` in a forest. -/
def Reaps (work : Grow Unit) (parent : Nat) (ref : String) (h : Harvest) : Prop :=
  ∀ (g : Growth) (p : Node), g.model.Forest → g.model.node? parent = some p → p.ref = ref →
    p.kind.separator = "." → work.exec g = (h.outcome, g.gather parent h)

/-- The work answers `v` and makes entries, and leaves the model alone. -/
def Notes {α : Type} (work : Grow α) (parent : Nat) (ref : String) (v : α) (es : List Entry) :
    Prop :=
  ∀ (g : Growth) (p : Node), g.model.node? parent = some p → p.ref = ref →
    work.exec g = (.ok v, g.gather parent { entries := es })

variable {r : Registry} {parent : Nat} {ref : String}

theorem Growth.gather_none (g : Growth) (parent : Nat) : g.gather parent {} = g := by
  unfold gather
  rw [Array.appendList_nil]
  rfl

theorem Growth.enter_eq_gather (g : Growth) (parent : Nat) (e : Entry) :
    g.enter e = g.gather parent { entries := [e] } := by
  unfold gather
  rw [Array.appendList_cons, Array.appendList_nil]
  rfl

namespace Notes

theorem refOf : Notes (refOf parent) parent ref ref [] := by
  intro g p hp href
  rw [exec_refOf, IedModel.ref_eq hp, href, g.gather_none]

theorem enter (e : Entry) : Notes (enter e) parent ref () [e] := by
  intro g p _ _
  rw [exec_enter, g.enter_eq_gather parent e]

theorem pure {α : Type} (v : α) : Notes (pure v) parent ref v [] := by
  intro g p _ _
  rw [g.gather_none]
  rfl

theorem bind {α β : Type} {x : Grow α} {f : α → Grow β} {v : α} {w : β} {es fs : List Entry}
    (hx : Notes x parent ref v es) (hf : Notes (f v) parent ref w fs) :
    Notes (x >>= f) parent ref w (es ++ fs) := by
  intro g p hp href
  rw [exec_of_ok (hx g p hp href), hf (g.gather parent { entries := es }) p hp href,
    g.gather_gather]
  rfl

theorem structureOf {a : AttributeDef} (ha : a.type = .constructed) :
    Notes (structureOf r parent a) parent ref (structureType? r a) (leafEntries r ref a) := by
  unfold Model.structureOf structureType? leafEntries
  rw [ha, if_pos rfl]
  refine bind refOf ?_
  cases r.attributeType? (a.typeId.getD "") with
  | some t => exact bind (enter _) (pure _)
  | none => exact bind (enter _) (pure _)

theorem useEnum {a : AttributeDef} (ha : a.type = .enumerated) :
    Notes (useEnum r parent a) parent ref () (leafEntries r ref a) := by
  have hentries : leafEntries r ref a = if r.contains .enumType (a.typeId.getD "") then
      [.mark ⟨.enumType, a.typeId.getD "", ref⟩]
      else [.finding (.noEnumType ref a.name (a.typeId.getD ""))] := by
    simp only [leafEntries, ha]
  rw [hentries]
  unfold Model.useEnum
  by_cases hc : r.contains .enumType (a.typeId.getD "")
  · simp only [if_pos hc]
    exact bind refOf (enter _)
  · simp only [if_neg hc]
    exact bind refOf (enter _)

end Notes

namespace Reaps

variable {x y : Grow Unit} {h h' : Harvest}

theorem stop : Reaps (stop parent) parent ref { stopped := some ⟨ref⟩ } := by
  intro g p _ hp href _
  rw [exec_stop, IedModel.ref_eq hp, href]
  show _ = (_, (⟨g.model, g.journal ++ []⟩ : Growth))
  rw [Array.appendList_nil]
  rfl

theorem ofNotes {es : List Entry} (hx : Notes x parent ref () es) :
    Reaps x parent ref { entries := es } :=
  fun g p _ hp href _ => hx g p hp href

theorem bind {α : Type} {x : Grow α} {f : α → Grow Unit} {v : α} {es : List Entry}
    (hx : Notes x parent ref v es) (hf : Reaps (f v) parent ref h) :
    Reaps (x >>= f) parent ref (Harvest.andThen { entries := es } h) := by
  intro g p hm hp href hsep
  rw [exec_of_ok (hx g p hp href), hf (g.gather parent { entries := es }) p hm hp href hsep,
    g.gather_gather]
  rfl

theorem andThen (hx : Reaps x parent ref h) (hy : Reaps y parent ref h') :
    Reaps (x >>= fun _ => y) parent ref (h.andThen h') := by
  intro g p hm hp href hsep
  rw [exec_bind, hx g p hm hp href hsep]
  unfold Harvest.andThen
  cases hs : h.stopped with
  | some e => simp only [Harvest.outcome, hs]
  | none =>
    simp only [Harvest.outcome, hs]
    have hp' := (IedModel.plantAll_gains hp h.sprouts).adopted
    rw [hy (g.gather parent h) _ (hm.plantAll parent h.sprouts) hp' href hsep, g.gather_gather]
    rfl

theorem forM {α : Type} {as : List α} {f : α → Grow Unit} {k : α → Harvest}
    (h : ∀ a ∈ as, Reaps (f a) parent ref (k a)) :
    Reaps (as.forM f) parent ref (Harvest.all (as.map k)) := by
  induction as with
  | nil => exact ofNotes (.pure ())
  | cons a as ih =>
    obtain ⟨ha, has⟩ := List.forall_mem_cons.mp h
    exact andThen ha (ih has)

/-- Work below a new node brings in what stands under it. -/
theorem child {name : String} {kind : NodeKind} {f : Nat → Grow Unit} {first : List Entry}
    (hkind : kind.separator = ".")
    (hf : ∀ node, Reaps (f node) node (ref ++ "." ++ name)
      (Harvest.andThen { entries := first } h)) :
    Reaps (addChild parent name kind >>= f) parent ref (.under name kind first h) := by
  intro g p hm hp href hsep
  have hnode := IedModel.node?_addChild_size hp name kind
  rw [exec_of_ok (exec_addChild parent name kind g),
    hf _ (g.onModel (·.addChild parent name kind)) _ (hm.addChild parent name kind) hnode
      (by rw [← href, ← hsep]; rfl) hkind]
  rfl

theorem refOf {f : String → Grow Unit} (hf : Reaps (f ref) parent ref h) :
    Reaps (refOf parent >>= f) parent ref h :=
  bind .refOf hf

/-- An attribute that is not structured has nothing below it. -/
theorem leaf_of_notes {a : AttributeDef} (hs : structureType? r a = none)
    {below : AttributeType → Harvest} (hx : Notes x parent ref () (leafEntries r ref a)) :
    Reaps x parent ref (Harvest.andThen { entries := leafEntries r ref a } <|
      match structureType? r a with
      | some t => below t
      | none => {}) := by
  rw [hs]
  have h : Harvest.andThen { entries := leafEntries r ref a } {} =
      { entries := leafEntries r ref a } := by
    simp [Harvest.andThen]
  rw [h]
  exact ofNotes hx

theorem addLeaf {fc : Constraint} {a : AttributeDef} {inner : Nat → AttributeType → Grow Unit}
    {below : AttributeType → Harvest}
    (h : ∀ node t, structureType? r a = some t →
      Reaps (inner node t) node (ref ++ "." ++ a.name) (below t)) :
    Reaps (addLeaf r parent fc a inner) parent ref
      (leafHarvest r (ref ++ "." ++ a.name) fc a below) := by
  refine child rfl fun node => ?_
  split
  · rename_i htype
    refine bind (.structureOf htype) ?_
    cases ht : structureType? r a with
    | some t => exact h node t ht
    | none => exact ofNotes (.pure ())
  · rename_i htype
    exact leaf_of_notes (if_neg (by rw [htype]; decide)) (.useEnum htype)
  · rename_i hconstructed henumerated
    have hentries : leafEntries r (ref ++ "." ++ a.name) a = [] := by
      unfold leafEntries
      split
      · exact absurd (by assumption) hconstructed
      · exact absurd (by assumption) henumerated
      · rfl
    exact leaf_of_notes (if_neg hconstructed) (hentries ▸ .pure ())

theorem addObject {d : ObjectDef} {inner : Nat → ObjectType → Grow Unit}
    {below : ObjectType → Harvest}
    (h : ∀ node t, r.objectType? d.typeId = some t →
      Reaps (inner node t) node (ref ++ "." ++ d.name) (below t)) :
    Reaps (addObject r parent d inner) parent ref
      (objectHarvest r (ref ++ "." ++ d.name) d below) := by
  unfold Model.addObject objectHarvest
  cases ht : r.objectType? d.typeId with
  | none => exact ofNotes (.bind .refOf (.enter _))
  | some t => exact child rfl fun node => refOf (bind (.enter _) (h node t ht))

end Reaps

/-! ## Sites -/

theorem growStructure_reaps (n parent : Nat) (ref : String) (fc : Constraint)
    (type : AttributeType) :
    Reaps (growStructure r n parent fc type) parent ref (harvest r n (.group ref fc type)) := by
  induction n generalizing parent ref fc type with
  | zero => exact Reaps.stop
  | succ n ih => exact Reaps.forM fun a _ => Reaps.addLeaf fun node t _ => ih node _ _ t

theorem growObject_reaps (n parent : Nat) (ref : String) (type : ObjectType) :
    Reaps (growObject r n parent type) parent ref (harvest r n (.object ref type)) := by
  induction n generalizing parent ref type with
  | zero => exact Reaps.stop
  | succ n ih =>
    refine Reaps.andThen (Reaps.forM fun d _ => Reaps.addObject fun node t _ => ih node _ t)
      (Reaps.forM fun a _ => Reaps.addLeaf fun node t _ => Reaps.refOf ?_)
    split
    · exact Reaps.ofNotes (.pure ())
    · exact growStructure_reaps n node _ _ t

/-! ## Logical nodes -/

/-- What is left of a harvest that is taken back if it stopped. -/
def Harvest.settle (limit : Nat) (h : Harvest) : Harvest :=
  match h.stopped with
  | none => h
  | some e => { entries := h.entries ++ [.finding (.tooDeep e.node limit)] }

/-- Work that stopped leaves only its entries, since `rollback` undoes growth. -/
theorem Reaps.undoIfTooDeep {x : Grow Unit} {h : Harvest} (limit : Nat)
    (hx : Reaps x parent ref h) :
    Reaps (undoIfTooDeep limit x) parent ref (h.settle limit) := by
  intro g p hm hp href hsep
  rw [exec_undoIfTooDeep, hx g p hm hp href hsep]
  unfold Harvest.settle Harvest.outcome
  cases hs : h.stopped with
  | none => simp only [hs]
  | some e =>
    have hback : (g.gather parent h).onModel (·.rollback g.model.size) =
        g.gather parent { entries := h.entries } := by
      have hgrown := IedModel.Extends.plantAll (.refl g.model) parent h.sprouts
      show (⟨(g.model.plantAll parent h.sprouts).rollback g.model.size, _⟩ : Growth) = _
      rw [IedModel.rollback_of_extends hm hgrown]
      rfl
    simp only [hback, Growth.enter_eq_gather _ parent, Growth.gather_gather]
    rfl

/-- The harvest of the data objects of a logical node of reference `ref`. -/
def nodeHarvest (r : Registry) (limit : Nat) (ref : String) (objects : List ObjectDef) : Harvest :=
  .all <| objects.map fun d =>
    (objectHarvest r (ref ++ "." ++ d.name) d fun t =>
      harvest r limit (.object (ref ++ "." ++ d.name) t)).settle limit

theorem growNode_reaps (limit ln : Nat) (ref : String) (type : NodeType) :
    Reaps (growNode r limit ln type) ln ref (nodeHarvest r limit ref type.objects) :=
  Reaps.forM fun _ _ => .undoIfTooDeep limit <| .addObject fun node t _ =>
    growObject_reaps limit node _ t

theorem Harvest.stopped_settle (limit : Nat) (h : Harvest) : (h.settle limit).stopped = none := by
  unfold settle
  cases hs : h.stopped with
  | none => exact hs
  | some e => rfl

theorem stopped_nodeHarvest (limit : Nat) (ref : String) (objects : List ObjectDef) :
    (nodeHarvest r limit ref objects).stopped = none :=
  Harvest.stopped_all.mpr <| List.forall_mem_map.mpr fun _ _ => Harvest.stopped_settle limit _

/-- What is left of the harvest of a data object is its unfolding if it fits, else nothing. -/
theorem sprouts_settle (limit : Nat) (ref : String) (d : ObjectDef) {n : Nat} (hn : limit ≤ n) :
    ((objectHarvest r (ref ++ "." ++ d.name) d fun t =>
        harvest r limit (.object (ref ++ "." ++ d.name) t)).settle limit).sprouts =
      if Fits r limit ref d then (objectSprout? r n ref d).toList else [] := by
  unfold Harvest.settle
  split
  · rename_i hs
    have hbelow := stopped_objectHarvest.mp hs
    rw [sprouts_objectHarvest _ fun t ht => sprouts_harvest (hbelow t ht) hn]
    split
    · rfl
    · rename_i hfit
      cases ht : r.objectType? d.typeId with
      | none => rfl
      | some t => exact absurd (fits_iff.mpr ⟨t, ht, hbelow t ht⟩) hfit
  · rename_i e hs
    have hfit : ¬ Fits r limit ref d := by
      intro hfit
      obtain ⟨t, ht, hnone⟩ := fits_iff.mp hfit
      have hnot : (objectHarvest r (ref ++ "." ++ d.name) d fun t =>
          harvest r limit (.object (ref ++ "." ++ d.name) t)).stopped = none :=
        stopped_objectHarvest.mpr fun t' ht' => by
          rw [ht] at ht'
          cases ht'
          exact hnone
      rw [hnot] at hs
      exact absurd hs (by simp)
    rw [if_neg hfit]

theorem sprouts_nodeHarvest (limit : Nat) (ref : String) (objects : List ObjectDef) {n : Nat}
    (hn : limit ≤ n) : (nodeHarvest r limit ref objects).sprouts =
      (objects.filter (Fits r limit ref ·)).filterMap (objectSprout? r n ref) := by
  unfold nodeHarvest
  rw [Harvest.sprouts_all (Harvest.stopped_all.mp (stopped_nodeHarvest limit ref objects)),
    List.flatMap_map, List.filterMap_filter, List.filterMap_eq_flatMap_toList]
  refine List.flatMap_congr fun d _ => ?_
  rw [sprouts_settle limit ref d hn]
  by_cases hfit : Fits r limit ref d
  · simp only [hfit, if_true, decide_true]
  · simp only [hfit, if_false, decide_false]
    rfl

/-- The data objects that the type of a logical node lists; none if it is not registered. -/
def nodeObjects (r : Registry) (config : Config.LogicalNode) : List ObjectDef :=
  match r.nodeType? config.lnType with
  | none => []
  | some type => type.objects

theorem nodeObjects_of_none {config : Config.LogicalNode} (h : r.nodeType? config.lnType = none) :
    nodeObjects r config = [] := by
  rw [nodeObjects, h]

/-- The entries made for a logical node of reference `ref` whose data objects bring in `h`. -/
def nodeEntries (r : Registry) (ref : String) (config : Config.LogicalNode) (h : Harvest) :
    List Entry :=
  match r.nodeType? config.lnType with
  | none => [.finding (.noNodeType ref config.lnType)]
  | some _ =>
    .mark ⟨.nodeType, config.lnType, ref⟩ :: h.entries ++ [.note (.expanded ref h.sprouts.length)]

/-- **The run of `addLogicalNode`**: it adds the node, plants what its data objects bring in and
makes their entries. -/
theorem exec_addLogicalNode {g : Growth} (hm : g.model.Forest) {device : Nat} {d : Node}
    (hd : g.model.node? device = some d) (limit : Nat) (config : Config.LogicalNode) :
    let ref := d.ref ++ d.kind.separator ++ config.name
    let h := nodeHarvest r limit ref (nodeObjects r config)
    (addLogicalNode r limit device config).exec g = (.ok g.model.size,
      (g.onModel (·.addChild device config.name (.logicalNode config none))).gather g.model.size
        { sprouts := h.sprouts, entries := nodeEntries r ref config h }) := by
  intro ref h
  have hnode := IedModel.node?_addChild_size hd config.name (.logicalNode config none)
  unfold addLogicalNode nodeEntries
  rw [exec_of_ok (exec_addChild device config.name _ g), exec_of_ok (exec_refOf _ _),
    show (g.onModel (·.addChild device config.name (.logicalNode config none))).model.ref
      g.model.size = ref from IedModel.ref_eq hnode]
  generalize hg : g.onModel (·.addChild device config.name (.logicalNode config none)) = g₁
  have hnode₁ : g₁.model.node? g.model.size = some
      (IedModel.childNode device d config.name (.logicalNode config none)) := hg ▸ hnode
  have hm₁ : g₁.model.Forest := hg ▸ hm.addChild device config.name _
  cases ht : r.nodeType? config.lnType with
  | none =>
    have hnone : h.sprouts = [] := by simp [h, nodeObjects, ht, nodeHarvest, Harvest.all]
    simp only [hnone]
    show (_, g₁.enter _) = _
    rw [g₁.enter_eq_gather g.model.size]
  | some type =>
    have hobjects : nodeHarvest r limit ref type.objects = h := by simp only [h, nodeObjects, ht]
    have hgrow := growNode_reaps (r := r) limit g.model.size ref type
      (g₁.enter (.mark ⟨.nodeType, config.lnType, ref⟩)) _ hm₁ hnode₁ rfl rfl
    rw [Harvest.outcome_of_none (stopped_nodeHarvest limit ref type.objects), hobjects] at hgrow
    have hcount : ((g₁.model.plantAll g.model.size h.sprouts).children g.model.size).length =
        h.sprouts.length := by
      rw [IedModel.children_eq (IedModel.plantAll_gains hnode₁ h.sprouts).adopted,
        List.length_append, List.length_map, Sprout.length_grownAll]
      exact Nat.zero_add _
    simp only
    rw [exec_of_ok (exec_use _ _ _ _), exec_of_ok hgrow]
    show (_, Growth.enter (.note (.expanded ref
      ((g₁.model.plantAll g.model.size h.sprouts).children g.model.size).length)) _) = _
    rw [hcount, Growth.enter_eq_gather _ g.model.size, Growth.enter_eq_gather _ g.model.size,
      Growth.gather_gather, Growth.gather_gather]
    simp only [List.nil_append, List.append_nil, List.cons_append]

/-- A logical node with the data objects of its type that fit, each unfolded for `n` levels. -/
def nodeSprout (r : Registry) (limit n : Nat) (ref : String) (config : Config.LogicalNode) :
    Sprout :=
  .mk config.name (.logicalNode config none) <|
    ((nodeObjects r config).filter (Fits r limit ref ·)).filterMap (objectSprout? r n ref)

/-- `addLogicalNode` succeeds, plants the logical node and makes its entries. -/
theorem addLogicalNode_enters {g : Growth} (hm : g.model.Forest) {device : Nat} {d : Node}
    (hd : g.model.node? device = some d) {limit n : Nat} (hn : limit ≤ n)
    (config : Config.LogicalNode) :
    let ref := d.ref ++ d.kind.separator ++ config.name
    ∃ g', (addLogicalNode r limit device config).exec g = (.ok g.model.size, g') ∧
      g'.model = g.model.plant device (nodeSprout r limit n ref config) ∧
      g'.journal = g.journal ++
        nodeEntries r ref config (nodeHarvest r limit ref (nodeObjects r config)) := by
  refine ⟨_, exec_addLogicalNode hm hd limit config, ?_, rfl⟩
  rw [nodeSprout, ← sprouts_nodeHarvest limit _ _ hn, IedModel.plant]
  rfl

/-- Types in a circle: the type of `Loop` refers to itself, that of `Mod` to nothing, and that of
`Gone` is not registered. -/
def circular : Registry where
  nodeTypes := ⟨[("L", ⟨"L", "LLN0",
    [⟨"Loop", "C", 0, false⟩, ⟨"Mod", "M", 0, false⟩, ⟨"Gone", "?", 0, false⟩]⟩)]⟩
  objectTypes := ⟨[("C", ⟨"C", "WYE", [⟨"sub", "C", 0, false⟩], []⟩),
    ("M", ⟨"M", "ENS", [], [⟨"q", .st, .quality, none, 0, {}, none, []⟩]⟩)]⟩

/-- A logical node of the type in `circular`. -/
def circularNode : Config.LogicalNode :=
  ⟨"LLN0", "L", "", none, none, [], [], [], [], [], [], [], none⟩

end Substation.Model
