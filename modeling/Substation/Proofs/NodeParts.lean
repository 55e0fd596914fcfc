import Mathlib.Data.List.Basic
import Mathlib.Tactic.Common
import Substation.Proofs.NodeBranches

/-!
# What stands directly below a node

The parts of a site are the nodes that its type defines, by name and kind (`Site.parts`), and each
of them may be a site again (`siteOf?`): a data object for its type, a structured attribute for its
own. One more level of an unfolding is the parts, each with the unfolding of its site below it
(`unfold_succ`), so what does not stop has, at every node, the parts of its site and nothing else
(`full_grownAll`). Hence every logical node of a resolved model is full (`Stage.full`), and since
all data lies in logical nodes (`Lawful.exists_logicalNode`), every data object and every attribute
has the parts of its site (`Stage.complete`).
-/

namespace Substation.Model

open Substation.Config
open Substation.Template

variable (r : Registry)

/-! ## Parts of sites -/

/-- Names and kinds of the data objects of some definitions, those whose types are registered. -/
def definedParts (ds : List ObjectDef) : List (String × NodeKind) :=
  ds.filterMap fun d => (r.objectType? d.typeId).map fun t =>
    (d.name, .object d.count t d.transient)

/-- Names and kinds of the nodes that a type defines. -/
def Site.parts : Site → List (String × NodeKind)
  | .object _ type => definedParts r type.objects ++ type.leaves.map fun a => (a.name, .leaf a.fc a)
  | .group _ fc type => type.leaves.map fun a => (a.name, .leaf (innerConstraint fc a) a)

/-- Whether the type is that of a data object. -/
def Site.isObject : Site → Bool
  | .object .. => true
  | .group .. => false

/-- The site at which a node is expanded that has the reference `ref` and lies below a data object
or not (`inObject`). -/
def siteOf? (inObject : Bool) (ref : String) : NodeKind → Option Site
  | .object _ type _ => some (.object ref type)
  | .leaf fc a =>
    if inObject && endsTwice ref a.name then none
    else (structureType? r a).map (Site.group ref fc)
  | _ => none

/-- What grows for a part below a node whose children have references that begin with `stem`, when
`n` levels of its own site are expanded. -/
def partSprout (n : Nat) (inObject : Bool) (stem : String) (part : String × NodeKind) : Sprout :=
  .mk part.1 part.2 <|
    match siteOf? r inObject (stem ++ part.1) part.2 with
    | some t => unfold r n t
    | none => []

variable {r}

/-- **One more level** of an unfolding: the parts, each with the unfolding of its own site. -/
theorem unfold_succ (n : Nat) (s : Site) : unfold r (n + 1) s =
    (s.parts r).map (partSprout r n s.isObject (s.ref ++ ".")) := by
  cases s with
  | object ref type =>
    rw [unfold, Site.parts, definedParts, List.map_append, List.map_filterMap, List.map_map]
    congr 1
    · refine List.filterMap_congr fun d _ => ?_
      cases r.objectType? d.typeId <;> rfl
    · refine List.map_congr_left fun a _ => ?_
      simp only [Function.comp_apply, partSprout, siteOf?, Site.isObject, Site.ref,
        Bool.true_and]
      cases endsTwice (ref ++ "." ++ a.name) a.name with
      | true => rfl
      | false => cases structureType? r a <;> rfl
  | group ref fc type =>
    rw [unfold, Site.parts, List.map_map]
    refine List.map_congr_left fun a _ => ?_
    simp only [Function.comp_apply, partSprout, siteOf?, Site.isObject, Site.ref,
      Bool.false_and, Bool.false_eq_true, if_false]
    cases structureType? r a <;> rfl

/-- The site of a part follows. -/
theorem follows_of_siteOf? {s t : Site} {part : String × NodeKind} (hpart : part ∈ s.parts r)
    (ht : siteOf? r s.isObject (s.ref ++ "." ++ part.1) part.2 = some t) : Follows r s t := by
  cases s with
  | object ref type =>
    rcases List.mem_append.mp hpart with hpart | hpart
    · obtain ⟨d, hd, hpart⟩ := List.mem_filterMap.mp hpart
      obtain ⟨u, hu, rfl⟩ := Option.map_eq_some_iff.mp hpart
      cases ht
      exact .object hd hu
    · obtain ⟨a, ha, rfl⟩ := List.mem_map.mp hpart
      simp only [siteOf?, Site.isObject, Site.ref, Bool.true_and] at ht
      obtain ⟨hn, ht⟩ := Option.ite_none_left_eq_some.mp ht
      obtain ⟨u, hu, rfl⟩ := Option.map_eq_some_iff.mp ht
      exact .leaf ha hu (Bool.eq_false_iff.mpr hn)
  | group ref fc type =>
    obtain ⟨a, ha, rfl⟩ := List.mem_map.mp hpart
    obtain ⟨u, hu, rfl⟩ := Option.map_eq_some_iff.mp ht
    exact .nested ha hu

/-! ## Parts of branches -/

/-- The name and the kind of a node. -/
def Node.part (n : Node) : String × NodeKind := (n.name, n.kind)

/-- Names and kinds of the nodes directly below a branch. -/
def Branch.parts (b : Branch) : List (String × NodeKind) := b.branches.map fun c => c.node.part

/-- A branch has at its top the parts of its site and nothing else; `inObject` tells whether it lies
below a data object. -/
def Branch.Complete (r : Registry) (inObject : Bool) (b : Branch) : Prop :=
  b.parts = match siteOf? r inObject b.ref b.node.kind with
    | some s => s.parts r
    | none => []

/-- Everywhere below the branch this is so. -/
def Branch.Full (r : Registry) (b : Branch) : Prop :=
  ∀ c ∈ b.preorder, ∀ d ∈ c.branches, d.Complete r c.node.kind.isObject

theorem Branch.full_iff {b : Branch} : b.Full r ↔
    ∀ c ∈ b.branches, c.Complete r b.node.kind.isObject ∧ c.Full r := by
  constructor
  · exact fun h c hc => ⟨h b b.self_mem_preorder c hc,
      fun d hd => h d (mem_preorder_of_mem_branches hc hd)⟩
  · intro h c hc
    rcases mem_preorder.mp hc with rfl | hc
    · exact fun d hd => (h d hd).1
    · obtain ⟨d, hd, hc⟩ := mem_descendants.mp hc
      exact (h d hd).2 c hc

theorem Sprout.parts_grown (parent : Nat) (stem : String) (id : Nat) (name : String)
    (kind : NodeKind) (ss : List Sprout) : ((mk name kind ss).grown parent stem id).parts =
      ss.map fun | mk name kind _ => (name, kind) := by
  rw [grown, Branch.parts]
  show (grownAll id _ _ ss).map _ = _
  generalize id + 1 = next
  induction ss generalizing next with
  | nil => rfl
  | cons s ss ih =>
    obtain ⟨name, kind, parts⟩ := s
    rw [grownAll, List.map_cons, ih, List.map_cons, grown]
    rfl

theorem Sprout.exists_of_mem_grownAll {parent : Nat} {stem : String} {id : Nat} {ss : List Sprout}
    {c : Branch} (hc : c ∈ grownAll parent stem id ss) :
    ∃ s ∈ ss, ∃ next, c = s.grown parent stem next := by
  induction ss generalizing id with
  | nil => exact absurd hc List.not_mem_nil
  | cons s ss ih =>
    rw [grownAll] at hc
    rcases List.mem_cons.mp hc with rfl | hc
    · exact ⟨s, List.mem_cons_self, id, rfl⟩
    · obtain ⟨t, ht, hnext⟩ := ih hc
      exact ⟨t, List.mem_cons_of_mem s ht, hnext⟩

/-- A site belongs to the node at which it is expanded. -/
theorem of_siteOf? {inObject : Bool} {ref : String} {kind : NodeKind} {s : Site}
    (h : siteOf? r inObject ref kind = some s) :
    s.ref = ref ∧ kind.separator = "." ∧ s.isObject = kind.isObject := by
  cases kind with
  | object count type transient =>
    cases h
    exact ⟨rfl, rfl, rfl⟩
  | leaf fc a =>
    obtain ⟨-, h⟩ := Option.ite_none_left_eq_some.mp h
    obtain ⟨t, -, rfl⟩ := Option.map_eq_some_iff.mp h
    exact ⟨rfl, rfl, rfl⟩
  | _ => exact nomatch h

/-- **What does not stop is full**: if the expansion of no part stops, every node that grows has the
parts of its own site. -/
theorem full_grownAll {n : Nat} {inObject : Bool} {stem : String}
    {parts : List (String × NodeKind)} (h : ∀ part ∈ parts, ∀ t,
      siteOf? r inObject (stem ++ part.1) part.2 = some t → (harvest r n t).stopped = none)
    (parent id : Nat) :
    ∀ c ∈ Sprout.grownAll parent stem id (parts.map (partSprout r n inObject stem)),
      c.Complete r inObject ∧ c.Full r := by
  induction n using Nat.strongRecOn generalizing inObject stem parts parent id with
  | ind n ih =>
    intro c hc
    obtain ⟨sprout, hsprout, next, rfl⟩ := Sprout.exists_of_mem_grownAll hc
    obtain ⟨part, hpart, rfl⟩ := List.mem_map.mp hsprout
    rw [Branch.Complete, Branch.full_iff, partSprout, Sprout.parts_grown, Sprout.ref_grown,
      Sprout.grown]
    show _ = (match siteOf? r inObject (stem ++ part.1) part.2 with
        | some t => t.parts r
        | none => []) ∧
      ∀ c ∈ Sprout.grownAll next (stem ++ part.1 ++ part.2.separator) (next + 1) _,
        c.Complete r part.2.isObject ∧ c.Full r
    cases ht : siteOf? r inObject (stem ++ part.1) part.2 with
    | none => exact ⟨rfl, fun c hc => absurd hc List.not_mem_nil⟩
    | some t =>
      cases n with
      | zero => exact absurd (h part hpart t ht) (by simp [harvest])
      | succ n =>
        have hbelow := stopped_harvest_succ.mp (h part hpart t ht)
        obtain ⟨href, hseparator, hobject⟩ := of_siteOf? ht
        simp only
        rw [← href, hseparator, ← hobject, unfold_succ, List.map_map]
        exact ⟨List.map_id' _, ih n (Nat.lt_succ_self n)
          (fun p hp u hu => hbelow u (follows_of_siteOf? hp hu)) _ _⟩

/-! ## Logical nodes -/

theorem NodeKind.isObject_eq_false {kind : NodeKind} {config : Config.LogicalNode}
    (h : kind.config? = some config) : kind.isObject = false := by
  cases kind with
  | object => exact nomatch h
  | _ => rfl

theorem NodeKind.isLogicalNode_eq_false {kind : NodeKind} (h : kind.isObject) :
    kind.isLogicalNode = false := by
  cases kind with
  | logicalNode => exact Bool.noConfusion h
  | _ => rfl

/-- The data objects of a logical node, as parts. -/
theorem nodeSprout_eq (limit n : Nat) (ref : String) (config : Config.LogicalNode) :
    nodeSprout r limit n ref config = .mk config.name (.logicalNode config none)
      ((definedParts r ((nodeObjects r config).filter (Fits r limit ref ·))).map
        (partSprout r n false (ref ++ "."))) := by
  rw [nodeSprout, definedParts, List.map_filterMap]
  refine congrArg (Sprout.mk _ _) (List.filterMap_congr fun d _ => ?_)
  rw [objectSprout?, Option.map_map]
  rfl

/-- **A logical node is full below its data objects**, and these are the ones that fit. -/
theorem full_nodeSprout (limit : Nat) (config : Config.LogicalNode) (parent : Nat) (stem : String)
    (id : Nat) :
    let b := (nodeSprout r limit limit (stem ++ config.name) config).grown parent stem id
    b.parts = definedParts r ((nodeObjects r config).filter (Fits r limit b.ref ·)) ∧ b.Full r := by
  intro b
  have href : b.ref = stem ++ config.name := Sprout.ref_grown ..
  let fitting := (nodeObjects r config).filter (Fits r limit (stem ++ config.name) ·)
  have hstops : ∀ part ∈ definedParts r fitting, ∀ t,
      siteOf? r false (stem ++ config.name ++ "." ++ part.1) part.2 = some t →
      (harvest r limit t).stopped = none := by
    intro part hpart t ht
    obtain ⟨d, hd, hpart⟩ := List.mem_filterMap.mp hpart
    obtain ⟨u, hu, rfl⟩ := Option.map_eq_some_iff.mp hpart
    cases ht
    obtain ⟨u', hu', hnone⟩ := fits_iff.mp (of_decide_eq_true (List.mem_filter.mp hd).2)
    rw [hu] at hu'
    cases hu'
    exact hnone
  have hb : b = (Sprout.mk config.name (.logicalNode config none) ((definedParts r fitting).map
      (partSprout r limit false (stem ++ config.name ++ ".")))).grown parent stem id :=
    congrArg (Sprout.grown parent stem id) (nodeSprout_eq limit limit _ config)
  constructor
  · rw [href, hb, Sprout.parts_grown, List.map_map]
    exact List.map_id' _
  · rw [Branch.full_iff, hb, Sprout.grown]
    exact full_grownAll hstops _ _

/-- **Every logical node of a resolution is full**: it has the data objects of its type that fit,
and everything below them has the parts of its own site. -/
theorem Stage.full {limit : Nat} {names : List String} {m : IedModel} (h : Stage r limit names m)
    {b : Branch} (hb : b.Stands m) {config : Config.LogicalNode}
    (hk : b.node.kind.config? = some config) :
    b.parts = definedParts r ((nodeObjects r config).filter (Fits r limit b.ref ·)) ∧ b.Full r := by
  refine h.forall_logicalNode (P := fun b => ∀ config, b.node.kind.config? = some config →
    b.parts = definedParts r ((nodeObjects r config).filter (Fits r limit b.ref ·)) ∧ b.Full r)
    ?_ ?_ b hb ?_ config hk
  · intro config parent stem id config' hconfig
    have hsame : config = config' := by
      rw [nodeSprout, Sprout.grown] at hconfig
      exact Option.some.inj hconfig
    rw [← hsame]
    exact full_nodeSprout limit config parent stem id
  · intro b b' halike hfull config hconfig
    have hconfig₀ := halike.config ▸ hconfig
    obtain ⟨hparts, hbelow⟩ := hfull config hconfig₀
    refine ⟨by rw [Branch.parts, halike.branches, halike.ref]; exact hparts, ?_⟩
    rw [Branch.full_iff, NodeKind.isObject_eq_false hconfig₀] at hbelow
    rw [Branch.full_iff, NodeKind.isObject_eq_false hconfig, halike.branches]
    exact hbelow
  · rw [NodeKind.isLogicalNode_eq, hk]
    rfl

/-- Only logical nodes stand directly below logical devices. -/
theorem NodeKind.Admits.isDevice_eq_false_of_below {up kind : NodeKind} (h : up.Admits kind)
    (hk : kind.isLogicalNode = false) : up.isDevice = false := by
  cases up with
  | device =>
    cases kind with
    | logicalNode => exact Bool.noConfusion hk
    | _ => exact h.elim
  | _ => rfl

/-- Whatever is no logical device lies in a logical node. -/
theorem IedModel.Lawful.exists_logicalNode {m : IedModel} (hm : m.Lawful) {c : Branch}
    (hc : c.Stands m) (hk : c.node.kind.isDevice = false) :
    ∃ b : Branch, b.Stands m ∧ b.node.kind.isLogicalNode ∧ c ∈ b.preorder := by
  -- up the parents, whose numbers are smaller
  induction hid : c.id using Nat.strongRecOn generalizing c with
  | ind id ih =>
    subst hid
    cases hnode : c.node.kind.isLogicalNode with
    | true => exact ⟨c, hc, hnode, c.self_mem_preorder⟩
    | false =>
      obtain ⟨up, hup, hmem⟩ := hc.exists_above hm hk
      have hdevice := (hup.law_of_mem hm hmem).1.isDevice_eq_false_of_below hnode
      obtain ⟨b, hb, hbk, hin⟩ := ih up.id (hup.id_lt hmem) hup hdevice rfl
      exact ⟨b, hb, hbk, Branch.mem_preorder_of_mem hin hmem⟩

/-- **Every data object and every attribute of a resolution is complete.** -/
theorem Stage.complete {limit : Nat} {names : List String} {m : IedModel}
    (h : Stage r limit names m) {up c : Branch} (hup : up.Stands m)
    (hk : up.node.kind.isDevice = false) (hc : c ∈ up.branches) :
    c.Complete r up.node.kind.isObject := by
  obtain ⟨b, hb, hnode, hin⟩ := h.lawful.exists_logicalNode hup hk
  obtain ⟨config, space, hkind⟩ := NodeKind.exists_of_isLogicalNode hnode
  have hfull := (h.full hb (show b.node.kind.config? = some config by rw [hkind]; rfl)).2
  exact hfull up hin c hc

theorem name_of_mem_parts {s : Site} {name : String} {fc : Constraint} {a : AttributeDef}
    (h : (name, NodeKind.leaf fc a) ∈ s.parts r) : name = a.name := by
  cases s with
  | object ref type =>
    rcases List.mem_append.mp h with h | h
    · obtain ⟨d, -, h⟩ := List.mem_filterMap.mp h
      obtain ⟨t, -, h⟩ := Option.map_eq_some_iff.mp h
      exact nomatch (Prod.mk.inj h).2
    · obtain ⟨b, -, h⟩ := List.mem_map.mp h
      cases h
      rfl
  | group ref fc' type =>
    obtain ⟨b, -, h⟩ := List.mem_map.mp h
    cases h
    rfl

/-- An attribute has the name of its definition. -/
theorem Stage.name_of_leaf {limit : Nat} {names : List String} {m : IedModel}
    (h : Stage r limit names m) {b : Branch} (hb : b.Stands m) {fc : Constraint}
    {a : AttributeDef} (hk : b.node.kind = .leaf fc a) : b.name = a.name := by
  have hm := h.lawful
  obtain ⟨up, hup, hmem⟩ := hb.exists_above hm (by rw [hk]; rfl)
  have hadmits := (hup.law_of_mem hm hmem).1
  rw [hk] at hadmits
  have hdevice : up.node.kind.isDevice = false := hadmits.isDevice_eq_false_of_below rfl
  have hpart : (b.name, NodeKind.leaf fc a) ∈ up.parts := by
    rw [← hk]
    exact List.mem_map_of_mem hmem
  obtain ⟨top, htop, hmem'⟩ := hup.exists_above hm hdevice
  have hdevice' : top.node.kind.isDevice = false :=
    (htop.law_of_mem hm hmem').1.isDevice_eq_false_of_below (by
      cases hkind : up.node.kind with
      | logicalNode => rw [hkind] at hadmits; exact hadmits.elim
      | _ => rfl)
  rw [h.complete htop hdevice' hmem'] at hpart
  split at hpart
  · exact name_of_mem_parts hpart
  · exact absurd hpart List.not_mem_nil

end Substation.Model
