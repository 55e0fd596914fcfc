import Mathlib.Data.List.Basic
import Mathlib.Tactic.Common
import Substation.Proofs.Lawful
import Substation.Proofs.Levels

/-!
# Marks and nodes

Every node but a logical device may refer to a template (`NodeKind.template?`), and if it does and
the template is registered, the expansion marks it. The marks that an expansion makes are those of
the nodes it grows, each before those below it (`marked_harvest`); this holds wherever the expansion
stops. The marks of a whole table are those of its nodes in order, to which a logical device or a
namespace adds nothing and a sprout its own (`marks_plant`).
-/

namespace Substation.Model

open Substation.Journal
open Substation.Template

/-! ## The template of a node -/

/-- The template that a node of a kind refers to, registered or not. An id that is not given counts
as the empty one. -/
def NodeKind.template? : NodeKind → Option (Kind × String)
  | .device .. => none
  | .logicalNode config _ => some (.nodeType, config.lnType)
  | .object _ type _ => some (.objectType, type.id)
  | .leaf _ a =>
    match a.type with
    | .constructed => some (.attributeType, a.typeId.getD "")
    | .enumerated => some (.enumType, a.typeId.getD "")
    | _ => none

/-- The mark of a node that refers to a registered template. -/
def Node.mark? (r : Registry) (n : Node) : Option Mark :=
  (n.kind.template?.filter fun (kind, id) => r.contains kind id).map fun (kind, id) =>
    ⟨kind, id, n.ref⟩

variable {r : Registry}

@[simp] theorem NodeKind.template?_bare (kind : NodeKind) :
    kind.bare.template? = kind.template? := by
  cases kind <;> rfl

@[simp] theorem Node.mark?_face (n : Node) : n.face.mark? r = n.mark? r := by
  rw [mark?, mark?, face, NodeKind.template?_bare]

theorem Node.mark?_of_some {n : Node} {kind : Kind} {id : String}
    (h : n.kind.template? = some (kind, id)) :
    n.mark? r = if r.contains kind id then some ⟨kind, id, n.ref⟩ else none := by
  rw [mark?, h, Option.filter_some]
  simp only
  split <;> rfl

theorem Node.mark?_of_none {n : Node} (h : n.kind.template? = none) : n.mark? r = none := by
  rw [mark?, h]
  rfl

/-- Every data object type is registered under its own id. -/
def Keyed (r : Registry) : Prop := ∀ id t, r.objectType? id = some t → t.id = id

/-! ## Branches side by side -/

namespace Branch

theorem preorderAll_append (bs cs : List Branch) :
    preorderAll (bs ++ cs) = preorderAll bs ++ preorderAll cs := by
  induction bs with
  | nil => rfl
  | cons b bs ih => rw [List.cons_append, preorderAll, preorderAll, ih, List.append_assoc]

/-- The marks of branches, in order. -/
def marks (r : Registry) (bs : List Branch) : List Mark :=
  (preorderAll bs).filterMap fun b => b.node.mark? r

theorem marks_append (bs cs : List Branch) : marks r (bs ++ cs) = marks r bs ++ marks r cs := by
  rw [marks, preorderAll_append, List.filterMap_append, marks, marks]

end Branch

theorem Sprout.grownAll_append (parent : Nat) (stem : String) (id : Nat) (ss ts : List Sprout) :
    grownAll parent stem id (ss ++ ts) =
      grownAll parent stem id ss ++ grownAll parent stem (id + sizeAll ss) ts := by
  induction ss generalizing id with
  | nil => rfl
  | cons s ss ih =>
    rw [List.cons_append, grownAll, grownAll, ih, sizeAll, List.cons_append, Nat.add_assoc]

/-! ## What an expansion marks -/

/-- The harvest makes the marks of the nodes it brings in below a node of reference `ref`, wherever
they get their places. -/
def Harvest.Marked (r : Registry) (ref : String) (h : Harvest) : Prop :=
  ∀ parent id, h.entries.filterMap Entry.mark? =
    Branch.marks r (Sprout.grownAll parent (ref ++ ".") id h.sprouts)

namespace Harvest.Marked

variable {ref : String} {h h' : Harvest}

theorem stop (e : TooDeep) : Marked r ref { stopped := some e } := fun _ _ => rfl

/-- Nothing grows, and nothing is marked. -/
theorem nothing {es : List Entry} (hes : es.filterMap Entry.mark? = []) :
    Marked r ref { entries := es } := fun _ _ => hes

theorem andThen (hh : h.Marked r ref) (hh' : h'.Marked r ref) : (h.andThen h').Marked r ref := by
  intro parent id
  unfold Harvest.andThen
  split
  · exact hh parent id
  · rw [List.filterMap_append, Sprout.grownAll_append, Branch.marks_append, hh parent id,
      hh' parent _]

theorem all {hs : List Harvest} (hhs : ∀ h ∈ hs, h.Marked r ref) : (all hs).Marked r ref := by
  induction hs with
  | nil => exact nothing rfl
  | cons h hs ih =>
    obtain ⟨hh, hrest⟩ := List.forall_mem_cons.mp hhs
    exact andThen hh (ih hrest)

/-- A node with what is below it, if its own mark is made first. -/
theorem under {name : String} {kind : NodeKind} {first : List Entry} (hsep : kind.separator = ".")
    (hfirst : ∀ parent children, first.filterMap Entry.mark? =
      (Node.mark? r ⟨name, ref ++ "." ++ name, parent, children, kind⟩).toList)
    (hh : h.Marked r (ref ++ "." ++ name)) : (Harvest.under name kind first h).Marked r ref := by
  intro parent id
  have hbelow := hh id (id + 1)
  unfold Harvest.under
  rw [Sprout.grownAll, Sprout.grownAll, Sprout.grown, Branch.marks, Branch.preorderAll,
    Branch.preorderAll, Branch.preorder, List.append_nil, hsep, List.filterMap_append, hbelow,
    hfirst (some parent) ((Sprout.grownAll id _ (id + 1) h.sprouts).map Branch.id), Branch.marks,
    List.filterMap_cons, Branch.node]
  split <;> rename_i hmark <;> rw [hmark] <;> rfl

end Harvest.Marked

theorem marks_leafEntries (ref : String) (a : AttributeDef) (fc : Constraint) (name : String)
    (parent : Option Nat) (children : List Nat) :
    (leafEntries r ref a).filterMap Entry.mark? =
      (Node.mark? r ⟨name, ref, parent, children, .leaf fc a⟩).toList := by
  let node : Node := ⟨name, ref, parent, children, .leaf fc a⟩
  unfold leafEntries
  simp only
  split
  · rename_i htype
    have htemplate : node.kind.template? = some (.attributeType, a.typeId.getD "") := by
      simp only [node, NodeKind.template?, htype]
    rw [Node.mark?_of_some htemplate, Registry.contains, Registry.find?, Option.isSome_map]
    cases r.attributeType? (a.typeId.getD "") <;> rfl
  · rename_i htype
    have htemplate : node.kind.template? = some (.enumType, a.typeId.getD "") := by
      simp only [node, NodeKind.template?, htype]
    rw [Node.mark?_of_some htemplate]
    cases r.contains .enumType (a.typeId.getD "") <;> rfl
  · rename_i hconstructed henumerated
    have htemplate : node.kind.template? = none := by
      simp only [node, NodeKind.template?]
    rw [Node.mark?_of_none htemplate]
    rfl

theorem marked_leafHarvest {ref : String} {fc : Constraint} {a : AttributeDef}
    {inner : AttributeType → Harvest}
    (h : ∀ t, structureType? r a = some t → (inner t).Marked r (ref ++ "." ++ a.name)) :
    (leafHarvest r (ref ++ "." ++ a.name) fc a inner).Marked r ref := by
  refine .under rfl (marks_leafEntries _ a fc a.name) ?_
  cases ht : structureType? r a with
  | none => exact .nothing rfl
  | some t => exact h t ht

theorem marked_objectHarvest (hr : Keyed r) {ref : String} {d : ObjectDef}
    {inner : ObjectType → Harvest}
    (h : ∀ t, r.objectType? d.typeId = some t → (inner t).Marked r (ref ++ "." ++ d.name)) :
    (objectHarvest r (ref ++ "." ++ d.name) d inner).Marked r ref := by
  unfold objectHarvest
  cases ht : r.objectType? d.typeId with
  | none => exact .nothing rfl
  | some t =>
    refine .under rfl (fun parent children => ?_) (h t ht)
    rw [Node.mark?_of_some rfl, hr _ t ht, Registry.contains, Registry.find?, ht]
    rfl

/-- **An expansion marks what the nodes that it grows refer to.** -/
theorem marked_harvest (hr : Keyed r) (n : Nat) (s : Site) : (harvest r n s).Marked r s.ref := by
  induction n generalizing s with
  | zero => exact .stop _
  | succ n ih =>
    cases s with
    | object ref type =>
      rw [harvest]
      refine .andThen (.all ?_) (.all ?_)
      · exact List.forall_mem_map.mpr fun d _ => marked_objectHarvest hr fun t _ => ih _
      · refine List.forall_mem_map.mpr fun a _ => marked_leafHarvest fun t _ => ?_
        split
        · exact .nothing rfl
        · exact ih (.group _ _ t)
    | group ref fc type =>
      rw [harvest]
      exact .all <| List.forall_mem_map.mpr fun a _ =>
        marked_leafHarvest fun t _ => ih (.group _ _ t)

/-! ## What a table refers to -/

theorem filterMap_range_getElem? {α : Type} (l : List α) :
    (List.range l.length).filterMap (fun i => l[i]?) = l := by
  induction l with
  | nil => rfl
  | cons a l ih =>
    rw [List.length_cons, List.range_succ_eq_map, List.filterMap_cons, List.filterMap_map]
    exact congrArg (a :: ·) ih

namespace IedModel

/-- The marks of the nodes of a table, in order. -/
def marks (r : Registry) (m : IedModel) : List Mark := m.nodes.toList.filterMap (Node.mark? r)

variable {m m' : IedModel}

/-- They can be read off the faces. -/
theorem marks_eq (r : Registry) (m : IedModel) : m.marks r =
    (List.range m.size).filterMap fun id => (m.face? id).bind (Node.mark? r) := by
  have hnodes : (List.range m.size).filterMap m.node? = m.nodes.toList := by
    refine (List.filterMap_congr fun id _ => ?_).trans (filterMap_range_getElem? m.nodes.toList)
    exact Array.getElem?_toList.symm
  rw [marks, ← hnodes, List.filterMap_filterMap]
  refine List.filterMap_congr fun id _ => ?_
  rw [face?]
  cases m.node? id with
  | none => rfl
  | some n => exact (n.mark?_face).symm

theorem marks_congr (hsize : m'.size = m.size) (hface : ∀ id, m'.face? id = m.face? id) :
    m'.marks r = m.marks r := by
  rw [marks_eq, marks_eq, hsize]
  exact List.filterMap_congr fun id _ => by rw [hface]

theorem marks_addDevice (m : IedModel) (name inst : String) :
    (m.addDevice name inst).marks r = m.marks r := by
  have hsize : (m.addDevice name inst).size = m.size + 1 := Array.size_push _
  rw [marks_eq, marks_eq, hsize, List.range_succ, List.filterMap_append]
  have hnew : [m.size].filterMap (fun id =>
      ((m.addDevice name inst).face? id).bind (Node.mark? r)) = [] := by
    rw [List.filterMap_cons, face?_addDevice, if_pos rfl]
    rfl
  rw [hnew, List.append_nil]
  refine List.filterMap_congr fun id hid => ?_
  rw [face?_addDevice, if_neg (Nat.ne_of_lt (List.mem_range.mp hid))]

/-- A sprout adds the marks of its branch. -/
theorem marks_plant {parent : Nat} {p : Node} (hp : m.node? parent = some p) (s : Sprout) :
    (m.plant parent s).marks r = m.marks r ++
      Branch.marks r [s.grown parent (p.ref ++ p.kind.separator) m.size] := by
  let b := s.grown parent (p.ref ++ p.kind.separator) m.size
  have hgains := plant_gains hp s
  have hstands : b.Stands (m.plant parent s) := hgains.stands b (List.mem_singleton.mpr rfl)
  have hrange : List.range (m.plant parent s).size =
      List.range m.size ++ b.preorder.map Branch.id := by
    rw [Sprout.ids_grown, hgains.size, List.range_add, List.range'_eq_map_range]
  rw [marks_eq, marks_eq, hrange, List.filterMap_append, List.filterMap_map]
  congr 1
  · refine List.filterMap_congr fun id hid => ?_
    rw [face?_plant hp s (List.mem_range.mp hid)]
  · rw [Branch.marks, Branch.preorderAll, Branch.preorderAll, List.append_nil]
    refine List.filterMap_congr fun c hc => ?_
    rw [Function.comp_apply, face?_of_node? (hstands.of_mem_preorder c hc).1.node?,
      Option.bind_some, Node.mark?_face]

end IedModel

end Substation.Model
