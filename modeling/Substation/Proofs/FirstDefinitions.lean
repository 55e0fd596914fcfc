import Mathlib.Data.List.Basic
import Mathlib.Data.List.Forall2
import Mathlib.Tactic.Common
import Substation.Document
import Substation.Proofs.Repetitions

/-!
# The first sound template of an id

A template as it is written (`Written`) converts to a definition iff none of its entries is faulty,
and otherwise is refused for the first fault. A registry keeps what was admitted first, so a
document registers for every id the first template that converts, whatever stands before it and
behind it, and its log has one error for each template that does not.

Results:
* `Registry.find?_insert`, `Registry.Ascending.insert`: what an insertion (`insert_first`) does to
  every look-up, and that the ids of a kind stay in ascending order;
* `Written.fault?_convert`: a template that does not convert is refused for its first fault;
* `find?_registerAll`: what is admitted first stays;
* `find?_ofScl`, `issuesOf_ofScl`: the registry and the issues of a document (`from_model`), read
  off the templates as written.
-/

namespace Substation

open Substation.Config
open Substation.Journal
open Substation.Template

namespace Template

/-! ## Look-ups after an insertion -/

/-- An insertion adds a definition for its own kind and id, if there was none. -/
theorem Registry.find?_insert (r : Registry) (d : Definition) (id : String) (kind : Kind) :
    (r.insert d).find? id kind =
      (r.find? id kind).or (if d.kind = kind ∧ d.id = id then some d else none) := by
  -- a look-up in the catalogue of the definition's own kind, with the values wrapped up
  have hown : ∀ {α : Type} (c : Catalogue α) (key : String) (t : α) (build : α → Definition)
      (own : Kind), ((c.insert key t).find? id).map build =
        ((c.find? id).map build).or (if own = own ∧ key = id then some (build t) else none) := by
    intro α c key t build own
    rw [Catalogue.find?_insert]
    by_cases h : id = key
    · cases c.find? id <;> simp [h]
    · cases c.find? id <;> simp [h, Ne.symm h]
  cases d <;> cases kind
  case nodeType.nodeType t => exact hown _ t.id t .nodeType .nodeType
  case objectType.objectType t => exact hown _ t.id t .objectType .objectType
  case attributeType.attributeType t => exact hown _ t.id t .attributeType .attributeType
  case enumType.enumType t => exact hown _ t.id t .enumType .enumType
  -- other kinds are looked up elsewhere
  all_goals exact Option.or_none.symm

/-! ## The order of ids -/

theorem Catalogue.mem_place {α : Type} {id : String} {value : α} {es : List (String × α)}
    {e : String × α} : e ∈ place id value es ↔ e = (id, value) ∨ e ∈ es := by
  induction es with
  | nil => simp [place]
  | cons x xs ih =>
    rw [place]
    split
    · simp
    · simp only [List.mem_cons, ih]
      tauto

/-- An entry that is placed among others keeps them in ascending order. -/
theorem Catalogue.pairwise_place {α : Type} {id : String} {value : α} {es : List (String × α)}
    (hes : es.Pairwise (·.1 < ·.1)) (hid : es.lookup id = none) :
    (place id value es).Pairwise (·.1 < ·.1) := by
  induction es with
  | nil => simp [place]
  | cons x xs ih =>
    obtain ⟨hx, hxs⟩ := List.pairwise_cons.mp hes
    have hne : id ≠ x.1 := by
      rintro rfl
      simp at hid
    have hrest : xs.lookup id = none := by
      rwa [List.lookup_cons, beq_false_of_ne hne] at hid
    rw [place]
    by_cases h : id < x.1
    · rw [if_pos h, List.pairwise_cons]
      refine ⟨fun e he => ?_, hes⟩
      rcases List.mem_cons.mp he with rfl | he
      · exact h
      · exact String.lt_trans h (hx e he)
    · rw [if_neg h, List.pairwise_cons]
      have hlt : x.1 < id := Std.lt_of_le_of_ne (String.not_lt.mp h) hne.symm
      refine ⟨fun e he => ?_, ih hxs hrest⟩
      rcases mem_place.mp he with rfl | he
      · exact hlt
      · exact hx e he

/-- The ids of every kind are in ascending order. -/
def Registry.Ascending (r : Registry) : Prop := ∀ kind, (r.idsOf kind).Pairwise (· < ·)

theorem Catalogue.pairwise_ids_insert {α : Type} {c : Catalogue α} (hc : c.ids.Pairwise (· < ·))
    (id : String) (value : α) : (c.insert id value).ids.Pairwise (· < ·) := by
  unfold insert contains
  cases h : c.find? id with
  | some v => exact hc
  | none => exact List.pairwise_map.mpr (pairwise_place (List.pairwise_map.mp hc) h)

theorem Registry.Ascending.insert {r : Registry} (hr : r.Ascending) (d : Definition) :
    (r.insert d).Ascending := by
  intro kind
  have hkind := hr kind
  cases d <;> cases kind
  case nodeType.nodeType t => exact Catalogue.pairwise_ids_insert hkind t.id t
  case objectType.objectType t => exact Catalogue.pairwise_ids_insert hkind t.id t
  case attributeType.attributeType t => exact Catalogue.pairwise_ids_insert hkind t.id t
  case enumType.enumType t => exact Catalogue.pairwise_ids_insert hkind t.id t
  all_goals exact hkind

theorem Catalogue.mem_ids {α : Type} {c : Catalogue α} {id : String} :
    id ∈ c.ids ↔ (c.find? id).isSome := by
  rw [Catalogue.ids, Catalogue.find?, List.lookup_isSome_iff, List.mem_map]
  exact exists_congr fun p => and_congr_right fun _ => by rw [beq_iff_eq, eq_comm]

/-- The ids are those of the registered templates. -/
theorem Registry.mem_ids {r : Registry} {kind : Kind} {id : String} :
    (kind, id) ∈ r.ids ↔ r.contains kind id := by
  rw [Registry.ids, List.mem_flatMap]
  have hkind : r.contains kind id ↔ id ∈ r.idsOf kind := by
    cases kind <;>
      rw [Registry.contains, Registry.find?, Option.isSome_map, Registry.idsOf, Catalogue.mem_ids]
    all_goals rfl
  rw [hkind]
  constructor
  · rintro ⟨kind', -, hmem⟩
    obtain ⟨id', hid, heq⟩ := List.mem_map.mp hmem
    cases heq
    exact hid
  · exact fun hid => ⟨kind, by cases kind <;> decide, List.mem_map_of_mem hid⟩

/-- The place of a kind in the order of kinds. -/
def Kind.place (kind : Kind) : Nat := all.idxOf kind

/-- Then all ids are in order, by kind and within a kind ascending, and none occurs twice. -/
theorem Registry.Ascending.pairwise_ids {r : Registry} (hr : r.Ascending) :
    r.ids.Pairwise fun a b => a.1.place < b.1.place ∨ a.1 = b.1 ∧ a.2 < b.2 := by
  rw [Registry.ids, List.pairwise_flatMap]
  constructor
  · intro kind _
    exact List.pairwise_map.mpr ((hr kind).imp fun h => Or.inr ⟨rfl, h⟩)
  · have hkinds : Kind.all.Pairwise fun a b => a.place < b.place := by decide
    refine hkinds.imp fun {a b} h x hx y hy => ?_
    obtain ⟨_, -, rfl⟩ := List.mem_map.mp hx
    obtain ⟨_, -, rfl⟩ := List.mem_map.mp hy
    exact Or.inl h

/-! ## Readings that may fail -/

section Readings

variable {α β ε : Type}

theorem map_eq_ok_iff {x : Except ε α} {f : α → β} {b : β} :
    x.map f = .ok b ↔ ∃ a, x = .ok a ∧ f a = b := by
  cases x <;> simp [Except.map]

theorem bind_eq_ok_iff {x : Except ε α} {f : α → Except ε β} {b : β} :
    x >>= f = .ok b ↔ ∃ a, x = .ok a ∧ f a = .ok b := by
  cases x <;> simp [bind, Except.bind]

/-- A list is read as what its entries are read as. -/
theorem mapM_eq_ok_iff {f : α → Except ε β} {R : α → β → Prop} (h : ∀ x y, R x y ↔ f x = .ok y)
    {xs : List α} {ys : List β} : xs.mapM f = .ok ys ↔ List.Forall₂ R xs ys := by
  induction xs generalizing ys with
  | nil =>
    rw [List.mapM_nil, List.forall₂_nil_left_iff]
    exact ⟨fun h => (Except.ok.inj h).symm, fun h => h ▸ rfl⟩
  | cons x xs ih =>
    rw [List.mapM_cons, List.forall₂_cons_left_iff, bind_eq_ok_iff]
    refine exists_congr fun y => ?_
    rw [bind_eq_ok_iff, h, ← exists_and_left]
    refine exists_congr fun ys' => and_congr_right fun _ => ?_
    rw [ih]
    exact and_congr_right fun _ => ⟨fun h => (Except.ok.inj h).symm, fun h => h ▸ rfl⟩

end Readings

/-! ## Entries and their faults -/

section Entries

variable {α β : Type}

/-- The fault of an entry, if it has one. -/
def fault? : Except EntryFault β → Option EntryFault
  | .ok _ => none
  | .error fault => some fault

/-- The faults of entries that are read by `f`, in order. -/
def faultsOf (f : α → Except EntryFault β) (es : List α) : List EntryFault :=
  es.filterMap fun e => fault? (f e)

/-- Reading entries one after the other fails with the first fault. -/
theorem fault?_mapM (f : α → Except EntryFault β) (es : List α) :
    fault? (es.mapM f) = (faultsOf f es).head? := by
  induction es with
  | nil => rfl
  | cons e es ih =>
    rw [List.mapM_cons, faultsOf, List.filterMap_cons]
    cases h : f e with
    | error fault => rfl
    | ok b =>
      rw [show (fault? (.ok b : Except EntryFault β)) = none from rfl]
      rw [faultsOf] at ih
      rw [← ih]
      cases es.mapM f <;> rfl

end Entries

/-! ## Templates as they are written -/

/-- A template as it is written, of any kind. -/
inductive Written where
  | nodeType (t : NodeTypeEntry)
  | objectType (t : ObjectTypeEntry)
  | attributeType (t : AttributeTypeEntry)
  | enumType (t : EnumTypeEntry)

namespace Written

/-- The kind. -/
def kind : Written → Kind
  | nodeType _ => .nodeType
  | objectType _ => .objectType
  | attributeType _ => .attributeType
  | enumType _ => .enumType

/-- The id. -/
def id : Written → String
  | nodeType t => t.id
  | objectType t => t.id
  | attributeType t => t.id
  | enumType t => t.id

/-- What is wrong with the entries, in order, nested data objects before data attributes. -/
def faults : Written → List EntryFault
  | nodeType t => faultsOf (ObjectDef.ofEntry "DO") t.objects
  | objectType t =>
    faultsOf (ObjectDef.ofEntry "SDO") t.objects ++ faultsOf (AttributeDef.ofEntry "DA") t.leaves
  | attributeType t => faultsOf (AttributeDef.ofEntry "BDA") t.leaves
  | enumType t => faultsOf EnumSymbol.ofEntry t.symbols

/-- The conversion to a definition. -/
def convert : Written → Except EntryFault Definition
  | nodeType t => (NodeType.ofEntry t).map .nodeType
  | objectType t => (ObjectType.ofEntry t).map .objectType
  | attributeType t => (AttributeType.ofEntry t).map .attributeType
  | enumType t => (EnumType.ofEntry t).map .enumType

/-- The definition, if the template converts. -/
def definition? (w : Written) : Option Definition := w.convert.toOption

/-- The error that tells the first fault. -/
def issue? (w : Written) : Option Issue :=
  w.faults.head?.map fun fault =>
    { severity := .error, message := fault.message, object := w.id }

/-- **A template converts iff no entry is faulty**, and else fails with the first fault. -/
theorem fault?_convert (w : Written) : fault? w.convert = w.faults.head? := by
  cases w with
  | nodeType t =>
    rw [faults, ← fault?_mapM, convert, NodeType.ofEntry]
    cases t.objects.mapM (ObjectDef.ofEntry "DO") <;> rfl
  | objectType t =>
    rw [faults, List.head?_append, ← fault?_mapM, ← fault?_mapM, convert, ObjectType.ofEntry]
    cases t.objects.mapM (ObjectDef.ofEntry "SDO") with
    | error fault => rfl
    | ok objects => cases t.leaves.mapM (AttributeDef.ofEntry "DA") <;> rfl
  | attributeType t =>
    rw [faults, ← fault?_mapM, convert, AttributeType.ofEntry]
    cases t.leaves.mapM (AttributeDef.ofEntry "BDA") <;> rfl
  | enumType t =>
    rw [faults, ← fault?_mapM, convert, EnumType.ofEntry]
    cases t.symbols.mapM EnumSymbol.ofEntry <;> rfl

theorem definition?_eq_none_iff (w : Written) : w.definition? = none ↔ w.faults ≠ [] := by
  rw [Ne, ← List.head?_eq_none_iff, ← w.fault?_convert, definition?]
  cases w.convert <;> simp [fault?, Except.toOption]

/-- A definition has the kind and the id of the template it is converted from. -/
theorem key_of_convert {w : Written} {d : Definition} (h : w.convert = .ok d) :
    d.kind = w.kind ∧ d.id = w.id := by
  cases w with
  | nodeType t =>
    obtain ⟨_, ht, rfl⟩ := map_eq_ok_iff.mp h
    obtain ⟨_, -, ⟨⟩⟩ := bind_eq_ok_iff.mp ht
    exact ⟨rfl, rfl⟩
  | objectType t =>
    obtain ⟨_, ht, rfl⟩ := map_eq_ok_iff.mp h
    obtain ⟨_, -, hrest⟩ := bind_eq_ok_iff.mp ht
    obtain ⟨_, -, ⟨⟩⟩ := bind_eq_ok_iff.mp hrest
    exact ⟨rfl, rfl⟩
  | attributeType t =>
    obtain ⟨_, ht, rfl⟩ := map_eq_ok_iff.mp h
    obtain ⟨_, -, ⟨⟩⟩ := bind_eq_ok_iff.mp ht
    exact ⟨rfl, rfl⟩
  | enumType t =>
    obtain ⟨_, ht, rfl⟩ := map_eq_ok_iff.mp h
    obtain ⟨_, -, ⟨⟩⟩ := bind_eq_ok_iff.mp ht
    exact ⟨rfl, rfl⟩

/-- The template as it comes to be admitted. -/
def admission (w : Written) : Except Refusal Definition :=
  match w.convert with
  | .ok d => .ok d
  | .error fault => .error ⟨w.id, fault⟩

end Written

/-- The templates of a section, kind after kind and in the order in which they are written. -/
def writtenIn (s : TypeSection) : List Written :=
  s.nodeTypes.map .nodeType ++ s.objectTypes.map .objectType ++
    s.attributeTypes.map .attributeType ++ s.enumTypes.map .enumType

theorem candidates_eq (s : TypeSection) : candidates s = (writtenIn s).map Written.admission := by
  -- to wrap up a definition before or after it is found out that there is one
  have hwrap : ∀ {α : Type} (id : String) (build : α → Definition) (x : Except EntryFault α),
      candidate id build x = match x.map build with
        | .ok d => .ok d
        | .error fault => .error ⟨id, fault⟩ := by
    intro α id build x
    cases x <;> rfl
  simp only [candidates, writtenIn, List.map_append, List.map_map, hwrap]
  rfl

end Template

/-! ## Admission one after the other -/

/-- The templates of a configuration as they are written. -/
def written (scl : Scl) : List Written := scl.types.toList.flatMap writtenIn

variable {r : Registry}

theorem ascending_registerAll (hr : r.Ascending) (cs : List (Except Refusal Definition)) :
    (registerAll r cs).1.Ascending := by
  induction cs generalizing r with
  | nil => exact hr
  | cons c cs ih =>
    refine ih ?_
    cases c with
    | error refusal => exact hr
    | ok d => exact hr.insert d

/-- **What is admitted first stays**: a look-up finds what was there before, or else the first
definition of the kind and the id. -/
theorem find?_registerAll (r : Registry) (cs : List (Except Refusal Definition)) (id : String)
    (kind : Kind) : (registerAll r cs).1.find? id kind = (r.find? id kind).or
      (cs.findSome? fun c => c.toOption.filter fun d => d.kind = kind ∧ d.id = id) := by
  induction cs generalizing r with
  | nil => exact Option.or_none.symm
  | cons c cs ih =>
    rw [registerAll, ih, List.findSome?_cons]
    cases c with
    | error refusal => rfl
    | ok d =>
      rw [register, Registry.find?_insert, Option.or_assoc]
      simp only [Except.toOption, Option.filter_some, decide_eq_true_eq]
      split <;> rfl

/-- Those that are not admitted are reported, one by one. -/
theorem issuesOf_registerAll (r : Registry) (cs : List (Except Refusal Definition)) :
    issuesOf (registerAll r cs).2 = cs.filterMap fun
      | .ok _ => none
      | .error refusal => some (Finding.refused refusal).issue := by
  induction cs generalizing r with
  | nil => rfl
  | cons c cs ih =>
    rw [registerAll, issuesOf_append, ih, List.filterMap_cons]
    cases c with
    | error refusal => rfl
    | ok d =>
      rw [register]
      split <;> rfl

/-- The templates of a list that are looked at in a search, one after the other. -/
theorem findSome?_filter {α β : Type} (p : α → Bool) (f : α → Option β) (l : List α) :
    (l.filter p).findSome? f = l.findSome? fun a => if p a then f a else none := by
  rw [← List.head?_filterMap, List.filterMap_filter, List.head?_filterMap]

/-- The registry of a configuration. -/
theorem registry_ofScl (scl : Scl) : (Document.ofScl scl).registry =
    (registerAll {} ((written scl).map Written.admission)).1 := by
  show (readTypes scl.types).1 = _
  rw [written]
  cases scl.types with
  | none => rfl
  | some s =>
    rw [readTypes, candidates_eq, Option.toList_some, List.flatMap_singleton]

theorem ascending_ofScl (scl : Scl) : (Document.ofScl scl).registry.Ascending := by
  rw [registry_ofScl]
  exact ascending_registerAll (fun kind => by cases kind <;> exact .nil) _

/-- **A look-up finds the first template of the kind and the id that converts.** -/
theorem find?_ofScl (scl : Scl) (kind : Kind) (id : String) :
    (Document.ofScl scl).registry.find? id kind =
      ((written scl).filter fun w => w.kind = kind ∧ w.id = id).findSome?
        Written.definition? := by
  have hempty : (({} : Registry).find? id kind) = none := by cases kind <;> rfl
  rw [registry_ofScl, find?_registerAll, hempty, Option.none_or, List.findSome?_map,
    findSome?_filter]
  congr 1
  funext w
  rw [Function.comp_apply, Written.admission, Written.definition?]
  cases hw : w.convert with
  | error fault => simp [Except.toOption]
  | ok definition =>
    obtain ⟨hkind, hid⟩ := Written.key_of_convert hw
    simp [Except.toOption, Option.filter_some, hkind, hid]

/-- What is registered is the conversion of a template of the kind and the id. -/
theorem exists_of_find?_ofScl {scl : Scl} {kind : Kind} {id : String} {d : Definition}
    (h : (Document.ofScl scl).registry.find? id kind = some d) :
    ∃ w ∈ written scl, w.kind = kind ∧ w.id = id ∧ w.convert = .ok d := by
  rw [find?_ofScl] at h
  obtain ⟨w, hw, hdefinition⟩ := List.exists_of_findSome?_eq_some h
  obtain ⟨hmem, hkey⟩ := List.mem_filter.mp hw
  obtain ⟨hkind, hid⟩ := of_decide_eq_true hkey
  refine ⟨w, hmem, hkind, hid, ?_⟩
  rw [Written.definition?] at hdefinition
  cases hconvert : w.convert with
  | error fault => rw [hconvert] at hdefinition; cases hdefinition
  | ok d' => rw [hconvert] at hdefinition; cases hdefinition; rfl

/-- The issues of a configuration, repetitions included. -/
theorem issuesOf_ofScl (scl : Scl) :
    issuesOf (Document.ofScl scl).journal = (written scl).filterMap Written.issue? := by
  have hentries : issuesOf (readTypes scl.types).2 = (written scl).filterMap Written.issue? := by
    rw [written]
    cases scl.types with
    | none => rfl
    | some s =>
      rw [readTypes, candidates_eq, Option.toList_some, List.flatMap_singleton, issuesOf_append,
        issuesOf_registerAll, List.filterMap_map]
      refine (List.append_nil _).trans (List.filterMap_congr fun w _ => ?_)
      rw [Written.issue?, ← w.fault?_convert, Function.comp_apply, Written.admission]
      cases w.convert <;> rfl
  show issuesOf ((readTypes scl.types).2 ++ _) = _
  rw [issuesOf_append, hentries]
  exact List.append_nil _

end Substation
