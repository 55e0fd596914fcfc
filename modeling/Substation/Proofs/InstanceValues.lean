import Mathlib.Data.List.Nodup
import Mathlib.Tactic.Common
import Substation.Model.Binding
import Substation.Proofs.Names

/-!
# Places of instance values

A path of names leads through the instance values of a logical node to the values of one attribute:
first the data object, then what is nested in it, last the attribute. `Holds` says that values stand
at a path, and `valueAt?` looks for them, taking the first part of each name. Where names tell the
parts apart (`Tidy`) the two agree (`valueAt?_eq_some_iff`).
-/

namespace Substation.Config

namespace Sdi

/-- The values stand at the path below the part. -/
inductive Holds : Sdi → List String → Dai → Prop
  | leaf {s : Sdi} {a : Dai} (ha : a ∈ s.leaves) : Holds s [a.name] a
  | nested {s t : Sdi} {path : List String} {a : Dai} (ht : t ∈ s.nested) (h : Holds t path a) :
      Holds s (t.name :: path) a

/-- The values at a path below a part. -/
def valueAt? : List String → Sdi → Option Dai
  | [], _ => none
  | [name], s => s.leaf? name
  | name :: next :: path, s => (s.nested? name).bind (valueAt? (next :: path))

mutual

/-- A part with all parts nested in it. -/
def parts : Sdi → List Sdi
  | mk name index nested leaves => mk name index nested leaves :: partsAll nested

/-- Several parts with all parts nested in them. -/
def partsAll : List Sdi → List Sdi
  | [] => []
  | s :: ss => parts s ++ partsAll ss

end

/-- Parts and attributes directly below one part have names of their own, and no name holds a
dot. -/
def Tidy (s : Sdi) : Prop := ∀ t ∈ s.parts, '.' ∉ t.name.toList ∧ (t.nested.map name).Nodup ∧
  (t.leaves.map Dai.name).Nodup ∧ ∀ a ∈ t.leaves, '.' ∉ a.name.toList

instance (s : Sdi) : Decidable s.Tidy :=
  inferInstanceAs (Decidable (∀ t ∈ s.parts, _ ∧ _ ∧ _ ∧ ∀ a ∈ t.leaves, '.' ∉ a.name.toList))

theorem self_mem_parts (s : Sdi) : s ∈ s.parts := by
  cases s
  rw [parts]
  exact List.mem_cons_self

theorem mem_partsAll {t : Sdi} {ss : List Sdi} : t ∈ partsAll ss ↔ ∃ s ∈ ss, t ∈ s.parts := by
  induction ss with
  | nil => simp [partsAll]
  | cons s ss ih => simp [partsAll, ih]

theorem Tidy.of_mem {s t : Sdi} (h : s.Tidy) (ht : t ∈ s.nested) : t.Tidy := by
  intro u hu
  refine h u ?_
  cases s
  rw [parts]
  exact List.mem_cons_of_mem _ (mem_partsAll.mpr ⟨t, ht, hu⟩)

variable {s : Sdi} {path : List String} {a : Dai}

theorem Holds.ne_nil (h : s.Holds path a) : path ≠ [] := by
  cases h <;> exact List.cons_ne_nil _ _

/-- What is found at a path stands there. -/
theorem holds_of_valueAt? (h : s.valueAt? path = some a) : s.Holds path a := by
  induction path generalizing s with
  | nil => exact absurd h (by simp [valueAt?])
  | cons name path ih =>
    cases path with
    | nil =>
      obtain ⟨ha, rfl⟩ := mem_of_find?_name h
      exact .leaf ha
    | cons next path =>
      obtain ⟨t, hfound, ht⟩ := Option.bind_eq_some_iff.mp h
      obtain ⟨hmem, rfl⟩ := mem_of_find?_name hfound
      exact .nested hmem (ih ht)

/-- Looking goes on in a part whose name no part beside it has. -/
theorem valueAt?_of_mem (hnames : (s.nested.map Sdi.name).Nodup) {t : Sdi} (ht : t ∈ s.nested)
    (hpath : path ≠ []) : s.valueAt? (t.name :: path) = t.valueAt? path := by
  obtain ⟨next, path, rfl⟩ := List.exists_cons_of_ne_nil hpath
  have hpart : s.nested? t.name = some t := (find?_name_eq_some_iff hnames).mpr ⟨ht, rfl⟩
  rw [valueAt?, hpart, Option.bind_some]

theorem valueAt?_eq_some_iff (hs : s.Tidy) : s.valueAt? path = some a ↔ s.Holds path a := by
  refine ⟨holds_of_valueAt?, fun h => ?_⟩
  induction h with
  | @leaf s a ha =>
    obtain ⟨-, -, hleaves, -⟩ := hs s s.self_mem_parts
    exact (find?_name_eq_some_iff hleaves).mpr ⟨ha, rfl⟩
  | @nested s t path a ht h ih =>
    obtain ⟨-, hnested, -, -⟩ := hs s s.self_mem_parts
    rw [valueAt?_of_mem hnested ht h.ne_nil]
    exact ih (hs.of_mem ht)

theorem Holds.dot_not_mem (hs : s.Tidy) (h : s.Holds path a) : ∀ n ∈ path, '.' ∉ n.toList := by
  induction h with
  | @leaf s a ha =>
    obtain ⟨-, -, -, hdot⟩ := hs s s.self_mem_parts
    exact List.forall_mem_singleton.mpr (hdot a ha)
  | @nested s t path a ht _ ih =>
    have htidy := hs.of_mem ht
    exact List.forall_mem_cons.mpr ⟨(htidy t t.self_mem_parts).1, ih htidy⟩

end Sdi

/-- The instance values below a data object, as a part. -/
def Doi.part (d : Doi) : Sdi := .mk d.name d.index d.nested d.leaves

namespace LogicalNode

/-- The values stand at the path. -/
inductive Holds (c : LogicalNode) : List String → Dai → Prop
  | mk {d : Doi} {path : List String} {a : Dai} (hd : d ∈ c.instances) (h : d.part.Holds path a) :
      Holds c (d.name :: path) a

/-- The values at a path. -/
def valueAt? (c : LogicalNode) : List String → Option Dai
  | [] => none
  | name :: path => (c.instance? name).bind (·.part.valueAt? path)

/-- Names tell the instance values apart, and no name holds a dot. -/
structure Tidy (c : LogicalNode) : Prop where
  instances : (c.instances.map Doi.name).Nodup
  parts : ∀ d ∈ c.instances, d.part.Tidy

instance (c : LogicalNode) : Decidable c.Tidy :=
  decidable_of_iff ((c.instances.map Doi.name).Nodup ∧ ∀ d ∈ c.instances, d.part.Tidy)
    ⟨fun h => ⟨h.1, h.2⟩, fun h => ⟨h.instances, h.parts⟩⟩

variable {c : LogicalNode} {path : List String} {a : Dai}

theorem holds_of_valueAt? (h : c.valueAt? path = some a) : c.Holds path a := by
  cases path with
  | nil => exact absurd h (by simp [valueAt?])
  | cons name path =>
    obtain ⟨d, hfound, hd⟩ := Option.bind_eq_some_iff.mp h
    obtain ⟨hmem, rfl⟩ := mem_of_find?_name hfound
    exact .mk hmem (Sdi.holds_of_valueAt? hd)

/-- Looking starts in a data object whose name no other one has. -/
theorem valueAt?_of_mem (hnames : (c.instances.map Doi.name).Nodup) {d : Doi}
    (hd : d ∈ c.instances) : c.valueAt? (d.name :: path) = d.part.valueAt? path := by
  have hobject : c.instance? d.name = some d := (find?_name_eq_some_iff hnames).mpr ⟨hd, rfl⟩
  rw [valueAt?, hobject, Option.bind_some]

/-- **Looking for instance values finds what stands at the path.** -/
theorem valueAt?_eq_some_iff (hc : c.Tidy) : c.valueAt? path = some a ↔ c.Holds path a := by
  refine ⟨holds_of_valueAt?, fun h => ?_⟩
  cases h with
  | @mk d path a hd h =>
    rw [valueAt?_of_mem hc.instances hd]
    exact (Sdi.valueAt?_eq_some_iff (hc.parts d hd)).mpr h

theorem Holds.dot_not_mem (hc : c.Tidy) (h : c.Holds path a) : ∀ n ∈ path, '.' ∉ n.toList := by
  cases h with
  | mk hd h =>
    have htidy := hc.parts _ hd
    exact List.forall_mem_cons.mpr ⟨(htidy _ (Sdi.self_mem_parts _)).1, h.dot_not_mem htidy⟩

end LogicalNode

end Substation.Config

namespace Substation.Model

open Substation.Config

/-- Nested parts first and the attribute last. -/
theorem nestedAt?_bind_leaf? (path : List String) (h : path ≠ []) (s : Sdi) :
    ((nestedAt? path.dropLast s).bind fun s => s.leaf? (path.getLast h)) = s.valueAt? path := by
  induction path generalizing s with
  | nil => exact absurd rfl h
  | cons name path ih =>
    cases path with
    | nil => rfl
    | cons next path =>
      rw [List.dropLast_cons_of_ne_nil (List.cons_ne_nil next path), nestedAt?, Sdi.valueAt?,
        Option.bind_assoc]
      exact congrArg _ (funext fun t => ih (List.cons_ne_nil next path) t)

theorem leafAt?_eq_valueAt? (d : Doi) (first second : String) (rest : List String) :
    leafAt? d (first :: second :: rest) = d.part.valueAt? (first :: second :: rest) := by
  rw [leafAt?, Sdi.valueAt?]
  exact congrArg _ (funext fun s => nestedAt?_bind_leaf? (second :: rest) (List.cons_ne_nil _ _) s)

end Substation.Model
