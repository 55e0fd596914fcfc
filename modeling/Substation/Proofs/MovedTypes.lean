import Mathlib.Data.List.Basic
import Mathlib.Tactic.Common
import Substation.Proofs.ExpandedStructures

/-!
# Types below other logical devices

What grows at a site depends on the reference of the site in one respect only: a structured
attribute is passed over if the reference of its data object ends with its name. If the name holds
no slash, this end lies behind the name of the logical device. So the types of a logical node are
expanded alike on logical devices of whatever names (`nodeSprout_moved`).
-/

namespace Substation

open Substation.Model
open Substation.Template

/-! ## Ends of references -/

namespace Text

/-- A name without a slash is the end of a reference if it is the end of what stands behind the name
of the logical device. -/
theorem endsWith_behind {device text name : String} (h : '/' ∉ name.toList) :
    endsWith (device ++ "/" ++ text) name = endsWith text name := by
  have hlist : (device ++ "/" ++ text).toList = device.toList ++ '/' :: text.toList := by simp
  rw [Bool.eq_iff_iff, endsWith_iff, endsWith_iff, hlist, isSuffix_append_cons h]

end Text

/-! ## Moved sites -/

/-- The names of structured attributes hold no slash. -/
def Template.ObjectType.Unslashed (t : ObjectType) : Prop :=
  ∀ a ∈ t.leaves, a.type = .constructed → '/' ∉ a.name.toList

/-- The names of structured attributes of data objects hold no slash. -/
def Template.Registry.Unslashed (r : Registry) : Prop :=
  ∀ id t, r.objectType? id = some t → t.Unslashed

namespace Model

variable {r : Registry} {device device' : String}

/-- The sites differ in their references: at a data object in the name of the logical device, at a
structured attribute in anything. -/
inductive Moved (device device' : String) : Site → Site → Prop
  | object (text : String) {type : ObjectType} (h : type.Unslashed) :
      Moved device device' (.object (device ++ "/" ++ text) type)
        (.object (device' ++ "/" ++ text) type)
  | group (ref ref' : String) (fc : Constraint) (type : AttributeType) :
      Moved device device' (.group ref fc type) (.group ref' fc type)

theorem type_of_structureType? {a : AttributeDef} {t : AttributeType}
    (h : structureType? r a = some t) : a.type = .constructed :=
  (Option.ite_none_right_eq_some.mp h).1

/-- Whether a structured attribute is passed over does not depend on the logical device. -/
theorem endsTwice_moved (device device' : String) {type : ObjectType} (h : type.Unslashed)
    {a : AttributeDef} (ha : a ∈ type.leaves) (hstructure : a.type = .constructed)
    (text : String) :
    endsTwice (device ++ "/" ++ text ++ "." ++ a.name) a.name =
      endsTwice (device' ++ "/" ++ text ++ "." ++ a.name) a.name := by
  have hslash := h a ha hstructure
  rw [Text.endsTwice_append, Text.endsTwice_append, Text.endsWith_behind hslash,
    Text.endsWith_behind hslash]

section Unslashed

variable (hr : r.Unslashed)
include hr

/-- The sites of a data object below nodes that are moved. -/
theorem Moved.below_object (device device' text : String) {d : ObjectDef} {t : ObjectType}
    (ht : r.objectType? d.typeId = some t) :
    Moved device device' (.object (device ++ "/" ++ text ++ "." ++ d.name) t)
      (.object (device' ++ "/" ++ text ++ "." ++ d.name) t) := by
  have hmoved : Moved device device' (.object (device ++ "/" ++ (text ++ ("." ++ d.name))) t)
      (.object (device' ++ "/" ++ (text ++ ("." ++ d.name))) t) := .object _ (hr _ t ht)
  simpa only [String.append_assoc] using hmoved

/-- What follows a site follows it where it is moved to. -/
theorem Moved.follows {s s' u : Site} (h : Moved device device' s s') (hu : Follows r s u) :
    ∃ u', Follows r s' u' ∧ Moved device device' u u' := by
  cases h with
  | object text htype =>
    cases hu with
    | object hd ht => exact ⟨_, .object hd ht, .below_object hr device device' text ht⟩
    | leaf ha ht hn =>
      rw [endsTwice_moved device device' htype ha (type_of_structureType? ht)] at hn
      exact ⟨_, .leaf ha ht hn, .group ..⟩
  | group ref ref' fc type =>
    cases hu with
    | nested ha ht => exact ⟨_, .nested ha ht, .group ..⟩

theorem Moved.followsIn {k : Nat} {s s' u : Site} (h : Moved device device' s s')
    (hu : FollowsIn r k s u) : ∃ u', FollowsIn r k s' u' := by
  induction hu generalizing s' with
  | zero s => exact ⟨s', .zero s'⟩
  | succ hs _ ih =>
    obtain ⟨t', ht', hmoved⟩ := h.follows hr hs
    obtain ⟨u', hu'⟩ := ih hmoved
    exact ⟨u', .succ ht' hu'⟩

/-- A data object that fits on one logical device fits on the other one. -/
theorem Fits.moved {limit : Nat} {text : String} {d : ObjectDef}
    (h : Fits r limit (device ++ "/" ++ text) d) : Fits r limit (device' ++ "/" ++ text) d := by
  obtain ⟨t, ht, hlevels⟩ := h
  refine ⟨t, ht, fun k s hs => ?_⟩
  obtain ⟨u, hu⟩ := (Moved.below_object hr device' device text ht).followsIn hr hs
  exact hlevels k u hu

/-- The same grows at a site where it is moved to. -/
theorem Moved.unfold_eq {s s' : Site} (h : Moved device device' s s') (n : Nat) :
    unfold r n s = unfold r n s' := by
  induction n generalizing s s' with
  | zero => cases h <;> rfl
  | succ n ih =>
    cases h with
    | object text htype =>
      rw [unfold, unfold]
      refine congrArg₂ (· ++ ·) (List.filterMap_congr fun d _ => ?_)
        (List.map_congr_left fun a ha => congrArg (Sprout.mk _ _) ?_)
      · exact Option.map_congr fun t ht =>
          congrArg (Sprout.mk _ _) (ih (.below_object hr device device' text ht))
      · cases ht : structureType? r a with
        | none => simp only [ite_self]
        | some t =>
          rw [endsTwice_moved device device' htype ha (type_of_structureType? ht)]
          exact congrArg (ite _ []) (ih (.group ..))
    | group ref ref' fc type =>
      rw [unfold, unfold]
      refine List.map_congr_left fun a _ => congrArg (Sprout.mk _ _) ?_
      cases structureType? r a with
      | none => rfl
      | some t => exact ih (.group ..)

/-- **What grows at a logical node does not depend on the name of its logical device.** -/
theorem nodeSprout_moved (device device' : String) (limit n : Nat) (config : Config.LogicalNode) :
    nodeSprout r limit n (device ++ "/" ++ config.name) config =
      nodeSprout r limit n (device' ++ "/" ++ config.name) config := by
  rw [nodeSprout, nodeSprout]
  refine congrArg (Sprout.mk _ _) ?_
  have hfits (d : ObjectDef) : Fits r limit (device ++ "/" ++ config.name) d ↔
      Fits r limit (device' ++ "/" ++ config.name) d := ⟨.moved hr, .moved hr⟩
  simp only [hfits]
  refine List.filterMap_congr fun d _ => Option.map_congr fun t ht => ?_
  have hmoved := Moved.below_object hr device device' config.name ht
  exact congrArg (Sprout.mk _ _) (hmoved.unfold_eq hr n)

end Unslashed

end Model

end Substation
