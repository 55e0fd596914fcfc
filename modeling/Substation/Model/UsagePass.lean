import Substation.Model.Binding
import Substation.Template.Usage

/-!
# The usage pass

Collects the use of templates from a finished model: the types of its logical nodes and data
objects with what they refer to, and the enumerations of configured values.
-/

namespace Substation.Model

open Substation.Config
open Substation.Template

variable (r : Registry)

/-- The mark for a template, if it is registered. -/
def markIfRegistered (kind : Kind) (user : String) (id : Option String) : List Mark :=
  match id.filter (r.contains kind) with
  | none => []
  | some id => [⟨kind, id, user⟩]

/-- The structures directly inside an attribute type. -/
def innerStructures (user : String) (t : AttributeType) : List Mark :=
  t.leaves.flatMap fun a =>
    if a.type = .constructed then markIfRegistered r .attributeType user a.typeId else []

/-- What an attribute of a data object type refers to. -/
def leafMarks (user : String) (a : AttributeDef) : List Mark :=
  match a.type with
  | .constructed =>
    match a.typeId.bind r.attributeType? with
    | none => []
    | some t => markIfRegistered r .attributeType user a.typeId ++ innerStructures r user t
  | .enumerated => markIfRegistered r .enumType user a.typeId
  | _ => []

/-- What a data object type refers to, down to a number of levels (`mark_do_type_references`). -/
def objectTypeMarks (user : String) : Nat → ObjectType → List Mark
  | 0, _ => []
  | budget + 1, t =>
    t.objects.flatMap (fun d =>
      match r.objectType? d.typeId with
      | none => []
      | some inner => ⟨.objectType, d.typeId, user⟩ :: objectTypeMarks user budget inner) ++
    t.leaves.flatMap (leafMarks r user)

/-- The enumerations of values configured directly below a data object (`mark_value_enum_types`). -/
def valueMarks (ln : Branch) (doi : Doi) : List Mark :=
  doi.leaves.flatMap fun dai =>
    if dai.values.isEmpty then []
    else match bind? ln [doi.name, dai.name] with
      | none => []
      | some b =>
        match b.node.kind with
        | .leaf _ a =>
          if a.type = .enumerated then markIfRegistered r .enumType b.ref a.typeId else []
        | _ => []

/-- The marks of a logical node (`mark_model`). -/
def nodeMarks (limit : Nat) (ln : Branch) : List Mark :=
  match ln.node.kind.config? with
  | none => []
  | some config =>
    config.instances.flatMap (valueMarks r ln) ++
      markIfRegistered r .nodeType ln.ref (some config.lnType) ++
      ln.branches.flatMap fun b =>
        match b.node.kind with
        | .object _ t _ => ⟨.objectType, t.id, b.ref⟩ :: objectTypeMarks r b.ref limit t
        | _ => []

/-- The use of templates by a whole model (`mark_model`). -/
def modelUsage (limit : Nat) (m : IedModel) : Usage :=
  .ofList <| (m.devices.flatMap m.logicalNodes).flatMap fun ln =>
    (m.branch? ln).toList.flatMap (nodeMarks r limit)

end Substation.Model
