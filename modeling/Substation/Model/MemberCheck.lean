import Substation.Journal.Finding
import Substation.Model.IedModel
import Substation.Template.Registry
import Substation.Text.Segment

/-!
# Checking data sets

Every member of a data set has to refer to something that the templates define: a logical device
and a logical node of the model, and then names that lead through the types.
-/

namespace Substation.Model

open Substation.Config
open Substation.Journal
open Substation.Template
open Substation.Text (segments)

variable (r : Registry)

/-- The data object type that a sequence of names leads to from a data object type. -/
def nestedType? : List String → ObjectType → Option ObjectType
  | [], type => some type
  | name :: names, type =>
    ((type.object? name).bind fun d => r.objectType? d.typeId).bind (nestedType? names)

/-- The data object type that a dotted name leads to from a logical node type
(`fcda_data_object`). -/
def memberType? (typeId name : String) : Option ObjectType :=
  match segments '.' name with
  | [] => none
  | first :: rest =>
    ((r.nodeType? typeId).bind fun t => (t.object? first).bind fun d =>
      r.objectType? d.typeId).bind (nestedType? r rest)

/-- Whether names lead on from a data attribute. -/
def hasNested : List String → AttributeDef → Bool
  | [], _ => true
  | name :: names, a =>
    match (a.typeId.bind r.attributeType?).bind (·.leaf? name) with
    | none => false
    | some inner => hasNested names inner

/-- Whether a dotted name leads to an attribute of a data object type (`fcda_attribute_exists`). -/
def hasAttribute (type : ObjectType) (name : String) : Bool :=
  match segments '.' name with
  | [] => false
  | first :: rest => (type.leaf? first).any (hasNested r rest)

/-- Whether a member refers to something that exists (`fcda_exists`). -/
def memberExists (m : IedModel) (f : Fcda) : Bool :=
  let type? := do
    let device ← m.deviceByInst? (← f.ldInst)
    let ln ← m.logicalNode? device f.lnName
    let config ← (← m.node? ln).kind.config?
    memberType? r config.lnType (← f.doName)
  match type?, f.daName with
  | none, _ => false
  | some _, none => true
  | some type, some name => hasAttribute r type name

/-- The members of a data set of a logical node that do not exist (`check_data_set`). -/
def dataSetFindings (m : IedModel) (lnRef : String) (d : DataSet) : List Finding :=
  (d.members.filter fun f => !memberExists r m f).map fun f =>
    .unknownMember (lnRef ++ "." ++ d.name) f.reference

/-- The data sets of all logical nodes of a model (`check_fcda_references`). -/
def memberFindings (m : IedModel) : List Finding :=
  (m.devices.flatMap m.logicalNodes).flatMap fun ln =>
    match m.node? ln with
    | none => []
    | some n => (n.kind.config?.toList.flatMap LogicalNode.dataSets).flatMap
        (dataSetFindings r m n.ref)

end Substation.Model
