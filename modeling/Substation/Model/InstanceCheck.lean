import Substation.Journal.Finding
import Substation.Model.Binding

/-!
# Checking instance values

Every configured value of a logical node has to be for an attribute that exists and to fit it.
Values are taken in document order; within a nested part its own leaves come first.
-/

namespace Substation.Model

open Substation.Config
open Substation.Journal
open Substation.Template

variable (r : Registry) (ln : Branch)

/-- The values of a leaf that is bound to an attribute (`check_values`). -/
def valueFindings (leaf : Branch) (dai : Dai) : List Finding :=
  match leaf.node.kind with
  | .leaf _ a => dai.values.filterMap fun v =>
      (valueFault? r a v.text).map (.badValue leaf.ref)
  | _ => []

/-- A leaf directly below the instance values of a data object. -/
def directFindings (doi : Doi) (dai : Dai) : List Finding :=
  match bind? ln [doi.name, dai.name] with
  | some leaf => valueFindings r leaf dai
  | none => [.unboundLeaf ln.ref dai.name]

/-- A leaf of a nested part; `path` leads to the part and `label` is the path as it is reported. It
is not reported when an attribute of its name exists anywhere in the data object. -/
def nestedLeafFindings (path : List String) (label : String) (doi : Doi) (dai : Dai) :
    List Finding :=
  match bind? ln (doi.name :: path ++ [dai.name]) with
  | some leaf => valueFindings r leaf dai
  | none =>
    match leafNamed? ln doi.name dai.name with
    | some _ => []
    | none => [.unboundNested ln.ref label]

/-- A step of a path as it is reported: the name, and the element of an array that is meant. -/
def stepLabel (name : String) : Option String → String
  | none => name
  | some index => name ++ "[" ++ index ++ "]"

mutual

/-- A nested part below the path `path`; `labels` are the steps as they are reported
(`validate_sdi`). -/
def nestedFindings (doi : Doi) (path labels : List String) : Sdi → List Finding
  | .mk name index nested leaves =>
    let path := path ++ [name]
    let labels := labels ++ [stepLabel name index]
    leaves.flatMap (nestedLeafFindings r ln path (".".intercalate labels) doi) ++
      allNestedFindings doi path labels nested

/-- Several nested parts, one after the other. -/
def allNestedFindings (doi : Doi) (path labels : List String) : List Sdi → List Finding
  | [] => []
  | s :: rest => nestedFindings doi path labels s ++ allNestedFindings doi path labels rest

end

/-- The instance values of one data object (`validate_logical_node`). -/
def objectFindings (doi : Doi) : List Finding :=
  doi.leaves.flatMap (directFindings r ln doi) ++ allNestedFindings r ln doi [] [] doi.nested

/-- All instance values of a logical node (`validate_logical_node`). -/
def instanceFindings : List Finding :=
  match ln.node.kind.config? with
  | none => []
  | some config => config.instances.flatMap (objectFindings r ln)

end Substation.Model
