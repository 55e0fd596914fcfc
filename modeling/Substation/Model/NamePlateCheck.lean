import Substation.Journal.Finding
import Substation.Model.Branch

/-!
# Checking name plates

The data object `NamPlt` of a logical node carries the configuration revision of the logical device
and the namespaces of the device and the node.
-/

namespace Substation.Model

open Substation.Config
open Substation.Journal
open Substation.Template

/-- The type of the name plate of a logical node. -/
def namePlate? (ln : Branch) : Option ObjectType :=
  (ln.child? "NamPlt").bind fun b =>
    match b.node.kind with
    | .object _ type _ => some type
    | _ => none

/-- A configured value of the name plate. -/
def plateInstance? (config : LogicalNode) (name : String) : Option Dai :=
  (config.instance? "NamPlt").bind (·.leaf? name)

/-- The first value that is configured, unless it is empty. -/
def filledValue? (dai : Dai) : Option String := dai.value?.filter (!·.isEmpty)

/-- The configuration revision of a logical device has to be declared by the type of the name plate
or to be configured with a value (`check_config_rev`). -/
def configRevFindings (device : String) (ln : Branch) : List Finding :=
  match ln.node.kind.config? with
  | none => []
  | some config =>
    if ((namePlate? ln).bind (·.leaf? "configRev")).isSome then []
    else match plateInstance? config "configRev" with
      | none => [.noConfigRev ln.ref device]
      | some dai => if (filledValue? dai).isSome then [] else [.emptyConfigRev ln.ref device]

/-- What the name plate says about a namespace. -/
inductive SpaceValue where
  /-- There is no such attribute. -/
  | absent
  /-- The attribute has no value. -/
  | empty
  /-- The attribute has a value. -/
  | given (text : String)
deriving DecidableEq, Repr

/-- The declaration of a namespace by a name plate of class `LPL`. -/
def declaredSpace? (ln : Branch) (name : String) : Option AttributeDef :=
  ((namePlate? ln).filter (·.cdc = "LPL")).bind fun type =>
    type.leaves.find? fun a => a.name = name ∧ a.fc = .ex

/-- The namespace of the given name (`namespace_value`): the configured value, or else the default
value. -/
def spaceValue (ln : Branch) (config : LogicalNode) (name : String) : SpaceValue :=
  let dai := plateInstance? config name
  let declared := declaredSpace? ln name
  match dai.bind filledValue?, (declared.bind AttributeDef.default?).filter (!·.isEmpty) with
  | some text, _ => .given text
  | none, some text => .given text
  | none, none => if dai.isSome || declared.isSome then .empty else .absent

/-- What is wrong with a namespace; `location` says where it stands (`check_one`). -/
def spaceFindings (ln : Branch) (location : String) : SpaceValue → List Finding
  | .absent => []
  | .empty => [.emptyNamespace ln.ref location]
  | .given text =>
    if (Namespace.parse? text).any Namespace.isKnown then []
    else [.unknownNamespace ln.ref location text]

/-- The namespace that a value stands for. -/
def SpaceValue.space? : SpaceValue → Option Namespace
  | .given text => Namespace.parse? text
  | _ => none

end Substation.Model
