import Substation.Address.Check
import Substation.Journal.Issue
import Substation.Template.Admission
import Substation.Template.ValueCheck

/-!
# Findings

The causes of issues. A finding says what was found in terms of the document; `Finding.issue` is
the only place where it is put into words.
-/

namespace Substation.Journal

open Substation.Template

/-- What was found to be wrong with a document. References of nodes are written as in the model. -/
inductive Finding where
  /-- A template is refused. -/
  | refused (refusal : Refusal)
  /-- The type of a logical node is not defined. -/
  | noNodeType (ln typeId : String)
  /-- The type of a data object is not defined. -/
  | noObjectType (object name typeId : String)
  /-- The attribute type of a structured attribute is not defined. -/
  | noAttributeType (leaf name typeId : String)
  /-- The enumeration of an enumerated attribute is not defined. -/
  | noEnumType (leaf name typeId : String)
  /-- The types of a data object are nested too deeply; the node is the first one that cannot be
  expanded any more. -/
  | tooDeep (node : String) (limit : Nat)
  /-- A configured value does not fit its attribute. -/
  | badValue (leaf : String) (fault : ValueFault)
  /-- A value is configured for an attribute that a data object does not have. -/
  | unboundLeaf (ln leaf : String)
  /-- A value is configured for a nested attribute that does not exist. -/
  | unboundNested (ln path : String)
  /-- A logical device has no configuration revision. -/
  | noConfigRev (ln device : String)
  /-- The configuration revision of a logical device is empty. -/
  | emptyConfigRev (ln device : String)
  /-- A namespace is not one of those known. -/
  | unknownNamespace (ln location value : String)
  /-- A namespace is declared but has no value. -/
  | emptyNamespace (ln location : String)
  /-- A member of a data set refers to something that the templates do not define. -/
  | unknownMember (dataSet member : String)
  /-- A part of an address is wrong. -/
  | badAddress (object : String) (fault : Address.PartFault)
  /-- The array index of a member of a data set cannot be read. -/
  | badIndex (dataSet member text : String)
deriving DecidableEq, Repr

namespace Finding

/-- A defect of the model. -/
def fail (object message : String) : Issue := { severity := .error, message, object }

/-- A remark on the model. -/
def caution (object message : String) : Issue := { severity := .warning, message, object }

/-- The message that a type is not defined. -/
def undefinedType (kind typeId element name : String) : String :=
  kind ++ " \"" ++ typeId ++ "\" of " ++ element ++ " \"" ++ name ++ "\" is not defined"

/-- The issue that reports a finding. -/
def issue : Finding → Issue
  | refused r => fail r.id r.fault.message
  | noNodeType ln typeId => fail ln (undefinedType "LNType" typeId "LN" ln)
  | noObjectType object name typeId => fail object (undefinedType "DOType" typeId "DO" name)
  | noAttributeType leaf name typeId => fail leaf (undefinedType "DAType" typeId "DA" name)
  | noEnumType leaf name typeId => fail leaf (undefinedType "EnumType" typeId "DA" name)
  | tooDeep node limit => fail node ("type nesting exceeds " ++ toString limit ++ " levels")
  | badValue leaf fault => fail leaf (fault.message leaf)
  | unboundLeaf ln leaf =>
    fail ln ("There is no DataAttribute definition for DAI " ++ leaf ++ " on LogicalNode " ++ ln)
  | unboundNested ln path =>
    fail ln ("There is no SubDataAttribute for DAI " ++ path ++ " on LogicalNode " ++ ln)
  | noConfigRev ln device =>
    fail ln ("DA or DAI LLN0.NamPlt.configRev not found on LD " ++ device)
  | emptyConfigRev ln device =>
    fail ln ("DAI LLN0.NamPlt.configRev found on LD " ++ device ++ " but has no value")
  | unknownNamespace ln location value =>
    caution ln ("Namespace on " ++ location ++ " not found on NSD files. Value: " ++ value)
  | emptyNamespace ln location => fail ln ("Namespace on " ++ location ++ " has no value")
  | unknownMember dataSet member =>
    fail dataSet
      ("FCDA " ++ member ++ " on DataSet " ++ dataSet ++ " not found on data type templates")
  | badAddress object fault => fail object fault.message
  | badIndex dataSet member text =>
    fail dataSet ("FCDA " ++ member ++ " on DataSet " ++ dataSet ++
      " has an invalid array index \"" ++ text ++ "\"")

end Finding

end Substation.Journal
