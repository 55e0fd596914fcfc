/-!
# Data sets

A data set lists members, each a reference to data of a logical node that may lie on another
logical device.
-/

namespace Substation.Config

/-- A member of a data set. -/
structure Fcda where
  /-- The logical device. -/
  ldInst : Option String := none
  /-- The first part of the logical node's name. -/
  lnPrefix : Option String := none
  /-- The class of the logical node. -/
  lnClass : Option String := none
  /-- The instance number of the logical node. -/
  lnInst : Option String := none
  /-- The data object, nested objects included. -/
  doName : Option String := none
  /-- The data attribute, nested attributes included. -/
  daName : Option String := none
  /-- The functional constraint. -/
  fc : String := ""
  /-- The element of an array. -/
  index : Option String := none
deriving DecidableEq, Repr

namespace Fcda

/-- The name of the logical node (`ln_name`). -/
def lnName (f : Fcda) : String :=
  f.lnPrefix.getD "" ++ f.lnClass.getD "" ++ f.lnInst.getD ""

/-- The member as `device/node.object.attribute`; an attribute without an object is left out
(`object_reference`). -/
def reference (f : Fcda) : String :=
  f.ldInst.getD "" ++ "/" ++ f.lnName ++
    match f.doName with
    | none => ""
    | some object => "." ++ object ++
      match f.daName with
      | none => ""
      | some leaf => "." ++ leaf

end Fcda

/-- A named list of members. -/
structure DataSet where
  /-- The name. -/
  name : String
  /-- The members in order. -/
  members : List Fcda
deriving DecidableEq, Repr

end Substation.Config
