/-!
# Instance values

A logical node may configure values for the attributes of its data objects. They stand in a tree:
a `DOI` for a data object, `SDI`s for what is nested in it, and `DAI`s with the values at the
leaves. Where names repeat, the first one is meant.
-/

namespace Substation.Config

/-- A configured or default value. -/
structure Val where
  /-- The setting group the value belongs to. -/
  group : Option String
  /-- The value as written. -/
  text : String
deriving DecidableEq, Repr

/-- The values configured for one attribute. -/
structure Dai where
  /-- The name of the attribute. -/
  name : String
  /-- The element of an array that is meant. -/
  index : Option String
  /-- How the value may be used. -/
  valKind : Option String
  /-- The values. -/
  values : List Val
deriving DecidableEq, Repr

/-- The first configured value (`Dai::value`). -/
def Dai.value? (d : Dai) : Option String :=
  d.values.head?.map Val.text

/-- The instance values below one nested object or structured attribute. -/
inductive Sdi where
  /-- The name, the element of an array that is meant, and what is below. -/
  | mk (name : String) (index : Option String) (nested : List Sdi) (leaves : List Dai)

namespace Sdi

/-- The name of what is configured. -/
def name : Sdi → String
  | mk name _ _ _ => name

/-- The element of an array that is meant. -/
def index : Sdi → Option String
  | mk _ index _ _ => index

/-- The instance values nested further. -/
def nested : Sdi → List Sdi
  | mk _ _ nested _ => nested

/-- The attributes configured directly below. -/
def leaves : Sdi → List Dai
  | mk _ _ _ leaves => leaves

/-- The first attribute of a name directly below (`Sdi::dai`). -/
def leaf? (s : Sdi) (name : String) : Option Dai :=
  s.leaves.find? (·.name = name)

/-- The first nested part of a name (`Sdi::sdi`). -/
def nested? (s : Sdi) (name : String) : Option Sdi :=
  s.nested.find? (·.name = name)

end Sdi

/-- The instance values below one data object. -/
structure Doi where
  /-- The name of the data object. -/
  name : String
  /-- The element of an array that is meant. -/
  index : Option String
  /-- The nested parts. -/
  nested : List Sdi
  /-- The attributes configured directly below. -/
  leaves : List Dai

namespace Doi

/-- The first attribute of a name directly below (`Doi::dai`). -/
def leaf? (d : Doi) (name : String) : Option Dai :=
  d.leaves.find? (·.name = name)

/-- The first nested part of a name (`Doi::sdi`). -/
def nested? (d : Doi) (name : String) : Option Sdi :=
  d.nested.find? (·.name = name)

end Doi

end Substation.Config
