import Substation.Config.Instance

/-!
# The section of data type templates

The templates as they are written. Names and types of their entries may be missing here; whether a
template can be used is decided when it is admitted to the registry.
-/

namespace Substation.Config

/-- A data object in a logical node type, or a nested one in a data object type. -/
structure ObjectEntry where
  /-- The name. -/
  name : Option String
  /-- The data object type. -/
  typeId : Option String
  /-- The size of an array. -/
  count : Option String
  /-- Whether changes are short-lived. -/
  transient : Option String
deriving DecidableEq, Repr

/-- A data attribute in a data object type, or a nested one in a data attribute type. -/
structure AttributeEntry where
  /-- The name. -/
  name : Option String
  /-- The basic type. -/
  bType : Option String
  /-- The data attribute type or enumeration. -/
  typeId : Option String
  /-- The functional constraint. -/
  fc : Option String
  /-- The size of an array. -/
  count : Option String
  /-- A short address. -/
  sAddr : Option String
  /-- Whether a change of the value is reported. -/
  dchg : Option String
  /-- Whether a change of the quality is reported. -/
  qchg : Option String
  /-- Whether an update is reported. -/
  dupd : Option String
  /-- Whether the value is reported periodically. -/
  period : Option String
  /-- Whether the value is reported on general interrogation. -/
  gi : Option String
  /-- The default values. -/
  values : List Val
deriving DecidableEq, Repr

/-- A logical node type. -/
structure NodeTypeEntry where
  /-- The id. -/
  id : String
  /-- The class. -/
  lnClass : String
  /-- The data objects. -/
  objects : List ObjectEntry
deriving DecidableEq, Repr

/-- A data object type. -/
structure ObjectTypeEntry where
  /-- The id. -/
  id : String
  /-- The common data class. -/
  cdc : String
  /-- The nested data objects. -/
  objects : List ObjectEntry
  /-- The data attributes. -/
  leaves : List AttributeEntry
deriving DecidableEq, Repr

/-- A data attribute type. -/
structure AttributeTypeEntry where
  /-- The id. -/
  id : String
  /-- The nested data attributes. -/
  leaves : List AttributeEntry
deriving DecidableEq, Repr

/-- A symbol of an enumeration. -/
structure SymbolEntry where
  /-- The number. -/
  ord : Option String
  /-- The symbol as written. -/
  text : String
deriving DecidableEq, Repr

/-- An enumeration. -/
structure EnumTypeEntry where
  /-- The id. -/
  id : String
  /-- The symbols. -/
  symbols : List SymbolEntry
deriving DecidableEq, Repr

/-- The section. -/
structure TypeSection where
  /-- The logical node types. -/
  nodeTypes : List NodeTypeEntry
  /-- The data object types. -/
  objectTypes : List ObjectTypeEntry
  /-- The data attribute types. -/
  attributeTypes : List AttributeTypeEntry
  /-- The enumerations. -/
  enumTypes : List EnumTypeEntry
deriving DecidableEq, Repr

end Substation.Config
