import Substation.Template.BasicType
import Substation.Template.Constraint
import Substation.Template.Trigger

/-!
# Templates

A logical node type lists data objects, a data object type lists nested data objects and data
attributes, an attribute type lists nested data attributes, and an enumeration lists symbols. Types
refer to each other by id, so that definitions may be missing or refer to each other in a circle.
-/

namespace Substation.Template

/-- The kinds of templates, in their order. -/
inductive Kind where
  | nodeType
  | objectType
  | attributeType
  | enumType
deriving DecidableEq, Repr

namespace Kind

/-- All kinds in order. -/
def all : List Kind := [nodeType, objectType, attributeType, enumType]

/-- The name in messages. -/
def name : Kind → String
  | nodeType => "LNodeType"
  | objectType => "DOType"
  | attributeType => "DAType"
  | enumType => "EnumType"

end Kind

/-- A data object of a logical node type, or a nested one of a data object type. -/
structure ObjectDef where
  /-- The name. -/
  name : String
  /-- The data object type. -/
  typeId : String
  /-- The size of an array; 0 for a single object. -/
  count : Nat
  /-- Whether changes are short-lived. -/
  transient : Bool
deriving DecidableEq, Repr

/-- A data attribute of a data object type, or a nested one of an attribute type. -/
structure AttributeDef where
  /-- The name. -/
  name : String
  /-- The functional constraint. -/
  fc : Constraint
  /-- The basic type. -/
  type : BasicType
  /-- The attribute type of a structure, or the enumeration of an enumerated attribute. -/
  typeId : Option String
  /-- The size of an array; 0 for a single attribute. -/
  count : Nat
  /-- The events on which the value is reported. -/
  triggers : Triggers
  /-- A short address. -/
  sAddr : Option String
  /-- The default values. -/
  values : List String
deriving DecidableEq, Repr

/-- The first default value (`default_value`). -/
def AttributeDef.default? (a : AttributeDef) : Option String :=
  a.values.head?

/-- A logical node type. -/
structure NodeType where
  /-- The id. -/
  id : String
  /-- The class. -/
  lnClass : String
  /-- The data objects. -/
  objects : List ObjectDef
deriving DecidableEq, Repr

/-- The first data object of a name. -/
def NodeType.object? (t : NodeType) (name : String) : Option ObjectDef :=
  t.objects.find? (·.name = name)

/-- A data object type. -/
structure ObjectType where
  /-- The id. -/
  id : String
  /-- The common data class. -/
  cdc : String
  /-- The nested data objects. -/
  objects : List ObjectDef
  /-- The data attributes. -/
  leaves : List AttributeDef
deriving DecidableEq, Repr

namespace ObjectType

/-- The first nested data object of a name. -/
def object? (t : ObjectType) (name : String) : Option ObjectDef :=
  t.objects.find? (·.name = name)

/-- The first data attribute of a name (`data_attribute`). -/
def leaf? (t : ObjectType) (name : String) : Option AttributeDef :=
  t.leaves.find? (·.name = name)

end ObjectType

/-- An attribute type. -/
structure AttributeType where
  /-- The id. -/
  id : String
  /-- The data attributes. -/
  leaves : List AttributeDef
deriving DecidableEq, Repr

/-- The first data attribute of a name (`sub_attribute`). -/
def AttributeType.leaf? (t : AttributeType) (name : String) : Option AttributeDef :=
  t.leaves.find? (·.name = name)

/-- A symbol of an enumeration. -/
structure EnumSymbol where
  /-- The number. -/
  ord : Int
  /-- The symbol. -/
  text : String
deriving DecidableEq, Repr

/-- An enumeration. -/
structure EnumType where
  /-- The id. -/
  id : String
  /-- The symbols. -/
  symbols : List EnumSymbol
deriving DecidableEq, Repr

/-- The number of the first symbol that reads `text` (`ord_of`). -/
def EnumType.ordOf? (t : EnumType) (text : String) : Option Int :=
  (t.symbols.find? (·.text = text)).map EnumSymbol.ord

/-- A template. -/
inductive Definition where
  | nodeType (t : NodeType)
  | objectType (t : ObjectType)
  | attributeType (t : AttributeType)
  | enumType (t : EnumType)
deriving DecidableEq, Repr

namespace Definition

/-- The kind. -/
def kind : Definition → Kind
  | nodeType _ => .nodeType
  | objectType _ => .objectType
  | attributeType _ => .attributeType
  | enumType _ => .enumType

/-- The id. -/
def id : Definition → String
  | nodeType t => t.id
  | objectType t => t.id
  | attributeType t => t.id
  | enumType t => t.id

end Definition

end Substation.Template
