import Substation.Template.Catalogue
import Substation.Template.Definition

/-!
# The registry

The templates of one document, a catalogue for each kind.
-/

namespace Substation.Template

/-- The templates by kind and id (`TypeTemplateRegistry`). -/
structure Registry where
  /-- The logical node types. -/
  nodeTypes : Catalogue NodeType := {}
  /-- The data object types. -/
  objectTypes : Catalogue ObjectType := {}
  /-- The attribute types. -/
  attributeTypes : Catalogue AttributeType := {}
  /-- The enumerations. -/
  enumTypes : Catalogue EnumType := {}

namespace Registry

/-- The logical node type of an id. -/
def nodeType? (r : Registry) (id : String) : Option NodeType := r.nodeTypes.find? id

/-- The data object type of an id. -/
def objectType? (r : Registry) (id : String) : Option ObjectType := r.objectTypes.find? id

/-- The attribute type of an id. -/
def attributeType? (r : Registry) (id : String) : Option AttributeType := r.attributeTypes.find? id

/-- The enumeration of an id. -/
def enumType? (r : Registry) (id : String) : Option EnumType := r.enumTypes.find? id

/-- The template of a kind and an id. -/
def find? (r : Registry) (id : String) : Kind → Option Definition
  | .nodeType => (r.nodeType? id).map .nodeType
  | .objectType => (r.objectType? id).map .objectType
  | .attributeType => (r.attributeType? id).map .attributeType
  | .enumType => (r.enumType? id).map .enumType

/-- Whether there is a template of a kind and an id (`TypeTemplateRegistry::contains`). -/
def contains (r : Registry) (kind : Kind) (id : String) : Bool := (r.find? id kind).isSome

/-- The ids of a kind in ascending order. -/
def idsOf (r : Registry) : Kind → List String
  | .nodeType => r.nodeTypes.ids
  | .objectType => r.objectTypes.ids
  | .attributeType => r.attributeTypes.ids
  | .enumType => r.enumTypes.ids

/-- All templates by kind and id, in the order of kinds and then of ids
(`TypeTemplateRegistry::ids`). -/
def ids (r : Registry) : List (Kind × String) :=
  Kind.all.flatMap fun kind => (r.idsOf kind).map (kind, ·)

/-- Adds a template, unless there is one of its kind and id already. -/
def insert (r : Registry) : Definition → Registry
  | .nodeType t => { r with nodeTypes := r.nodeTypes.insert t.id t }
  | .objectType t => { r with objectTypes := r.objectTypes.insert t.id t }
  | .attributeType t => { r with attributeTypes := r.attributeTypes.insert t.id t }
  | .enumType t => { r with enumTypes := r.enumTypes.insert t.id t }

end Registry

end Substation.Template
