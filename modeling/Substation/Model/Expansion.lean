import Substation.Journal.Entry
import Substation.Model.IedModel
import Substation.Text.Segment

/-!
# Expansion of types

A logical node gets the data objects and data attributes that its type defines, down to a limit of
nesting. Types may refer to each other in a circle; a data object whose expansion reaches the limit
is taken back as a whole and reported, while the marks and findings made on the way stay.

Nesting is counted down: an expansion is given the number of levels that it may still use, so the
recursion is on that number, and the limit is reached where it is zero.
-/

namespace Substation.Model

open Substation.Journal
open Substation.Template

/-- A model under construction, with the journal of the work. -/
structure Growth where
  /-- The model so far. -/
  model : IedModel
  /-- The journal so far. -/
  journal : Array Entry := #[]

namespace Growth

/-- Applies a change to the model. -/
def onModel (f : IedModel → IedModel) (g : Growth) : Growth := { g with model := f g.model }

/-- Adds an entry to the journal. -/
def enter (e : Entry) (g : Growth) : Growth := { g with journal := g.journal.push e }

/-- Adds findings to the journal. -/
def report (fs : List Finding) (g : Growth) : Growth :=
  { g with journal := g.journal ++ fs.map Entry.finding }

end Growth

/-- The limit of nesting is reached at a node. -/
structure TooDeep where
  /-- The reference of the node. -/
  node : String
deriving DecidableEq, Repr

/-- Work on a model that may reach the limit of nesting. -/
abbrev Grow := ExceptT TooDeep (StateM Growth)

namespace Grow

/-- Adds a node below another one. -/
def addChild (parent : Nat) (name : String) (kind : NodeKind) : Grow Nat := do
  let id := (← get).model.size
  modify (Growth.onModel (·.addChild parent name kind))
  return id

/-- The reference of a node. -/
def refOf (id : Nat) : Grow String := return (← get).model.ref id

/-- Makes an entry in the journal. -/
def enter (e : Entry) : Grow Unit := modify (Growth.enter e)

/-- Reports a finding. -/
def report (f : Finding) : Grow Unit := enter (.finding f)

/-- Records that a node uses a template. -/
def use (kind : Kind) (id user : String) : Grow Unit := enter (.mark ⟨kind, id, user⟩)

/-- The limit is reached at a node (`depth_check`). -/
def stop {α : Type} (id : Nat) : Grow α := do throw ⟨← refOf id⟩

/-- Does some work below a node and takes the new nodes back if the limit is reached. -/
def undoIfTooDeep (limit : Nat) (work : Grow Unit) : Grow Unit := do
  let mark := (← get).model.size
  tryCatch work fun e => do
    modify (Growth.onModel (·.rollback mark))
    report (.tooDeep e.node limit)

end Grow

open Grow

variable (r : Registry)

/-! ## Attributes -/

/-- The attribute type of a structured attribute, if it is defined (`constructed_type`). -/
def structureOf (node : Nat) (a : AttributeDef) : Grow (Option AttributeType) := do
  let typeId := a.typeId.getD ""
  let ref ← refOf node
  match r.attributeType? typeId with
  | some type =>
    use .attributeType typeId ref
    return some type
  | none =>
    report (.noAttributeType ref a.name typeId)
    return none

/-- Looks at the enumeration of an enumerated attribute (`enum_type`). -/
def useEnum (node : Nat) (a : AttributeDef) : Grow Unit := do
  let typeId := a.typeId.getD ""
  let ref ← refOf node
  if r.contains .enumType typeId then use .enumType typeId ref
  else report (.noEnumType ref a.name typeId)

/-- Adds an attribute; `inner` adds what belongs below a structured one (`add_attribute`). -/
def addLeaf (parent : Nat) (fc : Constraint) (a : AttributeDef)
    (inner : Nat → AttributeType → Grow Unit) : Grow Unit := do
  let node ← addChild parent a.name (.leaf fc a)
  match a.type with
  | .constructed =>
    match ← structureOf r node a with
    | some type => inner node type
    | none => return
  | .enumerated => useEnum r node a
  | _ => return

/-- The functional constraint of a nested attribute: its own, or else that of the structure. -/
def innerConstraint (outer : Constraint) (a : AttributeDef) : Constraint :=
  if a.fc = .none then outer else a.fc

/-- Adds the attributes of a structure (`expand_sub_attributes`). -/
def growStructure : Nat → Nat → Constraint → AttributeType → Grow Unit
  | 0, parent, _, _ => stop parent
  | budget + 1, parent, fc, type =>
    type.leaves.forM fun a =>
      addLeaf r parent (innerConstraint fc a) a fun node =>
        growStructure budget node (innerConstraint fc a)

/-- Whether a reference ends with a name twice. A structured attribute of a data object is not
expanded when it lies in a data object of its own name. -/
def endsTwice (ref name : String) : Bool := Text.endsWith ref (name ++ "." ++ name)

/-! ## Data objects -/

/-- Adds a data object if its type is defined; `inner` adds what belongs below it. -/
def addObject (parent : Nat) (d : ObjectDef) (inner : Nat → ObjectType → Grow Unit) :
    Grow Unit := do
  match r.objectType? d.typeId with
  | none => report (.noObjectType ((← refOf parent) ++ "." ++ d.name) d.name d.typeId)
  | some type =>
    let node ← addChild parent d.name (.object d.count type d.transient)
    use .objectType d.typeId (← refOf node)
    inner node type

/-- Adds what a data object type defines (`expand_data_object`): nested data objects, then
attributes. -/
def growObject : Nat → Nat → ObjectType → Grow Unit
  | 0, parent, _ => stop parent
  | budget + 1, parent, type => do
    type.objects.forM fun d => addObject r parent d (growObject budget)
    type.leaves.forM fun a =>
      addLeaf r parent a.fc a fun node inner => do
        if endsTwice (← refOf node) a.name then return
        else growStructure r budget node a.fc inner

/-! ## Logical nodes -/

/-- Adds the data objects of a logical node (`resolve_logical_node`). -/
def growNode (limit ln : Nat) (type : NodeType) : Grow Unit :=
  type.objects.forM fun d => undoIfTooDeep limit (addObject r ln d (growObject r limit))

/-- Adds a logical node and what its type defines (`resolve_logical_node`). A logical node whose
type is not defined stays without data objects. -/
def addLogicalNode (limit device : Nat) (config : Config.LogicalNode) : Grow Nat := do
  let ln ← addChild device config.name (.logicalNode config none)
  let ref ← refOf ln
  match r.nodeType? config.lnType with
  | none => report (.noNodeType ref config.lnType)
  | some type =>
    use .nodeType config.lnType ref
    growNode r limit ln type
    enter (.note (.expanded ref ((← get).model.children ln).length))
  return ln

end Substation.Model
