import Substation.Config.Literal
import Substation.Config.TypeSection
import Substation.Template.Registry

/-!
# Admission to the registry

A template as it is written becomes a definition if each of its entries is complete. The first
entry that is not, nested data objects before data attributes, is the reason why the template is
refused (`Refusal`); a later template of the same id may then take its place.
-/

namespace Substation.Template

open Substation.Config
open Substation.Text (IntRange trim)

/-- What is wrong with an entry of a template. -/
inductive EntryFault where
  /-- A part that every such entry needs is not given. -/
  | missing (element part : String)
  /-- The functional constraint is none. -/
  | unknownConstraint (element name fc : String)
  /-- The symbol of an enumeration has no number. -/
  | noOrd (symbol : String)
deriving DecidableEq, Repr

/-- The explanation. -/
def EntryFault.message : EntryFault → String
  | missing element part => element ++ " is missing " ++ part ++ " attribute"
  | unknownConstraint element name fc =>
    element ++ " \"" ++ name ++ "\" has unknown functional constraint \"" ++ fc ++ "\""
  | noOrd symbol => "EnumVal \"" ++ symbol ++ "\" has no valid ord attribute"

/-- Why a template is not admitted. -/
structure Refusal where
  /-- The id of the template. -/
  id : String
  /-- What is wrong. -/
  fault : EntryFault
deriving DecidableEq, Repr

/-- A part that has to be given. -/
def required (element part : String) : Option String → Except EntryFault String
  | some value => .ok value
  | none => .error (.missing element part)

/-- A data object from an entry written as `element` (`convert_do_def`). -/
def ObjectDef.ofEntry (element : String) (e : ObjectEntry) : Except EntryFault ObjectDef := do
  let name ← required element "name" e.name
  let typeId ← required element "type" e.typeId
  return { name, typeId, count := Config.count e.count, transient := flag e.transient false }

/-- The functional constraint of an entry; an entry may have none of its own. -/
def Constraint.ofEntry (element name : String) : Option String → Except EntryFault Constraint
  | .none => .ok none
  | some fc =>
    match Constraint.parse? fc with
    | some c => .ok c
    | .none => .error (.unknownConstraint element name fc)

/-- The trigger options of an entry. -/
def Triggers.ofEntry (e : AttributeEntry) : Triggers where
  dchg := flag e.dchg false
  qchg := flag e.qchg false
  dupd := flag e.dupd false
  period := flag e.period false
  gi := flag e.gi true

/-- A data attribute from an entry written as `element` (`convert_da_def`). -/
def AttributeDef.ofEntry (element : String) (e : AttributeEntry) :
    Except EntryFault AttributeDef := do
  let name ← required element "name" e.name
  let word ← required element "bType" e.bType
  let fc ← Constraint.ofEntry element name e.fc
  return {
    name, fc
    type := .ofWord word
    typeId := e.typeId
    count := Config.count e.count
    triggers := .ofEntry e
    sAddr := e.sAddr
    values := e.values.map Val.text }

/-- A logical node type (`convert_lnode_type`). -/
def NodeType.ofEntry (t : NodeTypeEntry) : Except EntryFault NodeType := do
  return { id := t.id, lnClass := t.lnClass, objects := ← t.objects.mapM (ObjectDef.ofEntry "DO") }

/-- A data object type (`convert_do_type`). -/
def ObjectType.ofEntry (t : ObjectTypeEntry) : Except EntryFault ObjectType := do
  let objects ← t.objects.mapM (ObjectDef.ofEntry "SDO")
  let leaves ← t.leaves.mapM (AttributeDef.ofEntry "DA")
  return { id := t.id, cdc := t.cdc, objects, leaves }

/-- An attribute type (`convert_da_type`). -/
def AttributeType.ofEntry (t : AttributeTypeEntry) : Except EntryFault AttributeType := do
  return { id := t.id, leaves := ← t.leaves.mapM (AttributeDef.ofEntry "BDA") }

/-- A symbol, which stands for a number of 32 bits (`convert_enum_type`). -/
def EnumSymbol.ofEntry (e : SymbolEntry) : Except EntryFault EnumSymbol :=
  match (integer? e.ord).filter (IntRange.signed 32).holds with
  | some ord => .ok ⟨ord, trim e.text⟩
  | none => .error (.noOrd e.text)

/-- An enumeration (`convert_enum_type`). -/
def EnumType.ofEntry (t : EnumTypeEntry) : Except EntryFault EnumType := do
  return { id := t.id, symbols := ← t.symbols.mapM EnumSymbol.ofEntry }

/-- A definition, or the reason why the template of this id is refused. -/
def candidate {α : Type} (id : String) (build : α → Definition) :
    Except EntryFault α → Except Refusal Definition
  | .ok t => .ok (build t)
  | .error fault => .error ⟨id, fault⟩

/-- All templates of a section, kind after kind and in the order in which they are written
(`from_model`). -/
def candidates (s : TypeSection) : List (Except Refusal Definition) :=
  s.nodeTypes.map (fun t => candidate t.id .nodeType (NodeType.ofEntry t)) ++
    s.objectTypes.map (fun t => candidate t.id .objectType (ObjectType.ofEntry t)) ++
    s.attributeTypes.map (fun t => candidate t.id .attributeType (AttributeType.ofEntry t)) ++
    s.enumTypes.map (fun t => candidate t.id .enumType (EnumType.ofEntry t))

end Substation.Template
