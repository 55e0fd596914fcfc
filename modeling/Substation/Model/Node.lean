import Substation.Config.Device
import Substation.Model.Namespace
import Substation.Template.Definition

/-!
# Nodes of a data model

A node stands for a logical device, a logical node, a data object or a data attribute. It knows its
place by the numbers of its parent and its children. The number of a node is its place in the order
of creation, counted from zero.
-/

namespace Substation.Model

open Substation.Template

/-- What a node stands for. -/
inductive NodeKind where
  /-- A logical device, by its instance name. -/
  | device (inst : String) (space : Option Namespace)
  /-- A logical node, with its part of the configuration. -/
  | logicalNode (config : Config.LogicalNode) (space : Option Namespace)
  /-- A data object. -/
  | object (count : Nat) (type : ObjectType) (transient : Bool)
  /-- A data attribute; its functional constraint may come from the structure it lies in. -/
  | leaf (fc : Constraint) (definition : AttributeDef)

namespace NodeKind

/-- Whether this is a logical device. -/
def isDevice : NodeKind → Bool
  | device .. => true
  | _ => false

/-- Whether this is a logical node. -/
def isLogicalNode : NodeKind → Bool
  | logicalNode .. => true
  | _ => false

/-- Whether this is a data object. -/
def isObject : NodeKind → Bool
  | object .. => true
  | _ => false

/-- Whether this is a data attribute. -/
def isLeaf : NodeKind → Bool
  | leaf .. => true
  | _ => false

/-- The basic type of a data attribute. -/
def basicType? : NodeKind → Option BasicType
  | leaf _ a => some a.type
  | _ => none

/-- The configuration of a logical node. -/
def config? : NodeKind → Option Config.LogicalNode
  | logicalNode c _ => some c
  | _ => none

/-- What stands between the reference of a node of this kind and the name of a child. -/
def separator : NodeKind → String
  | device .. => "/"
  | _ => "."

/-- The kind with another namespace; only logical devices and logical nodes have one. -/
def withSpace (space : Namespace) : NodeKind → NodeKind
  | device inst _ => device inst (some space)
  | logicalNode c _ => logicalNode c (some space)
  | k => k

end NodeKind

/-- A node. -/
structure Node where
  /-- The name. -/
  name : String
  /-- The reference: the names from the logical device down to the node. -/
  ref : String
  /-- The node above. -/
  parent : Option Nat
  /-- The nodes below, in order of creation. -/
  children : List Nat
  /-- What the node stands for. -/
  kind : NodeKind

namespace Node

/-- Adds a node below. -/
def adopt (n : Node) (id : Nat) : Node := { n with children := n.children ++ [id] }

/-- Forgets the nodes below from number `mark` on. -/
def disown (n : Node) (mark : Nat) : Node :=
  { n with children := n.children.filter (· < mark) }

/-- Changes the name, which is also the end of the reference. -/
def rename (n : Node) (name : String) : Node :=
  { n with
    name
    ref := String.ofList (n.ref.toList.take (n.ref.length - n.name.length)) ++ name }

end Node

end Substation.Model
