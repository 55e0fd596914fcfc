import Substation.Model.Node

/-!
# The data model of an IED

A table of nodes in order of creation. Parents come before their children, so every walk towards
the logical device ends; `rollback` takes back everything created since a mark.
-/

namespace Substation.Model

/-- The data model of an IED as one of its access points shows it. -/
structure IedModel where
  /-- The name of the IED. -/
  name : String
  /-- The nodes in order of creation. -/
  nodes : Array Node := #[]
  /-- The logical devices in order of creation. -/
  devices : List Nat := []

namespace IedModel

/-! ## Building -/

/-- The number of nodes, which is also the number of the next node. -/
def size (m : IedModel) : Nat := m.nodes.size

/-- The node of a number. -/
def node? (m : IedModel) (id : Nat) : Option Node := m.nodes[id]?

/-- The reference of a node. -/
def ref (m : IedModel) (id : Nat) : String := ((m.node? id).map Node.ref).getD ""

/-- Adds a logical device; its name is its reference (`add_logical_device`). -/
def addDevice (m : IedModel) (name inst : String) : IedModel :=
  { m with
    nodes := m.nodes.push
      { name, ref := name, parent := none, children := [], kind := .device inst none }
    devices := m.devices ++ [m.size] }

/-- Adds a node below another one (`add_child`). -/
def addChild (m : IedModel) (parent : Nat) (name : String) (kind : NodeKind) : IedModel :=
  match m.node? parent with
  | none => m
  | some p =>
    { m with
      nodes := (m.nodes.modify parent (·.adopt m.size)).push
        { name, ref := p.ref ++ p.kind.separator ++ name, parent := some parent, children := []
          kind } }

/-- Renames a node (`IedModel::rename`). The nodes below keep the references they were created
with. -/
def rename (m : IedModel) (id : Nat) (name : String) : IedModel :=
  { m with nodes := m.nodes.modify id (·.rename name) }

/-- Sets the namespace of a logical device or a logical node (`set_namespace`). -/
def setSpace (m : IedModel) (id : Nat) (space : Namespace) : IedModel :=
  { m with nodes := m.nodes.modify id fun n => { n with kind := n.kind.withSpace space } }

/-- Takes back every node from number `mark` on (`IedModel::rollback`). -/
def rollback (m : IedModel) (mark : Nat) : IedModel :=
  { m with
    nodes := (m.nodes.take mark).map (·.disown mark)
    devices := m.devices.filter (· < mark) }

/-! ## Looking around -/

/-- The nodes below a node. -/
def children (m : IedModel) (id : Nat) : List Nat :=
  ((m.node? id).map Node.children).getD []

/-- The node above a node. -/
def parent? (m : IedModel) (id : Nat) : Option Nat := (m.node? id).bind Node.parent

/-- Whether a node has a property. -/
def satisfies (m : IedModel) (p : Node → Bool) (id : Nat) : Bool := (m.node? id).any p

/-- The first child of a name (`IedModel::child`). -/
def child? (m : IedModel) (id : Nat) (name : String) : Option Nat :=
  (m.children id).find? (m.satisfies (·.name = name))

/-- The first node of a reference (`IedModel::find`). -/
def find? (m : IedModel) (ref : String) : Option Nat := m.nodes.findIdx? (·.ref = ref)

/-- The logical nodes below a node (`IedModel::logical_nodes`). -/
def logicalNodes (m : IedModel) (id : Nat) : List Nat :=
  (m.children id).filter (m.satisfies (·.kind.isLogicalNode))

/-- The first logical node of a name below a node (`IedModel::logical_node`). -/
def logicalNode? (m : IedModel) (id : Nat) (name : String) : Option Nat :=
  (m.logicalNodes id).find? (m.satisfies (·.name = name))

/-- The instance name of a logical device. -/
def inst? (m : IedModel) (id : Nat) : Option String :=
  match (m.node? id).map Node.kind with
  | some (.device inst _) => some inst
  | _ => none

/-- The first logical device of an instance name (`logical_device_by_inst`). -/
def deviceByInst? (m : IedModel) (inst : String) : Option Nat :=
  m.devices.find? (m.inst? · = some inst)

/-- The names of the logical nodes, each with the instance name of its logical device
(`logical_node_names`). -/
def logicalNodeNames (m : IedModel) : List (String × String) :=
  m.devices.flatMap fun d => (m.logicalNodes d).filterMap fun n =>
    (m.node? n).map fun node => ((m.inst? d).getD "", node.name)

/-! ## Looking upwards -/

/-- The nearest node with a property among a node and those above it. -/
def nearest? (m : IedModel) (p : Node → Bool) (id : Nat) : Option Nat :=
  match m.node? id with
  | none => none
  | some n =>
    if p n then some id
    else match n.parent with
      | none => none
      | some up => if up < id then m.nearest? p up else none
termination_by id

/-- The logical device that a node belongs to (`enclosing_logical_device`). -/
def enclosingDevice? (m : IedModel) (id : Nat) : Option Nat :=
  m.nearest? (·.kind.isDevice) id

/-- The logical node that a node belongs to (`enclosing_logical_node`). -/
def enclosingNode? (m : IedModel) (id : Nat) : Option Nat :=
  m.nearest? (·.kind.isLogicalNode) id

/-- The data object directly below a logical node that a node belongs to
(`top_level_data_object`). -/
def topObject? (m : IedModel) (id : Nat) : Option Nat :=
  match m.node? id with
  | none => none
  | some n =>
    match n.parent with
    | none => none
    | some up =>
      if m.satisfies (·.kind.isLogicalNode) up then if n.kind.isObject then some id else none
      else if up < id then m.topObject? up
      else none
termination_by id

end IedModel

end Substation.Model
