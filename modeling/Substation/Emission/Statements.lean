import Substation.Emission.Controls
import Substation.Emission.Literal
import Substation.Emission.ModelStatement
import Substation.Model.Binding

/-!
# From a model to its statements

Every logical device, logical node, data object and data attribute of a model becomes a statement,
in the order of the model. Within a data object that is transient, at whatever depth, all
attributes are marked as transient.
-/

namespace Substation.Emission

open Substation.Config
open Substation.Journal
open Substation.Model
open Substation.Template (Registry AttributeDef Constraint)

/-- The bit that says that an attribute lies in a transient data object (`TRANSIENT_BIT`). -/
def transientBit : Nat := 128

/-! ## Data -/

/-- The fields of an attribute (`write_data_attribute`). -/
def LeafFields.ofNode (node : Node) (transient : Bool) (fc : Constraint) (a : AttributeDef) :
    LeafFields where
  name := node.name
  count := a.count
  type := a.type.ordinal
  fc := fc.ordinal
  triggers := a.triggers.bits + if transient then transientBit else 0
  sAddr := textOr "0" a.sAddr

section Data

variable (literalOf : Nat → AttributeDef → Option String)

mutual

/-- The statement of a data object or attribute; other nodes have none (`write_data_object`,
`write_data_attribute`). -/
def dataStatement? (transient : Bool) : Branch → Option DataStatement
  | .mk id node branches =>
    match node.kind with
    | .object count _ own =>
      some (.object node.name count (objectParts (transient || own) branches))
    | .leaf fc a =>
      let fields := LeafFields.ofNode node transient fc a
      if a.type = .constructed then some (.group fields (groupParts transient branches))
      else some (.value fields (literalOf id a))
    | _ => none

/-- The statements within a data object. -/
def objectParts (transient : Bool) : List Branch → List DataStatement
  | [] => []
  | b :: bs => (dataStatement? transient b).toList ++ objectParts transient bs

/-- The statements within a structured attribute, which holds attributes only. -/
def groupParts (transient : Bool) : List Branch → List DataStatement
  | [] => []
  | b :: bs =>
    if b.node.kind.isLeaf then (dataStatement? transient b).toList ++ groupParts transient bs
    else groupParts transient bs

end

/-- The statements of the data objects of a logical node. -/
def nodeData (ln : Branch) : List DataStatement :=
  (ln.branches.filter (·.node.kind.isObject)).filterMap (dataStatement? literalOf false)

end Data

/-! ## Logical nodes -/

/-- What the writing of a static model depends on. -/
structure Setting where
  /-- The templates. -/
  registry : Registry
  /-- The model. -/
  model : IedModel
  /-- The access point. -/
  subject : Subject
  /-- The connection of the access point. -/
  connection : Option ConnectedAp
  /-- Whether clients own report control blocks. -/
  hasOwner : Bool
  /-- The codec for hardware addresses. -/
  codec : Text.HexCodec

namespace Setting

variable (w : Setting)

/-- The literal of the value that is configured for an attribute (`initial_value`). -/
def initialValue? (id : Nat) (a : AttributeDef) : Option String :=
  ((w.model.configured? id).bind Dai.value?).bind (literal? w.registry a)

/-- A member of a data set, with a finding if its index cannot be read. -/
def memberStatement (dataSet device : String) (f : Fcda) : Remarked Member :=
  let m := Member.ofFcda f device
  { remarks := m.badIndex.toList.map fun text =>
      .finding (.badIndex dataSet f.reference text)
    statement := m }

/-- A data set (`write_data_set`). -/
def dataSetStatement (device : String) (ln : Branch) (d : DataSet) : DataSetStatement where
  name := d.name
  members := d.members.map (memberStatement (ln.ref ++ "." ++ d.name) device)

/-- A control block for event messages, with a note if it is not connected. -/
def gseStatement (device : String) (c : GseControl) : Remarked GseStatement :=
  let connection := w.connection.bind (·.gse? c.name)
  { remarks := if connection.isSome then [] else [.note (.noGse w.subject device c.name)]
    statement := .ofControl w.codec connection c }

/-- A control block for sampled values, with a note if it is not connected. -/
def sampledStatement (device : String) (c : SampledControl) : Remarked SampledStatement :=
  let connection := w.connection.bind (·.sampled? c.name)
  { remarks := if connection.isSome then [] else [.note (.noSampled w.subject device c.name)]
    statement := .ofControl w.codec connection c }

/-- What a logical node holds, in numbers. -/
def countsOf (ln : Branch) (config : LogicalNode) : NodeCounts where
  objects := ln.node.children.length
  dataSets := config.dataSets.length
  reports := config.reports.length
  logControls := config.logControls.length
  gseControls := config.gseControls.length
  sampledControls := config.sampledControls.length

/-- A logical node on the logical device `device` (`write_logical_node`). -/
def nodeStatement (device : String) (ln : Branch) (config : LogicalNode) : NodeStatement where
  name := ln.name
  settings := config.settings.map .ofControl
  data := nodeData w.initialValue? ln
  dataSets := config.dataSets.map (dataSetStatement device ln)
  reports := config.reports.map (.ofControl w.hasOwner)
  logControls := config.logControls.map (.ofControl device ln.name)
  logs := config.logs
  gseControls := config.gseControls.map (w.gseStatement device)
  sampledControls := config.sampledControls.map (w.sampledStatement device)
  closing := [.note (.writtenNode w.subject device ln.name (countsOf ln config))]

/-- The statement of a branch that is a logical node. -/
def nodeStatement? (device : String) (b : Branch) : Option NodeStatement :=
  b.node.kind.config?.map (w.nodeStatement device b)

/-- A logical device. -/
def deviceStatement? (b : Branch) : Option DeviceStatement :=
  match b.node.kind with
  | .device inst _ => some ⟨inst, b.branches.filterMap (w.nodeStatement? inst)⟩
  | _ => none

/-- The whole model (`write_model`). -/
def modelStatement : ModelStatement where
  name := w.model.name
  devices := (w.model.devices.filterMap w.model.branch?).filterMap w.deviceStatement?

end Setting

end Substation.Emission
