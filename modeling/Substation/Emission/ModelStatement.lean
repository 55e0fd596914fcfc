import Substation.Emission.ControlStatement
import Substation.Emission.DataStatement
import Substation.Emission.Member

/-!
# The static model as a tree of statements

A model holds logical devices, a device holds logical nodes, and a node holds its setting groups,
data, data sets and control blocks in this order. The entries that are made while a statement is
written are kept beside it.
-/

namespace Substation.Emission

open Substation.Journal

/-- A statement, and the entries made just before it is written. -/
structure Remarked (α : Type) where
  /-- The entries. -/
  remarks : List Entry := []
  /-- The statement. -/
  statement : α
deriving DecidableEq, Repr

/-- The lines of a statement with the entries in front of them. -/
def Remarked.script {α : Type} (lines : α → Script) (r : Remarked α) : Script :=
  .concat (r.remarks.map .remark) ++ lines r.statement

/-- A data set. -/
structure DataSetStatement where
  /-- The name. -/
  name : String
  /-- The members. -/
  members : List (Remarked Member)
deriving DecidableEq, Repr

/-- The lines (`write_data_set`). -/
def DataSetStatement.script (s : DataSetStatement) : Script :=
  block ("DS(" ++ s.name ++ ")") <|
    .concat (s.members.map (Remarked.script fun m => .line m.text))

/-- A logical node. -/
structure NodeStatement where
  /-- The name. -/
  name : String
  /-- The setting groups. -/
  settings : Option SettingStatement
  /-- The data objects. -/
  data : List DataStatement
  /-- The data sets. -/
  dataSets : List DataSetStatement
  /-- The report control blocks. -/
  reports : List ReportStatement
  /-- The log control blocks. -/
  logControls : List LogControlStatement
  /-- The names of the logs. -/
  logs : List String
  /-- The control blocks for event messages. -/
  gseControls : List (Remarked GseStatement)
  /-- The control blocks for sampled values. -/
  sampledControls : List (Remarked SampledStatement)
  /-- The entries made before the end. -/
  closing : List Entry

/-- The lines (`write_logical_node`). -/
def NodeStatement.script (s : NodeStatement) : Script :=
  block ("LN(" ++ s.name ++ ")") <| .concat [
    .concat (s.settings.toList.map SettingStatement.script),
    DataStatement.scriptAll s.data,
    .concat (s.dataSets.map DataSetStatement.script),
    .concat (s.reports.map ReportStatement.script),
    .concat (s.logControls.map LogControlStatement.script),
    .concat (s.logs.map logScript),
    .concat (s.gseControls.map (Remarked.script GseStatement.script)),
    .concat (s.sampledControls.map (Remarked.script SampledStatement.script)),
    .concat (s.closing.map .remark)]

/-- A logical device. -/
structure DeviceStatement where
  /-- The instance name. -/
  inst : String
  /-- The logical nodes. -/
  nodes : List NodeStatement

/-- The lines. -/
def DeviceStatement.script (s : DeviceStatement) : Script :=
  block ("LD(" ++ s.inst ++ ")") <| .concat (s.nodes.map NodeStatement.script)

/-- A static model. -/
structure ModelStatement where
  /-- The name of the IED. -/
  name : String
  /-- The logical devices. -/
  devices : List DeviceStatement

/-- The lines (`write_model`). -/
def ModelStatement.script (s : ModelStatement) : Script :=
  block ("MODEL(" ++ s.name ++ ")") <| .concat (s.devices.map DeviceStatement.script)

end Substation.Emission
