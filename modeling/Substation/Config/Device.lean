import Substation.Config.ControlBlock
import Substation.Config.DataSet
import Substation.Config.Instance

/-!
# Devices

An IED offers access points; the server of an access point holds logical devices, and these hold
logical nodes. A logical device has at most one node of its own, the `LN0`, which comes first.
-/

namespace Substation.Config

/-- A logical node (`LnElement`). -/
structure LogicalNode where
  /-- The class. -/
  lnClass : String
  /-- The type, by the id of its template. -/
  lnType : String
  /-- The instance number. -/
  inst : String
  /-- The first part of the name. -/
  lnPrefix : Option String
  /-- A description. -/
  desc : Option String
  /-- The data sets. -/
  dataSets : List DataSet
  /-- The report control blocks. -/
  reports : List ReportControl
  /-- The log control blocks. -/
  logControls : List LogControl
  /-- The instance values. -/
  instances : List Doi
  /-- The names of the logs. -/
  logs : List String
  /-- The control blocks for event messages. -/
  gseControls : List GseControl
  /-- The control blocks for sampled values. -/
  sampledControls : List SampledControl
  /-- The setting groups. -/
  settings : Option SettingControl

namespace LogicalNode

/-- The name (`LnElement::name`): the first part, the class and the instance number. -/
def name (n : LogicalNode) : String :=
  n.lnPrefix.getD "" ++ n.lnClass ++ n.inst

/-- The first instance values for a data object (`LnElement::doi`). -/
def instance? (n : LogicalNode) (name : String) : Option Doi :=
  n.instances.find? (·.name = name)

end LogicalNode

/-- A logical device (`LDevice`). -/
structure LogicalDevice where
  /-- The instance name. -/
  inst : String
  /-- The name under which the device is addressed. -/
  ldName : Option String
  /-- A description. -/
  desc : Option String
  /-- The device's own node. -/
  ln0 : Option LogicalNode
  /-- The other nodes. -/
  lns : List LogicalNode

/-- The logical nodes in order, the device's own node first (`logical_nodes`). -/
def LogicalDevice.logicalNodes (d : LogicalDevice) : List LogicalNode :=
  d.ln0.toList ++ d.lns

/-- The server of an access point. -/
structure Server where
  /-- The logical devices. -/
  devices : List LogicalDevice

/-- An access point. -/
structure AccessPoint where
  /-- The name. -/
  name : String
  /-- The server, if the access point has one. -/
  server : Option Server

/-- The logical devices of an access point. -/
def AccessPoint.devices (ap : AccessPoint) : List LogicalDevice :=
  match ap.server with
  | none => []
  | some s => s.devices

/-- An intelligent electronic device. -/
structure Ied where
  /-- The name. -/
  name : String
  /-- The manufacturer. -/
  manufacturer : Option String
  /-- The type. -/
  iedType : Option String
  /-- The version of the configuration. -/
  configVersion : Option String
  /-- The access points. -/
  accessPoints : List AccessPoint

end Substation.Config
