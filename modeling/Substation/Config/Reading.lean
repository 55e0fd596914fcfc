import Substation.Config.Device
import Substation.Config.Network
import Substation.Config.Schema
import Substation.Config.TypeSection
import Substation.Markup.Reading

/-!
# Configuration from records

A record of a kind holds everything that an element of the kind can say, so the configuration is
read off it without further failure. `Scl.ofText` reads a whole document.
-/

namespace Substation.Config

open Substation.Markup

/-- The identification of a document. -/
structure Header where
  /-- The id. -/
  id : String
  /-- The version. -/
  version : Option String
  /-- The revision. -/
  revision : Option String
deriving DecidableEq, Repr

/-- A configuration document. -/
structure Scl where
  /-- The version of the language. -/
  version : Option String
  /-- The revision of the language. -/
  revision : Option String
  /-- The release of the language. -/
  release : Option String
  /-- The identification. -/
  header : Option Header
  /-- The communication section. -/
  communication : Option Communication
  /-- The IEDs. -/
  ieds : List Ied
  /-- The data type templates. -/
  types : Option TypeSection

/-! ## Instance values -/

/-- Reads a value. -/
def Val.ofRecord (r : Record) : Val :=
  ⟨r.value? "sGroup", r.text⟩

/-- Reads the values of an attribute. -/
def Dai.ofRecord (r : Record) : Dai :=
  ⟨r.value "name", r.value? "ix", r.value? "valKind", (r.elements "Val").map Val.ofRecord⟩

/-- Reads nested instance values. -/
def Sdi.ofRecord (r : Record) : Sdi :=
  .mk (r.value "name") (r.value? "ix")
    ((r.elements "SDI").attach.map fun ⟨e, _⟩ => Sdi.ofRecord e)
    ((r.elements "DAI").map Dai.ofRecord)
termination_by sizeOf r
decreasing_by exact Record.sizeOf_lt_of_mem_elements ‹_›

/-- Reads the instance values of a data object. -/
def Doi.ofRecord (r : Record) : Doi :=
  ⟨r.value "name", r.value? "ix", (r.elements "SDI").map Sdi.ofRecord,
    (r.elements "DAI").map Dai.ofRecord⟩

/-! ## Data sets and control blocks -/

/-- Reads a member of a data set. -/
def Fcda.ofRecord (r : Record) : Fcda where
  ldInst := r.value? "ldInst"
  lnPrefix := r.value? "prefix"
  lnClass := r.value? "lnClass"
  lnInst := r.value? "lnInst"
  doName := r.value? "doName"
  daName := r.value? "daName"
  fc := r.value "fc"
  index := r.value? "ix"

/-- Reads a data set. -/
def DataSet.ofRecord (r : Record) : DataSet :=
  ⟨r.value "name", (r.elements "FCDA").map Fcda.ofRecord⟩

/-- Reads trigger flags. -/
def TriggerFlags.ofRecord (r : Record) : TriggerFlags where
  dchg := r.value? "dchg"
  qchg := r.value? "qchg"
  dupd := r.value? "dupd"
  period := r.value? "period"
  gi := r.value? "gi"

/-- Reads the optional fields of a report. -/
def ReportFields.ofRecord (r : Record) : ReportFields where
  seqNum := r.value? "seqNum"
  timeStamp := r.value? "timeStamp"
  reasonCode := r.value? "reasonCode"
  dataSet := r.value? "dataSet"
  dataRef := r.value? "dataRef"
  bufOvfl := r.value? "bufOvfl"
  entryId := r.value? "entryID"
  configRef := r.value? "configRef"

/-- Reads a report control block. -/
def ReportControl.ofRecord (r : Record) : ReportControl where
  name := r.value "name"
  rptId := r.value? "rptID"
  dataSet := r.value? "datSet"
  confRev := r.value? "confRev"
  buffered := r.value? "buffered"
  bufTime := r.value? "bufTime"
  intgPd := r.value? "intgPd"
  indexed := r.value? "indexed"
  triggers := (r.element? "TrgOps").map TriggerFlags.ofRecord
  fields := (r.element? "OptFields").map ReportFields.ofRecord
  instances := (r.element? "RptEnabled").map fun e => ⟨e.value? "max"⟩

/-- Reads a log control block. -/
def LogControl.ofRecord (r : Record) : LogControl where
  name := r.value "name"
  dataSet := r.value? "datSet"
  intgPd := r.value? "intgPd"
  ldInst := r.value? "ldInst"
  lnPrefix := r.value? "prefix"
  lnClass := r.value? "lnClass"
  lnInst := r.value? "lnInst"
  logName := r.value? "logName"
  logEna := r.value? "logEna"
  reasonCode := r.value? "reasonCode"
  triggers := (r.element? "TrgOps").map TriggerFlags.ofRecord

/-- Reads a control block for event messages. -/
def GseControl.ofRecord (r : Record) : GseControl where
  name := r.value "name"
  appId := r.value? "appID"
  dataSet := r.value? "datSet"
  confRev := r.value? "confRev"
  fixedOffs := r.value? "fixedOffs"
  gseType := r.value? "type"

/-- Reads the options of sampled value messages. -/
def SampledFields.ofRecord (r : Record) : SampledFields where
  refreshTime := r.value? "refreshTime"
  sampleSynchronized := r.value? "sampleSynchronized"
  sampleRate := r.value? "sampleRate"
  dataSet := r.value? "dataSet"
  security := r.value? "security"

/-- Reads a control block for sampled values. -/
def SampledControl.ofRecord (r : Record) : SampledControl where
  name := r.value "name"
  smvId := r.value? "smvID"
  dataSet := r.value? "datSet"
  confRev := r.value? "confRev"
  smpMod := r.value? "smpMod"
  smpRate := r.value? "smpRate"
  nofAsdu := r.value? "nofASDU"
  multicast := r.value? "multicast"
  fields := (r.element? "SmvOpts").map SampledFields.ofRecord

/-- Reads the setting groups. -/
def SettingControl.ofRecord (r : Record) : SettingControl where
  numOfSgs := r.value? "numOfSGs"
  actSg := r.value? "actSG"
  resvTms := r.value? "resvTms"

/-! ## Devices -/

/-- Reads a logical node. -/
def LogicalNode.ofRecord (r : Record) : LogicalNode where
  lnClass := r.value "lnClass"
  lnType := r.value "lnType"
  inst := r.value "inst"
  lnPrefix := r.value? "prefix"
  desc := r.value? "desc"
  dataSets := (r.elements "DataSet").map DataSet.ofRecord
  reports := (r.elements "ReportControl").map ReportControl.ofRecord
  logControls := (r.elements "LogControl").map LogControl.ofRecord
  instances := (r.elements "DOI").map Doi.ofRecord
  logs := (r.elements "Log").map fun e => e.value "name"
  gseControls := (r.elements "GSEControl").map GseControl.ofRecord
  sampledControls := (r.elements "SampledValueControl").map SampledControl.ofRecord
  settings := (r.element? "SettingControl").map SettingControl.ofRecord

/-- Reads a logical device. -/
def LogicalDevice.ofRecord (r : Record) : LogicalDevice where
  inst := r.value "inst"
  ldName := r.value? "ldName"
  desc := r.value? "desc"
  ln0 := (r.element? "LN0").map LogicalNode.ofRecord
  lns := (r.elements "LN").map LogicalNode.ofRecord

/-- Reads an access point. -/
def AccessPoint.ofRecord (r : Record) : AccessPoint where
  name := r.value "name"
  server := (r.element? "Server").map fun s => ⟨(s.elements "LDevice").map LogicalDevice.ofRecord⟩

/-- Reads an IED. -/
def Ied.ofRecord (r : Record) : Ied where
  name := r.value "name"
  manufacturer := r.value? "manufacturer"
  iedType := r.value? "type"
  configVersion := r.value? "configVersion"
  accessPoints := (r.elements "AccessPoint").map AccessPoint.ofRecord

/-! ## Communication -/

/-- Reads an address. -/
def Address.ofRecord (r : Record) : Address :=
  ⟨(r.elements "P").map fun p => ⟨p.value "type", p.text⟩⟩

/-- Reads a length of time. -/
def Duration.ofRecord (r : Record) : Duration :=
  ⟨r.value? "unit", r.value? "multiplier", r.text⟩

/-- Reads the connection of an event control block. -/
def GseConnection.ofRecord (r : Record) : GseConnection where
  ldInst := r.value? "ldInst"
  cbName := r.value? "cbName"
  address := (r.element? "Address").map Address.ofRecord
  minTime := (r.element? "MinTime").map Duration.ofRecord
  maxTime := (r.element? "MaxTime").map Duration.ofRecord

/-- Reads the connection of a sampled value control block. -/
def SampledConnection.ofRecord (r : Record) : SampledConnection where
  ldInst := r.value? "ldInst"
  cbName := r.value? "cbName"
  address := (r.element? "Address").map Address.ofRecord

/-- Reads the connection of an access point. -/
def ConnectedAp.ofRecord (r : Record) : ConnectedAp where
  iedName := r.value "iedName"
  apName := r.value "apName"
  address := (r.element? "Address").map Address.ofRecord
  gse := (r.elements "GSE").map GseConnection.ofRecord
  sampled := (r.elements "SMV").map SampledConnection.ofRecord

/-- Reads the communication section. -/
def Communication.ofRecord (r : Record) : Communication :=
  ⟨(r.elements "SubNetwork").map fun s =>
    ⟨s.value "name", s.value? "type", (s.elements "ConnectedAP").map ConnectedAp.ofRecord⟩⟩

/-! ## Data type templates -/

/-- Reads a data object of a template. -/
def ObjectEntry.ofRecord (r : Record) : ObjectEntry where
  name := r.value? "name"
  typeId := r.value? "type"
  count := r.value? "count"
  transient := r.value? "transient"

/-- Reads a data attribute of a template. -/
def AttributeEntry.ofRecord (r : Record) : AttributeEntry where
  name := r.value? "name"
  bType := r.value? "bType"
  typeId := r.value? "type"
  fc := r.value? "fc"
  count := r.value? "count"
  sAddr := r.value? "sAddr"
  dchg := r.value? "dchg"
  qchg := r.value? "qchg"
  dupd := r.value? "dupd"
  period := r.value? "period"
  gi := r.value? "gi"
  values := (r.elements "Val").map Val.ofRecord

/-- Reads the data type templates. -/
def TypeSection.ofRecord (r : Record) : TypeSection where
  nodeTypes := (r.elements "LNodeType").map fun t =>
    ⟨t.value "id", t.value "lnClass", (t.elements "DO").map ObjectEntry.ofRecord⟩
  objectTypes := (r.elements "DOType").map fun t =>
    ⟨t.value "id", t.value "cdc", (t.elements "SDO").map ObjectEntry.ofRecord,
      (t.elements "DA").map AttributeEntry.ofRecord⟩
  attributeTypes := (r.elements "DAType").map fun t =>
    ⟨t.value "id", (t.elements "BDA").map AttributeEntry.ofRecord⟩
  enumTypes := (r.elements "EnumType").map fun t =>
    ⟨t.value "id", (t.elements "EnumVal").map fun v => ⟨v.value? "ord", v.text⟩⟩

/-! ## Documents -/

/-- Reads the outermost element. -/
def Scl.ofRecord (r : Record) : Scl where
  version := r.value? "version"
  revision := r.value? "revision"
  release := r.value? "release"
  header := (r.element? "Header").map fun h =>
    ⟨h.value "id", h.value? "version", h.value? "revision"⟩
  communication := (r.element? "Communication").map Communication.ofRecord
  ieds := (r.elements "IED").map Ied.ofRecord
  types := (r.element? "DataTypeTemplates").map TypeSection.ofRecord

/-- Reads a document. -/
def Scl.ofText (text : String) : Except Fault Scl :=
  (readDocument schema .scl text).map Scl.ofRecord

end Substation.Config
