import Substation.Markup.Record

/-!
# The kinds of elements

The part of the configuration language that is read: for each kind of element its attributes, its
elements and whether it holds text. The kind of an element follows from the place where it stands
and its name, so the outermost element may have any name.
-/

namespace Substation.Config

open Substation.Markup

/-- A kind of element. -/
inductive ElementKind where
  | scl | header | ied | accessPoint | server | device | logicalNode
  | objectInstance | subInstance | attributeInstance | val
  | dataSet | member
  | report | triggers | reportFields | reportInstances | logControl | log
  | gseControl | sampledControl | sampledFields | settings
  | communication | subNetwork | connectedAp | address | addressPart
  | gseConnection | sampledConnection | duration
  | types | nodeType | objectType | attributeType | enumType
  | objectEntry | attributeEntry | symbol
deriving DecidableEq, Repr

/-- Attributes that are left out if they are not given. -/
def free (names : List String) : List (String × Need) :=
  names.map (·, .free)

/-- Attributes that are empty if they are not given. -/
def filled (names : List String) : List (String × Need) :=
  names.map (·, .filled)

/-- Attributes that must be given. -/
def mandatory (names : List String) : List (String × Need) :=
  names.map (·, .mandatory)

/-- The parts of the elements of each kind. -/
def schema : ElementKind → Schema ElementKind
  | .scl =>
    { attributes := free ["version", "revision", "release"]
      elements := [("Header", .single .header), ("Communication", .single .communication),
        ("IED", .many .ied), ("DataTypeTemplates", .single .types)] }
  | .header => { attributes := filled ["id"] ++ free ["version", "revision"] }
  | .ied =>
    { attributes := mandatory ["name"] ++ free ["manufacturer", "type", "configVersion"]
      elements := [("AccessPoint", .many .accessPoint)] }
  | .accessPoint =>
    { attributes := mandatory ["name"]
      elements := [("Server", .single .server)] }
  | .server => { elements := [("LDevice", .many .device)] }
  | .device =>
    { attributes := mandatory ["inst"] ++ free ["ldName", "desc"]
      elements := [("LN0", .single .logicalNode), ("LN", .many .logicalNode)] }
  | .logicalNode =>
    { attributes := mandatory ["lnClass", "lnType"] ++ filled ["inst"] ++ free ["prefix", "desc"]
      elements := [("DataSet", .many .dataSet), ("ReportControl", .many .report),
        ("LogControl", .many .logControl), ("DOI", .many .objectInstance), ("Log", .many .log),
        ("GSEControl", .many .gseControl), ("SampledValueControl", .many .sampledControl),
        ("SettingControl", .single .settings)] }
  | .objectInstance =>
    { attributes := mandatory ["name"] ++ free ["ix"]
      elements := [("SDI", .many .subInstance), ("DAI", .many .attributeInstance)] }
  | .subInstance =>
    { attributes := mandatory ["name"] ++ free ["ix"]
      elements := [("SDI", .many .subInstance), ("DAI", .many .attributeInstance)] }
  | .attributeInstance =>
    { attributes := mandatory ["name"] ++ free ["ix", "valKind"]
      elements := [("Val", .many .val)] }
  | .val => { attributes := free ["sGroup"], text := true }
  | .dataSet =>
    { attributes := mandatory ["name"]
      elements := [("FCDA", .many .member)] }
  | .member =>
    { attributes := free ["ldInst", "prefix", "lnClass", "lnInst", "doName", "daName"] ++
        filled ["fc"] ++ free ["ix"] }
  | .report =>
    { attributes := mandatory ["name"] ++
        free ["rptID", "datSet", "confRev", "buffered", "bufTime", "intgPd", "indexed"]
      elements := [("TrgOps", .single .triggers), ("OptFields", .single .reportFields),
        ("RptEnabled", .single .reportInstances)] }
  | .triggers => { attributes := free ["dchg", "qchg", "dupd", "period", "gi"] }
  | .reportFields =>
    { attributes := free ["seqNum", "timeStamp", "reasonCode", "dataSet", "dataRef", "bufOvfl",
        "entryID", "configRef"] }
  | .reportInstances => { attributes := free ["max"] }
  | .logControl =>
    { attributes := mandatory ["name"] ++
        free ["datSet", "intgPd", "ldInst", "prefix", "lnClass", "lnInst", "logName", "logEna",
          "reasonCode"]
      elements := [("TrgOps", .single .triggers)] }
  | .log => { attributes := filled ["name"] }
  | .gseControl =>
    { attributes := mandatory ["name"] ++
        free ["appID", "datSet", "confRev", "fixedOffs", "type"] }
  | .sampledControl =>
    { attributes := mandatory ["name"] ++
        free ["smvID", "datSet", "confRev", "smpMod", "smpRate", "nofASDU", "multicast"]
      elements := [("SmvOpts", .single .sampledFields)] }
  | .sampledFields =>
    { attributes := free ["refreshTime", "sampleSynchronized", "sampleRate", "dataSet",
        "security"] }
  | .settings => { attributes := free ["numOfSGs", "actSG", "resvTms"] }
  | .communication => { elements := [("SubNetwork", .many .subNetwork)] }
  | .subNetwork =>
    { attributes := filled ["name"] ++ free ["type"]
      elements := [("ConnectedAP", .many .connectedAp)] }
  | .connectedAp =>
    { attributes := filled ["iedName", "apName"]
      elements := [("Address", .single .address), ("GSE", .many .gseConnection),
        ("SMV", .many .sampledConnection)] }
  | .address => { elements := [("P", .many .addressPart)] }
  | .addressPart => { attributes := filled ["type"], text := true }
  | .gseConnection =>
    { attributes := free ["ldInst", "cbName"]
      elements := [("Address", .single .address), ("MinTime", .single .duration),
        ("MaxTime", .single .duration)] }
  | .sampledConnection =>
    { attributes := free ["ldInst", "cbName"]
      elements := [("Address", .single .address)] }
  | .duration => { attributes := free ["unit", "multiplier"], text := true }
  | .types =>
    { elements := [("LNodeType", .many .nodeType), ("DOType", .many .objectType),
        ("DAType", .many .attributeType), ("EnumType", .many .enumType)] }
  | .nodeType =>
    { attributes := mandatory ["id"] ++ filled ["lnClass"] ++ free ["desc"]
      elements := [("DO", .many .objectEntry)] }
  | .objectType =>
    { attributes := mandatory ["id"] ++ filled ["cdc"]
      elements := [("SDO", .many .objectEntry), ("DA", .many .attributeEntry)] }
  | .attributeType =>
    { attributes := mandatory ["id"]
      elements := [("BDA", .many .attributeEntry)] }
  | .enumType =>
    { attributes := mandatory ["id"]
      elements := [("EnumVal", .many .symbol)] }
  | .objectEntry => { attributes := free ["name", "type", "count", "transient"] }
  | .attributeEntry =>
    { attributes := free ["name", "bType", "type", "fc", "count", "sAddr", "valKind", "dchg",
        "qchg", "dupd", "period", "gi"]
      elements := [("Val", .many .val)] }
  | .symbol => { attributes := free ["ord"], text := true }

end Substation.Config
