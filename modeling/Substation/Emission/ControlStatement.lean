import Substation.Address.Physical
import Substation.Emission.Script
import Substation.Text.Numeral

/-!
# Statements for control blocks

Each statement holds what is written between its parentheses, field by field. Numbers and flags are
already read; texts are written as they are.
-/

namespace Substation.Emission

/-- Fields with blanks between them. -/
def spaced (fs : List String) : String := " ".intercalate fs

/-- A flag as a digit. -/
def flagDigit (b : Bool) : String := if b then "1" else "0"

/-- The setting groups of a logical device. -/
structure SettingStatement where
  /-- The active one. -/
  active : Int
  /-- How many there are. -/
  number : Int
deriving DecidableEq, Repr

/-- The line (`write_setting_group`). -/
def SettingStatement.script (s : SettingStatement) : Script :=
  .line ("SG(" ++ spaced [toString s.active, toString s.number] ++ ")")

/-- A report control block. -/
structure ReportStatement where
  /-- The name. -/
  name : String
  /-- The identification in reports. -/
  rptId : String
  /-- Whether reports are buffered. -/
  buffered : Bool
  /-- The data set. -/
  dataSet : String
  /-- The configuration revision. -/
  confRev : Int
  /-- The bit mask of the trigger options. -/
  triggers : Nat
  /-- The bit mask of the optional fields. -/
  optional : Nat
  /-- The buffer time. -/
  bufTime : String
  /-- The integrity period. -/
  intgPd : String
  /-- The number of numbered instances, if the instances are numbered. -/
  instances : Option Nat
deriving DecidableEq, Repr

namespace ReportStatement

/-- The line of an instance (`write_report_instance`). -/
def line (s : ReportStatement) (name : String) : String :=
  "RC(" ++ spaced [name, s.rptId, flagDigit s.buffered, s.dataSet, toString s.confRev,
    toString s.triggers, toString s.optional, s.bufTime, s.intgPd] ++ ");"

/-- The name of the instance of a number, counted from one. -/
def instanceName (s : ReportStatement) (number : Nat) : String :=
  s.name ++ Text.padded 2 number

/-- The lines (`write_report_control`): one for each numbered instance, or one for the block as
such. -/
def script (s : ReportStatement) : Script :=
  match s.instances with
  | none => .line (s.line s.name)
  | some n => .each n fun i => .line (s.line (s.instanceName (i + 1)))

end ReportStatement

/-- A log control block. -/
structure LogControlStatement where
  /-- The name. -/
  name : String
  /-- The data set. -/
  dataSet : String
  /-- The log. -/
  log : String
  /-- The bit mask of the trigger options. -/
  triggers : Nat
  /-- The integrity period. -/
  intgPd : String
  /-- Whether logging is enabled. -/
  enabled : Bool
  /-- Whether entries carry their reason. -/
  reasonCode : Bool
deriving DecidableEq, Repr

/-- The line (`write_log_control`). -/
def LogControlStatement.script (s : LogControlStatement) : Script :=
  .line ("LC(" ++ spaced [s.name, s.dataSet, s.log, toString s.triggers, s.intgPd,
    flagDigit s.enabled, flagDigit s.reasonCode] ++ ");")

/-- A log (`write_log`). -/
def logScript (name : String) : Script := .line ("LOG(" ++ name ++ ");")

/-- The frame of the messages of a control block. -/
structure Frame where
  /-- The priority in the virtual network. -/
  vlanPriority : String
  /-- The virtual network. -/
  vlanId : String
  /-- The application. -/
  appId : String
  /-- The hardware address. -/
  mac : Text.HexString
deriving DecidableEq, Repr

namespace Frame

/-- The frame of an address; there is none without a readable hardware address. -/
def ofAddress? (codec : Text.HexCodec) (address : Option Config.Address) : Option Frame := do
  let physical := Address.Physical.ofAddress codec (← address)
  return ⟨physical.vlanPriority, physical.vlanId, physical.appId, ← physical.macHex? codec⟩

/-- The line (`write_physical_address`). -/
def line (f : Frame) : String :=
  "PA(" ++ spaced [f.vlanPriority, f.vlanId, f.appId, f.mac.text] ++ ");"

/-- A statement that may be followed by a frame (`write_physical_address`). -/
def script (head : String) : Option Frame → Script
  | none => .line (head ++ ";")
  | some f => .line (head ++ "\x7b") ++ .line f.line ++ .line "\x7d"

end Frame

/-- A control block for event messages. -/
structure GseStatement where
  /-- The name. -/
  name : String
  /-- The application. -/
  appId : String
  /-- The data set. -/
  dataSet : String
  /-- The configuration revision. -/
  confRev : Int
  /-- Whether offsets are fixed. -/
  fixedOffs : Bool
  /-- The shortest time between messages. -/
  minTime : String
  /-- The longest time between messages. -/
  maxTime : String
  /-- The frame of the messages. -/
  frame : Option Frame
deriving DecidableEq, Repr

/-- The lines (`write_gse_control`). -/
def GseStatement.script (s : GseStatement) : Script :=
  Frame.script ("GC(" ++ spaced [s.name, s.appId, s.dataSet, toString s.confRev,
    flagDigit s.fixedOffs, s.minTime, s.maxTime] ++ ")") s.frame

/-- A control block for sampled values. -/
structure SampledStatement where
  /-- The name. -/
  name : String
  /-- The identification in messages. -/
  smvId : String
  /-- The data set. -/
  dataSet : String
  /-- The configuration revision. -/
  confRev : Int
  /-- The unit of the sample rate. -/
  smpMod : String
  /-- The sample rate. -/
  smpRate : Int
  /-- The bit mask of the options. -/
  optional : Nat
  /-- Whether messages go to many receivers. -/
  multicast : Bool
  /-- The frame of the messages. -/
  frame : Option Frame
deriving DecidableEq, Repr

/-- The lines (`write_smv_control`). -/
def SampledStatement.script (s : SampledStatement) : Script :=
  Frame.script ("SMVC(" ++ spaced [s.name, s.smvId, s.dataSet, toString s.confRev, s.smpMod,
    toString s.smpRate, toString s.optional, flagDigit s.multicast] ++ ")") s.frame

end Substation.Emission
