import Substation.Config.Literal
import Substation.Config.ControlBlock
import Substation.Emission.ControlStatement
import Substation.Template.Trigger

/-!
# Control blocks as statements

What the statements say about the control blocks of a logical node, with the values that stand for
attributes that are not given.
-/

namespace Substation.Emission

open Substation.Config
open Substation.Template (Triggers bitMask)

/-! ## Bit masks -/

/-- The bit that says that clients own report control blocks (`RCB_OWNER_BIT`). -/
def ownerBit : Nat := 64

/-- The trigger options of a control block; none are set when they are not given
(`trg_ops_bits`). -/
def triggerBits : Option TriggerFlags → Nat
  | none => 0
  | some t => Triggers.bits {
      dchg := flag t.dchg false
      qchg := flag t.qchg false
      dupd := flag t.dupd false
      period := flag t.period false
      gi := flag t.gi true }

/-- The optional fields of a report; none are set when they are not given (`opt_fields_bits`). -/
def reportBits : Option ReportFields → Nat
  | none => 0
  | some f => bitMask [flag f.seqNum false, flag f.timeStamp false, flag f.reasonCode false,
      flag f.dataSet false, flag f.dataRef false, flag f.bufOvfl true, flag f.entryId false,
      flag f.configRef false]

/-- The options of sampled value messages; none are set when they are not given
(`smv_opts_bits`). -/
def sampledBits : Option SampledFields → Nat
  | none => 0
  | some f => bitMask [flag f.refreshTime false, flag f.sampleSynchronized false,
      flag f.sampleRate false, flag f.dataSet false, flag f.security false]

/-! ## Statements -/

/-- The setting groups (`write_setting_group`). -/
def SettingStatement.ofControl (c : SettingControl) : SettingStatement :=
  ⟨(integer? c.actSg).getD 1, (integer? c.numOfSgs).getD 0⟩

/-- The number of numbered instances of a report control block. Instances are numbered when there
are several and numbering is not switched off. -/
def instanceCount (c : ReportControl) : Option Nat :=
  let max := ((c.instances.bind fun i => integer? i.max)).getD 1
  if flag c.indexed true && 1 < max then some max.toNat else none

/-- A report control block; `hasOwner` says whether clients own it (`write_report_control`). -/
def ReportStatement.ofControl (hasOwner : Bool) (c : ReportControl) : ReportStatement where
  name := c.name
  rptId := textOr "-" c.rptId
  buffered := c.buffered.map Text.trim = some "true"
  dataSet := textOr "-" c.dataSet
  confRev := countOrZero c.confRev
  triggers := triggerBits c.triggers + if hasOwner then ownerBit else 0
  optional := reportBits c.fields
  bufTime := textOr "0" c.bufTime
  intgPd := textOr "0" c.intgPd
  instances := instanceCount c

/-- A log control block of a logical node (`write_log_control`). -/
def LogControlStatement.ofControl (device node : String) (c : LogControl) :
    LogControlStatement where
  name := c.name
  dataSet := textOr "-" c.dataSet
  log := match c.logName.filter (!·.isEmpty) with
    | some log => device ++ "/" ++ node ++ "$" ++ log
    | none => "-"
  triggers := triggerBits c.triggers
  intgPd := textOr "0" c.intgPd
  enabled := flag c.logEna true
  reasonCode := flag c.reasonCode true

/-- A length of time as it is written (`time`). -/
def timeText (d : Option Duration) : String := textOr "0" (d.map fun d => Text.trim d.text)

/-- A control block for event messages, with its connection (`write_gse_control`). -/
def GseStatement.ofControl (codec : Text.HexCodec) (connection : Option GseConnection)
    (c : GseControl) : GseStatement where
  name := c.name
  appId := textOr "null" c.appId
  dataSet := textOr "null" c.dataSet
  confRev := countOrZero c.confRev
  fixedOffs := flag c.fixedOffs false
  minTime := timeText (connection.bind GseConnection.minTime)
  maxTime := timeText (connection.bind GseConnection.maxTime)
  frame := Frame.ofAddress? codec (connection.bind GseConnection.address)

/-- A control block for sampled values, with its connection (`write_smv_control`). -/
def SampledStatement.ofControl (codec : Text.HexCodec) (connection : Option SampledConnection)
    (c : SampledControl) : SampledStatement where
  name := c.name
  smvId := textOr "null" c.smvId
  dataSet := textOr "null" c.dataSet
  confRev := countOrZero c.confRev
  smpMod := textOr "0" c.smpMod
  smpRate := countOrZero c.smpRate
  optional := sampledBits c.fields
  multicast := flag c.multicast true
  frame := Frame.ofAddress? codec (connection.bind SampledConnection.address)

end Substation.Emission
