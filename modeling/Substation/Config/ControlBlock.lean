/-!
# Control blocks

The blocks of a logical node that govern reporting, logging, event messages, sampled values and
setting groups. All attributes are kept as written.
-/

namespace Substation.Config

/-- The events that make a report or log entry due. -/
structure TriggerFlags where
  /-- A change of the data. -/
  dchg : Option String
  /-- A change of the quality. -/
  qchg : Option String
  /-- An update of the data. -/
  dupd : Option String
  /-- The end of a period. -/
  period : Option String
  /-- A general interrogation. -/
  gi : Option String
deriving DecidableEq, Repr

/-- The optional fields of a report. -/
structure ReportFields where
  /-- The sequence number. -/
  seqNum : Option String
  /-- The time stamp. -/
  timeStamp : Option String
  /-- The reason for inclusion. -/
  reasonCode : Option String
  /-- The name of the data set. -/
  dataSet : Option String
  /-- The reference of each datum. -/
  dataRef : Option String
  /-- The overflow mark of the buffer. -/
  bufOvfl : Option String
  /-- The entry's identification. -/
  entryId : Option String
  /-- The configuration revision. -/
  configRef : Option String
deriving DecidableEq, Repr

/-- The instances of a report control block. -/
structure ReportInstances where
  /-- How many there are. -/
  max : Option String
deriving DecidableEq, Repr

/-- A report control block. -/
structure ReportControl where
  /-- The name. -/
  name : String
  /-- The identification in reports. -/
  rptId : Option String
  /-- The data set. -/
  dataSet : Option String
  /-- The configuration revision. -/
  confRev : Option String
  /-- Whether reports are buffered. -/
  buffered : Option String
  /-- The buffer time. -/
  bufTime : Option String
  /-- The integrity period. -/
  intgPd : Option String
  /-- Whether instances are numbered. -/
  indexed : Option String
  /-- The events that make a report due. -/
  triggers : Option TriggerFlags
  /-- The optional fields. -/
  fields : Option ReportFields
  /-- The instances. -/
  instances : Option ReportInstances
deriving DecidableEq, Repr

/-- A log control block. -/
structure LogControl where
  /-- The name. -/
  name : String
  /-- The data set. -/
  dataSet : Option String
  /-- The integrity period. -/
  intgPd : Option String
  /-- The logical device of the log. -/
  ldInst : Option String
  /-- The first part of the name of the log's logical node. -/
  lnPrefix : Option String
  /-- The class of the log's logical node. -/
  lnClass : Option String
  /-- The instance number of the log's logical node. -/
  lnInst : Option String
  /-- The log. -/
  logName : Option String
  /-- Whether logging is enabled. -/
  logEna : Option String
  /-- Whether entries carry their reason. -/
  reasonCode : Option String
  /-- The events that make an entry due. -/
  triggers : Option TriggerFlags
deriving DecidableEq, Repr

/-- A control block for event messages. -/
structure GseControl where
  /-- The name. -/
  name : String
  /-- The application. -/
  appId : Option String
  /-- The data set. -/
  dataSet : Option String
  /-- The configuration revision. -/
  confRev : Option String
  /-- Whether offsets are fixed. -/
  fixedOffs : Option String
  /-- The kind of messages. -/
  gseType : Option String
deriving DecidableEq, Repr

/-- The options of sampled value messages. -/
structure SampledFields where
  /-- The refresh time. -/
  refreshTime : Option String
  /-- The mark of synchronised sampling. -/
  sampleSynchronized : Option String
  /-- The sample rate. -/
  sampleRate : Option String
  /-- The name of the data set. -/
  dataSet : Option String
  /-- Security. -/
  security : Option String
deriving DecidableEq, Repr

/-- A control block for sampled values. -/
structure SampledControl where
  /-- The name. -/
  name : String
  /-- The identification in messages. -/
  smvId : Option String
  /-- The data set. -/
  dataSet : Option String
  /-- The configuration revision. -/
  confRev : Option String
  /-- The unit of the sample rate. -/
  smpMod : Option String
  /-- The sample rate. -/
  smpRate : Option String
  /-- The number of data units in a message. -/
  nofAsdu : Option String
  /-- Whether messages go to many receivers. -/
  multicast : Option String
  /-- The options. -/
  fields : Option SampledFields
deriving DecidableEq, Repr

/-- The setting groups of a logical device. -/
structure SettingControl where
  /-- How many there are. -/
  numOfSgs : Option String
  /-- The active one. -/
  actSg : Option String
  /-- How long an edit is reserved. -/
  resvTms : Option String
deriving DecidableEq, Repr

end Substation.Config
