import Substation.Journal.LogLine
import Substation.Template.Definition
import Substation.Text.Quoted

/-!
# Notes

What is logged beside issues: the progress of the work, and circumstances that are worth a remark.
-/

namespace Substation.Journal

open Substation.Template (Kind)

/-- What the work is done for (`ModelContext`): an access point of an IED. -/
structure Subject where
  /-- The IED. -/
  ied : String
  /-- The access point. -/
  ap : String
deriving DecidableEq, Repr

namespace Subject

/-- The mark at the front of a line about the access point (`ModelContext::meta`). -/
def tag (s : Subject) : String := "[ied=" ++ s.ied ++ " ap=" ++ s.ap ++ "] "

/-- The mark at the front of a line about a logical device (`ModelContext::meta`). -/
def deviceTag (s : Subject) (device : String) : String :=
  "[ied=" ++ s.ied ++ " ap=" ++ s.ap ++ " ld=" ++ device ++ "] "

end Subject

/-- How many statements of a kind a logical node has. -/
structure NodeCounts where
  /-- The nodes below it. -/
  objects : Nat
  /-- The data sets. -/
  dataSets : Nat
  /-- The report control blocks. -/
  reports : Nat
  /-- The log control blocks. -/
  logControls : Nat
  /-- The control blocks for event messages. -/
  gseControls : Nat
  /-- The control blocks for sampled values. -/
  sampledControls : Nat
deriving DecidableEq, Repr

/-- An event that is logged and is not an issue. -/
inductive Note where
  /-- A template has the id of an earlier one. -/
  | duplicateTemplate (kind : Kind) (id : String)
  /-- The document has no templates. -/
  | noTemplates
  /-- The templates have been read. -/
  | registered (nodeTypes objectTypes attributeTypes enumTypes : Nat)
  /-- The document has been read. -/
  | loaded (ieds issues : Nat)
  /-- The resolution of an access point begins. -/
  | resolving (subject : Subject)
  /-- The type of a logical node has been expanded. -/
  | expanded (ln : String) (children : Nat)
  /-- A logical node is complete. -/
  | resolvedNode (subject : Subject) (device name : String) (children : Nat)
  /-- The access point is not connected to any subnetwork. -/
  | notConnected (subject : Subject)
  /-- The resolution is complete. -/
  | resolved (subject : Subject) (devices logicalNodes nodes issues : Nat)
  /-- The use of templates has been collected. -/
  | usageCollected (templates : Nat)
  /-- Some templates are not used. -/
  | unused (ied : String) (templates : List (Kind × String))
  /-- The writing begins. -/
  | writing (subject : Subject)
  /-- An event control block is not connected. -/
  | noGse (subject : Subject) (device name : String)
  /-- A sampled value control block is not connected. -/
  | noSampled (subject : Subject) (device name : String)
  /-- A logical node has been written. -/
  | writtenNode (subject : Subject) (device name : String) (counts : NodeCounts)
  /-- The writing is complete. -/
  | written (subject : Subject) (issues : Nat)
deriving DecidableEq, Repr

namespace Note

/-- A list of templates as it is logged. -/
def templateList (templates : List (Kind × String)) : String :=
  "[" ++ ", ".intercalate (templates.map fun (kind, id) =>
    "(" ++ kind.name ++ ", " ++ Text.quoted id ++ ")") ++ "]"

/-- The line that is logged. -/
def logLine : Note → LogLine
  | duplicateTemplate kind id =>
    ⟨.warn, "[SCL] Duplicate " ++ kind.name ++ " id \"" ++ id ++
      "\", keeping the first definition"⟩
  | noTemplates => ⟨.debug, "[SCL] Document has no DataTypeTemplates section"⟩
  | registered ln obj att enum =>
    ⟨.debug, "[SCL] Registered " ++ toString ln ++ " LNodeTypes, " ++ toString obj ++
      " DOTypes, " ++ toString att ++ " DATypes, " ++ toString enum ++ " EnumTypes"⟩
  | loaded ieds issues =>
    ⟨.info, "[SCL] Loaded document with " ++ toString ieds ++ " IED(s), " ++ toString issues ++
      " template issue(s)"⟩
  | resolving s => ⟨.info, s.tag ++ "Resolving data model"⟩
  | expanded ln children =>
    ⟨.trace, "[SCL] Expanded " ++ ln ++ " into " ++ toString children ++ " child nodes"⟩
  | resolvedNode s device name children =>
    ⟨.debug, s.deviceTag device ++ "Resolved LN " ++ name ++ " with " ++ toString children ++
      " data objects"⟩
  | notConnected s => ⟨.debug, s.tag ++ "No ConnectedAP in the Communication section"⟩
  | resolved s devices logicalNodes nodes issues =>
    ⟨.info, s.tag ++ "Resolved " ++ toString devices ++ " LD(s), " ++ toString logicalNodes ++
      " LN(s), " ++ toString nodes ++ " node(s), " ++ toString issues ++ " issue(s)"⟩
  | usageCollected templates =>
    ⟨.trace, "[SCL] Usage pass marked " ++ toString templates ++ " templates"⟩
  | unused ied templates =>
    ⟨.debug, "[SCL] " ++ toString templates.length ++ " template(s) not used by IED " ++ ied ++
      ": " ++ templateList templates⟩
  | writing s => ⟨.info, s.tag ++ "Writing static model"⟩
  | noGse s device name =>
    ⟨.warn, s.deviceTag device ++ "GSEControl " ++ name ++
      " has no GSE entry in the Communication section"⟩
  | noSampled s device name =>
    ⟨.warn, s.deviceTag device ++ "SampledValueControl " ++ name ++
      " has no SMV entry in the Communication section"⟩
  | writtenNode s device name n =>
    ⟨.trace, s.deviceTag device ++ "LN " ++ name ++ ": " ++ toString n.objects ++ " DO, " ++
      toString n.dataSets ++ " DS, " ++ toString n.reports ++ " RC, " ++
      toString n.logControls ++ " LC, " ++ toString n.gseControls ++ " GC, " ++
      toString n.sampledControls ++ " SMVC"⟩
  | written s issues =>
    ⟨.info, s.tag ++ "Static model written with " ++ toString issues ++ " issue(s)"⟩

end Note

end Substation.Journal
