import Substation.Document
import Substation.Model.Expansion
import Substation.Model.InstanceCheck
import Substation.Model.MemberCheck
import Substation.Model.NamePlateCheck
import Substation.Model.UsagePass

/-!
# Resolution

Resolution builds the data model of an access point and checks it. A type that is not defined only
truncates its own part of the model, so resolution fails only if the IED or the access point does
not exist.
-/

namespace Substation

open Substation.Config
open Substation.Journal
open Substation.Model
open Substation.Template

/-- What to check, and how deep to go. -/
structure ResolveOptions where
  /-- How many levels of types may be nested below a logical node. -/
  maxDepth : Nat := 64
  /-- Whether to check the members of data sets. -/
  checkMembers : Bool := true
  /-- Whether to check the configuration revisions of logical devices. -/
  checkConfigRev : Bool := true
  /-- Whether to check namespaces. -/
  checkNamespaces : Bool := true

/-- The model of an access point, and what was found on the way (`ResolvedIed`). -/
structure Resolution where
  /-- The access point. -/
  subject : Subject
  /-- The data model. -/
  model : IedModel
  /-- The journal of the resolution. -/
  journal : List Entry
  /-- The templates that are used. -/
  usage : Usage

namespace Resolution

/-- The issues that were found. -/
def issues (res : Resolution) : IssueLog := issueLog res.journal

/-! ## Checks of a logical node -/

/-- Checks the namespace of the given name on a name plate, and sets it on the node `target`
(`check_one`). -/
def checkSpace (device ln target : Nat) (name : String) (g : Growth) : Growth :=
  match g.model.branch? ln with
  | none => g
  | some b =>
    match b.node.kind.config? with
    | none => g
    | some config =>
      let value := spaceValue b config name
      let deviceName := ((g.model.node? device).map Node.name).getD ""
      let location := deviceName ++ "/" ++ b.name ++ ".NamPlt." ++ name
      let g := g.report (spaceFindings b location value)
      match value.space? with
      | none => g
      | some space => g.onModel (·.setSpace target space)

/-- Checks the namespaces of a logical node; that of the device stands on its `LLN0`
(`check_namespaces`). -/
def checkSpaces (device ln : Nat) (config : LogicalNode) (g : Growth) : Growth :=
  checkSpace device ln ln "lnNs" <|
    if config.lnClass = "LLN0" then checkSpace device ln device "ldNs" g else g

/-- Checks a logical node. -/
def checkNode (r : Registry) (o : ResolveOptions) (inst : String) (device ln : Nat)
    (config : LogicalNode) (g : Growth) : Growth :=
  let branch := g.model.branch? ln
  let g := g.report (branch.toList.flatMap (instanceFindings r))
  let g := if o.checkConfigRev && config.lnClass = "LLN0" then
      g.report (branch.toList.flatMap (configRevFindings inst))
    else g
  if o.checkNamespaces then checkSpaces device ln config g else g

/-! ## Building the model -/

/-- Runs work that takes back what is too deep by itself. -/
def grow (work : Grow Nat) (g : Growth) : Option Nat × Growth :=
  let (result, g) := work.run.run g
  (result.toOption, g)

/-- Adds a logical node and checks it. -/
def addNode (r : Registry) (o : ResolveOptions) (subject : Subject) (inst : String)
    (device : Nat) (g : Growth) (config : LogicalNode) : Growth :=
  match grow (addLogicalNode r o.maxDepth device config) g with
  | (none, g) => g
  | (some ln, g) =>
    checkNode r o inst device ln config <| g.enter <| .note <|
      .resolvedNode subject inst (((g.model.node? ln).map Node.name).getD "")
        (g.model.children ln).length

/-- The name of a logical device: its own name, or else the IED's name with the instance name. -/
def deviceName (ied : String) (d : LogicalDevice) : String := d.ldName.getD (ied ++ d.inst)

/-- Adds a logical device with its logical nodes. -/
def addDevice (r : Registry) (o : ResolveOptions) (subject : Subject) (g : Growth)
    (d : LogicalDevice) : Growth :=
  let device := g.model.size
  d.logicalNodes.foldl (addNode r o subject d.inst device)
    (g.onModel (·.addDevice (deviceName subject.ied d) d.inst))

/-! ## The whole access point -/

/-- Checks the address of the access point and those of its control blocks. -/
def checkConnection (subject : Subject) (g : Growth) : Option ConnectedAp → Growth
  | none => g.enter (.note (.notConnected subject))
  | some cap => g.report ((Address.connectionFaults cap).map fun (object, fault) =>
      .badAddress object fault)

/-- The note at the end of a resolution. -/
def closing (subject : Subject) (g : Growth) : Note :=
  .resolved subject g.model.devices.length (g.model.devices.flatMap g.model.logicalNodes).length
    g.model.size (issueLog g.journal.toList).size

/-- Builds and checks the model of an access point (`resolve_ied`). -/
def ofAccessPoint (d : Document) (o : ResolveOptions) (ied : Ied) (ap : AccessPoint) :
    Resolution :=
  let subject := { ied := ied.name, ap := ap.name }
  let g : Growth := { model := { name := ied.name } }
  let g := g.enter (.note (.resolving subject))
  let g := ap.devices.foldl (addDevice d.registry o subject) g
  let g := if o.checkMembers then g.report (memberFindings d.registry g.model) else g
  let g := checkConnection subject g (d.connectedAp? ap.name ied.name)
  let g := g.enter (.note (closing subject g))
  { subject, model := g.model, journal := g.journal.toList, usage := usageOf g.journal.toList }

/-- Collects the use of templates from the model, in place of what was recorded before
(`track_usage`). -/
def trackUsage (d : Document) (o : ResolveOptions) (res : Resolution) : Resolution :=
  { res with usage := modelUsage d.registry o.maxDepth res.model }

end Resolution

/-- The access point of a name, or the first one if no name is asked for. -/
def accessPoint? (ied : Config.Ied) : Option String → Option AccessPoint
  | none => ied.accessPoints.head?
  | some name => ied.accessPoints.find? (·.name = name)

/-- Resolves an access point of an IED (`resolve_ied`). -/
def resolve (d : Document) (ied : String) (ap : Option String) (o : ResolveOptions) :
    Except Failure Resolution :=
  match d.ied? ied with
  | none => .error (.noIed ied)
  | some i =>
    match accessPoint? i ap with
    | none => .error (.noAccessPoint ied (ap.getD ""))
    | some a => .ok (.ofAccessPoint d o i a)

end Substation
