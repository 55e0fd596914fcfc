import Mathlib.Data.List.Basic
import Mathlib.Tactic.Common
import Substation.Proofs.CheckedPlates
import Substation.Proofs.MemberNodes

/-!
# The namespaces of a resolved model

The check of a logical node sets the namespaces that its name plate gives and reports on each of
them (`SpacesChecked`). Over a whole resolution the last namespace that an `LLN0` gives to its
logical device is the one that stays (`namespaces_checked`).

Results:
* `namespaces_checked` (`check_namespaces`, `namespace_value`, `check_one`): what is reported, and
  which namespaces are set.
-/

namespace Substation

open Substation.Config
open Substation.Journal
open Substation.Model
open Substation.Resolution
open Substation.Template

namespace Resolution

/-- The findings report what there is to report on a namespace, and that once. -/
def Reports (device : String) (ln : Branch) (config : LogicalNode) (name : String)
    (fs : List Finding) : Prop :=
  (∀ i, i ∈ fs.map Finding.issue ↔ SpaceIssue device ln config name i) ∧ fs.length ≤ 1

theorem reports_plateSpaceFindings (device : String) (ln : Branch) (config : LogicalNode)
    (name : String) :
    Reports device ln config name (plateSpaceFindings device ln config name) :=
  ⟨mem_map_issue_plateSpaceFindings device ln config name,
    length_plateSpaceFindings device ln config name⟩

/-- What the check of the namespaces of a logical node does. It sets the namespaces that the
effective values stand for, that of the logical device and that of the logical node, and leaves
everything else in the table as it was; and it records what there is to report on the one and the
other. -/
structure SpacesChecked (g after : Growth) (dev ln : Branch) (config : LogicalNode) : Prop where
  name : after.model.name = g.model.name
  devices : after.model.devices = g.model.devices
  device : after.model.node? dev.id =
    some (dev.node.withSpace? ((deviceSpace? ln config).bind Namespace.parse?))
  node : after.model.node? ln.id =
    some (ln.node.withSpace? ((effectiveSpace? ln config "lnNs").bind Namespace.parse?))
  others : ∀ id, id ≠ dev.id → id ≠ ln.id → after.model.node? id = g.model.node? id
  reports : ∃ ofDevice ofNode : List Finding,
    after.journal.toList = g.journal.toList ++ (ofDevice ++ ofNode).map .finding ∧
    issueLog after.journal.toList =
      (issueLog g.journal.toList).pushAll ((ofDevice ++ ofNode).map Finding.issue) ∧
    (if config.lnClass = "LLN0" then Reports dev.name ln config "ldNs" ofDevice
      else ofDevice = []) ∧
    Reports dev.name ln config "lnNs" ofNode

theorem spacesChecked_checkSpaces {g : Growth} {dev ln : Branch} {config : LogicalNode}
    (hdev : dev.Stands g.model) (hln : ln ∈ dev.branches)
    (hconfig : ln.node.kind.config? = some config) :
    SpacesChecked g (checkSpaces dev.id ln.id config g) dev ln config := by
  have hlt := hdev.id_lt hln
  have hnode := (hdev.of_mem hln).node?
  have hcheck := checkSpaces_eq hdev hln hconfig
  rw [hcheck]
  constructor
  · simp [Growth.onModel, Growth.report]
  · simp [Growth.onModel, Growth.report]
  · simp only [Growth.onModel, Growth.report]
    rw [IedModel.node?_setSpace?, if_neg (Nat.ne_of_lt hlt), IedModel.node?_setSpace?, if_pos rfl,
      hdev.node?]
    rfl
  · simp only [Growth.onModel, Growth.report]
    rw [IedModel.node?_setSpace?, if_pos rfl, IedModel.node?_setSpace?, if_neg (Nat.ne_of_gt hlt),
      hnode]
    rfl
  · intro id hdevice hother
    simp only [Growth.onModel, Growth.report]
    rw [IedModel.node?_setSpace?, if_neg hother, IedModel.node?_setSpace?, if_neg hdevice]
  · let ofDevice := if config.lnClass = "LLN0" then plateSpaceFindings dev.name ln config "ldNs"
      else []
    let ofNode := plateSpaceFindings dev.name ln config "lnNs"
    have hjournal : (Growth.report (plateSpacesFindings dev.name ln config) g).journal.toList =
        g.journal.toList ++ (ofDevice ++ ofNode).map .finding :=
      Array.toList_appendList
    refine ⟨ofDevice, ofNode, hjournal, ?_, ?_, reports_plateSpaceFindings ..⟩
    · show issueLog (Growth.report (plateSpacesFindings dev.name ln config) g).journal.toList = _
      rw [hjournal, issueLog_append, issuesOf_map_finding]
    · by_cases hclass : config.lnClass = "LLN0"
      · simp only [ofDevice, hclass, if_true]
        exact reports_plateSpaceFindings ..
      · simp only [ofDevice, hclass, if_false]

end Resolution

/-- The log has an issue about a namespace if and only if it was to be reported for one of the
logical nodes. -/
theorem mem_issues_iff_spaceIssue {d : Document} {ied : String} {ap : Option String}
    {o : ResolveOptions} {res : Resolution} (h : resolve d ied ap o = .ok res)
    (hspaces : o.checkNamespaces) {i : Issue} (hi : ['N', 'a', 'm'] <+: i.message.toList) :
    i ∈ res.issues.issues ↔ ∃ dev inst ln config, Branch.IsNodeOf res.model dev inst ln config ∧
      ∃ name ∈ spaceNames config, SpaceIssue dev.name ln config name i := by
  rw [mem_issues_iff_of_isPrefix h (t := .space) (by decide) (by decide) hi]
  refine exists_congr fun dev => exists_congr fun inst => exists_congr fun ln =>
    exists_congr fun config => and_congr_right fun hnode => ?_
  rw [← mem_map_issue_plateSpacesFindings, List.mem_map]
  refine exists_congr fun f => and_congr_left fun _ => ?_
  rw [mem_plateFindings_space hnode.config]
  simp [hspaces]

/-- The effective namespaces that the logical nodes of class `LLN0` give to their logical device, in
the order of the logical nodes. -/
def deviceSpaces (dev : Branch) : List String :=
  dev.branches.filterMap fun ln => ln.node.kind.config?.bind (deviceSpace? ln)

/-- What the checks of the namespaces leave behind in a resolution: a logical device has the last of
the namespaces that it was given, a logical node has its own, and the log has what there was to
report. -/
structure SpacesResolved (res : Resolution) : Prop where
  device : ∀ dev : Branch, dev.Stands res.model → ∀ inst space,
    dev.node.kind = .device inst space →
      space = ((deviceSpaces dev).filterMap Namespace.parse?).getLast?
  node : ∀ ln : Branch, ln.Stands res.model → ∀ config space,
    ln.node.kind = .logicalNode config space →
      space = (effectiveSpace? ln config "lnNs").bind Namespace.parse?
  issues : ∀ i : Issue, "Namespace on ".toList <+: i.message.toList →
    (i ∈ res.issues.issues ↔ ∃ dev inst ln config, Branch.IsNodeOf res.model dev inst ln config ∧
      ∃ name ∈ spaceNames config, SpaceIssue dev.name ln config name i)

theorem spacesResolved_of_resolve {d : Document} {ied : String} {ap : Option String}
    {o : ResolveOptions} {res : Resolution} (h : resolve d ied ap o = .ok res)
    (hspaces : o.checkNamespaces) : SpacesResolved res := by
  have hplated := plated_of_resolve h
  constructor
  · intro dev hdev inst space hkind
    have hsettled := hplated.settled dev hdev (by rw [hkind]; rfl)
    have hgiven : (deviceSpaces dev).filterMap Namespace.parse? =
        dev.branches.filterMap (givenSpace? o) := by
      rw [deviceSpaces, List.filterMap_filterMap]
      refine List.filterMap_congr fun ln _ => ?_
      simp [givenSpace?, hspaces]
    rw [hgiven]
    exact hsettled.device hkind
  · intro ln hln config space hkind
    obtain ⟨i, a, -, -, hstage⟩ := stage_of_resolve h
    obtain ⟨dev, hdev, hmem⟩ := hln.exists_above hstage.lawful (by rw [hkind]; rfl)
    have hk := (hdev.law_of_mem hstage.lawful hmem).1.isDevice_of_isLogicalNode (by rw [hkind]; rfl)
    have hsettled := hplated.settled dev hdev hk
    rw [hsettled.nodes ln hmem hkind, ownSpace?]
    simp [hspaces, hkind, NodeKind.config?]
  · intro i hi
    exact mem_issues_iff_spaceIssue h hspaces (List.IsPrefix.trans (by simp) hi)

/-- **Namespaces are checked and set.** The check of a logical node sets what its effective values
stand for and reports on what has no value or is not listed (`SpacesChecked`); after a whole
resolution the last namespace that a logical device was given is the one that stays
(`SpacesResolved`). -/
theorem namespaces_checked :
    (∀ (g : Growth) (dev ln : Branch) (config : LogicalNode), dev.Stands g.model →
      ln ∈ dev.branches → ln.node.kind.config? = some config →
      SpacesChecked g (checkSpaces dev.id ln.id config g) dev ln config) ∧
    ∀ (d : Document) (ied : String) (ap : Option String) (o : ResolveOptions) (res : Resolution),
      resolve d ied ap o = .ok res → o.checkNamespaces → SpacesResolved res := by
  constructor
  · intro g dev ln config hdev hln hconfig
    exact spacesChecked_checkSpaces hdev hln hconfig
  · intro d ied ap o res h hspaces
    exact spacesResolved_of_resolve h hspaces

/-- A logical node with a property is found by looking through those of a logical device. -/
theorem Model.Branch.exists_isNodeOf {m : IedModel} (hm : m.Forest) {id : Nat} {inst : String}
    (hinst : m.inst? id = some inst) {p : Branch → Branch → LogicalNode → Bool}
    (h : (m.branch? id).any fun dev => dev.branches.any fun ln =>
      ln.node.kind.config?.any (p dev ln)) :
    ∃ dev ln config, Branch.IsNodeOf m dev inst ln config ∧ p dev ln config := by
  obtain ⟨dev, hdev, h⟩ := (Option.any_eq_true _ _).mp h
  obtain ⟨ln, hln, h⟩ := List.any_eq_true.mp h
  obtain ⟨config, hconfig, hp⟩ := (Option.any_eq_true _ _).mp h
  obtain ⟨n, space, hn, hkind⟩ := IedModel.inst?_eq_some_iff.mp hinst
  obtain ⟨hstands, -⟩ := (Branch.branch?_eq_some_iff hm).mp hdev
  obtain rfl := Branch.node_of_branch? hm hdev hn
  exact ⟨dev, ln, config, ⟨hstands, ⟨space, hkind⟩, hln, hconfig⟩, hp⟩

/-- A name plate with a default value. -/
def plateTypes : Registry where
  nodeTypes := ⟨[("L", ⟨"L", "LLN0", [⟨"NamPlt", "N", 0, false⟩]⟩)]⟩
  objectTypes := ⟨[("N", ⟨"N", "LPL", [],
    [⟨"lnNs", .ex, .visibleString255, none, 0, {}, none, ["IEC 61850-7-4:2007"]⟩]⟩)]⟩

/-- A logical node with values for its name plate. -/
def plateNode (lnPrefix : String) (values : List (String × String)) : LogicalNode :=
  ⟨"LLN0", "L", "", some lnPrefix, none, [], [], [],
    [⟨"NamPlt", none, [], values.map fun (name, text) => ⟨name, none, none, [⟨none, text⟩]⟩⟩],
    [], [], [], none⟩

/-- A logical device with three such logical nodes: the second one gives another namespace to the
logical device and leaves its own empty, and the third one has an empty one for the logical
device. -/
def plateDevice : LogicalDevice :=
  ⟨"LD", none, none, some (plateNode "" [("ldNs", "IEC 61850-7-4:2007B3")]),
    [plateNode "A" [("ldNs", "Vendor:2020A"), ("lnNs", "")], plateNode "B" [("ldNs", "")]]⟩

/-- A document with that logical device. -/
def plateDocument : Document :=
  ⟨⟨none, none, none, none, none, [⟨"E", none, none, none, [⟨"A", some ⟨[plateDevice]⟩⟩]⟩], none⟩,
    plateTypes, []⟩

/-- The second namespace stays, although it is not listed; the empty ones give way to the default
value or are reported. -/
theorem namespaces_checked_twice : ∃ res dev ln config,
    resolve plateDocument "E" none {} = .ok res ∧ Branch.IsNodeOf res.model dev "LD" ln config ∧
      SpacesChecked ⟨res.model, #[]⟩ (checkSpaces dev.id ln.id config ⟨res.model, #[]⟩) dev ln
        config ∧
      dev.node.kind = .device "LD" (Namespace.parse? "Vendor:2020A") ∧ SpacesResolved res := by
  have hresolve : ∃ res, resolve plateDocument "E" none {} = .ok res ∧
      res.model.inst? 0 = some "LD" ∧
      (res.model.branch? 0).any fun dev => dev.branches.any fun ln =>
        ln.node.kind.config?.any fun _ =>
          deviceSpaces dev = ["IEC 61850-7-4:2007B3", "Vendor:2020A"] :=
    ⟨_, rfl, by decide +kernel, by decide +kernel⟩
  obtain ⟨res, hres, hinst, hcheck⟩ := hresolve
  obtain ⟨i, a, -, -, hstage⟩ := stage_of_resolve hres
  obtain ⟨dev, ln, config, hnode, hspaces⟩ :=
    Branch.exists_isNodeOf hstage.lawful.forest hinst hcheck
  obtain ⟨space, hkind⟩ := hnode.kind
  have hchecked := namespaces_checked.1 ⟨res.model, #[]⟩ dev ln config hnode.stands hnode.mem
    hnode.config
  have hresolved := namespaces_checked.2 plateDocument "E" none {} res hres rfl
  have hlast : ((deviceSpaces dev).filterMap Namespace.parse?).getLast? =
      Namespace.parse? "Vendor:2020A" := by
    rw [of_decide_eq_true hspaces]
    decide +kernel
  refine ⟨res, dev, ln, config, hres, hnode, hchecked, ?_, hresolved⟩
  rw [hkind, hresolved.device dev hnode.stands "LD" space hkind, hlast]

end Substation
