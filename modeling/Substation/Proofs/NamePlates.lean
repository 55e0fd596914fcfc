import Mathlib.Data.List.Basic
import Mathlib.Tactic.Common
import Substation.Proofs.DeviceBranches
import Substation.Proofs.InstanceIssues

/-!
# The namespaces on a name plate

A namespace is looked for in two places: among the configured values of the data object `NamPlt`
(`plateLeaf?`) and among the attributes of its type (`plateAttribute?`). The effective value is the
first one of the two that is not empty (`effectiveSpace?`), so an empty configured value does not
hide a default value. The check of the namespaces is described by the effective values alone: they
decide which namespaces are set and what is found (`checkSpaces_eq`).
-/

namespace Substation

open Substation.Config
open Substation.Journal
open Substation.Model
open Substation.Template

namespace Model

/-! ## Effective values -/

/-- The first entry of a name in the first instance of the name plate. -/
def plateLeaf? (config : LogicalNode) (name : String) : Option Dai :=
  (config.instances.find? (·.name = "NamPlt")).bind fun doi => doi.leaves.find? (·.name = name)

/-- The type of the first node `NamPlt` below a logical node. -/
def plateType? (ln : Branch) : Option ObjectType :=
  (ln.branches.find? (·.node.name = "NamPlt")).bind fun b =>
    match b.node.kind with
    | .object _ type _ => some type
    | _ => none

/-- The first attribute of a name and of the constraint `EX` in the type of the name plate, if that
is of class `LPL`. -/
def plateAttribute? (ln : Branch) (name : String) : Option AttributeDef :=
  (plateType? ln).bind fun type =>
    if type.cdc = "LPL" then type.leaves.find? fun a => a.name = name ∧ a.fc = .ex else none

/-- The first configured value, unless it is empty. -/
def configuredSpace? (config : LogicalNode) (name : String) : Option String :=
  ((plateLeaf? config name).bind fun dai => dai.values.head?.map Val.text).filter (· ≠ "")

/-- The first default value, unless it is empty. -/
def defaultSpace? (ln : Branch) (name : String) : Option String :=
  ((plateAttribute? ln name).bind fun a => a.values.head?).filter (· ≠ "")

/-- The effective value: the configured one, or else the default one. -/
def effectiveSpace? (ln : Branch) (config : LogicalNode) (name : String) : Option String :=
  (configuredSpace? config name).or (defaultSpace? ln name)

/-- The effective namespace of the logical device, which is that on the name plate of an `LLN0`. -/
def deviceSpace? (ln : Branch) (config : LogicalNode) : Option String :=
  if config.lnClass = "LLN0" then effectiveSpace? ln config "ldNs" else none

/-- The namespace is on the name plate, with or without a value. -/
def HasSpace (ln : Branch) (config : LogicalNode) (name : String) : Prop :=
  (plateLeaf? config name).isSome ∨ (plateAttribute? ln name).isSome

instance (ln : Branch) (config : LogicalNode) (name : String) :
    Decidable (HasSpace ln config name) :=
  inferInstanceAs (Decidable (_ ∨ _))

theorem filter_nonempty (value? : Option String) :
    value?.filter (!·.isEmpty) = value?.filter (· ≠ "") := by
  have h : (fun text : String => !text.isEmpty) = fun text => decide (text ≠ "") := by
    funext text
    by_cases htext : text = "" <;> simp [htext]
  rw [h]

theorem filledValue?_plateInstance? (config : LogicalNode) (name : String) :
    (plateInstance? config name).bind filledValue? = configuredSpace? config name := by
  unfold configuredSpace?
  show (plateLeaf? config name).bind filledValue? = _
  cases plateLeaf? config name with
  | none => rfl
  | some dai => exact filter_nonempty _

theorem declaredSpace?_eq (ln : Branch) (name : String) :
    declaredSpace? ln name = plateAttribute? ln name := by
  unfold declaredSpace? plateAttribute?
  show ((plateType? ln).filter (·.cdc = "LPL")).bind _ = _
  cases plateType? ln with
  | none => rfl
  | some type =>
    by_cases h : type.cdc = "LPL" <;> simp [Option.filter, h]

theorem declaredSpace?_default (ln : Branch) (name : String) :
    ((declaredSpace? ln name).bind AttributeDef.default?).filter (!·.isEmpty) =
      defaultSpace? ln name := by
  rw [filter_nonempty, declaredSpace?_eq]
  rfl

/-- **What the name plate says about a namespace**, in terms of the effective value. -/
theorem spaceValue_eq (ln : Branch) (config : LogicalNode) (name : String) :
    spaceValue ln config name = match effectiveSpace? ln config name with
      | some text => .given text
      | none => if HasSpace ln config name then .empty else .absent := by
  have hspace : (plateInstance? config name).isSome || (declaredSpace? ln name).isSome ↔
      HasSpace ln config name := by
    rw [declaredSpace?_eq, Bool.or_eq_true]
    rfl
  unfold spaceValue effectiveSpace?
  simp only [filledValue?_plateInstance?, declaredSpace?_default, hspace]
  cases configuredSpace? config name with
  | some text => rfl
  | none => cases defaultSpace? ln name <;> rfl

/-! ## What is found -/

/-- The definition file of a namespace is known. -/
def Namespace.Listed (text : String) : Prop :=
  ∃ space, Namespace.parse? text = some space ∧ space.path ∈ Namespace.knownPaths

theorem Namespace.isKnown_of_parse? {text : String} {space : Namespace}
    (h : Namespace.parse? text = some space) :
    space.path = Namespace.pathOf text ∧
      space.isKnown = Namespace.knownPaths.contains (Namespace.pathOf text) := by
  unfold Namespace.parse? at h
  split at h
  · exact absurd h (by simp)
  · simp only at h
    split at h
    · exact absurd h (by simp)
    · cases h
      exact ⟨rfl, rfl⟩

theorem Namespace.isKnown_iff_listed (text : String) :
    (Namespace.parse? text).any Namespace.isKnown ↔ Namespace.Listed text := by
  rw [Option.any_eq_true]
  refine exists_congr fun space => and_congr_right fun h => ?_
  obtain ⟨hpath, hknown⟩ := Namespace.isKnown_of_parse? h
  rw [hpath, hknown, List.contains_iff_mem]

instance (text : String) : Decidable (Namespace.Listed text) :=
  decidable_of_iff _ (Namespace.isKnown_iff_listed text)

/-- Where a namespace stands. -/
def spaceLocation (device ln name : String) : String :=
  device ++ "/" ++ ln ++ ".NamPlt." ++ name

/-- The error that a namespace has no value. -/
def noSpaceIssue (device : String) (ln : Branch) (name : String) : Issue :=
  ⟨.error, modelIntegrity,
    "Namespace on " ++ spaceLocation device ln.name name ++ " has no value", ln.ref⟩

/-- The warning that there is no definition file for a namespace. -/
def unlistedIssue (device : String) (ln : Branch) (name text : String) : Issue :=
  ⟨.warning, modelIntegrity, "Namespace on " ++ spaceLocation device ln.name name ++
    " not found on NSD files. Value: " ++ text, ln.ref⟩

/-- What is found about a namespace of the name plate of a logical node. -/
def plateSpaceFindings (device : String) (ln : Branch) (config : LogicalNode) (name : String) :
    List Finding :=
  spaceFindings ln (spaceLocation device ln.name name) (spaceValue ln config name)

/-- What there is to report on a namespace: an error if it is on the name plate without a value, a
warning if its effective value is not listed. -/
inductive SpaceIssue (device : String) (ln : Branch) (config : LogicalNode) (name : String) :
    Issue → Prop
  | noValue (hspace : HasSpace ln config name) (heff : effectiveSpace? ln config name = none) :
      SpaceIssue device ln config name (noSpaceIssue device ln name)
  | notListed {text : String} (heff : effectiveSpace? ln config name = some text)
      (hlisted : ¬ Namespace.Listed text) :
      SpaceIssue device ln config name (unlistedIssue device ln name text)

theorem map_issue_plateSpaceFindings (device : String) (ln : Branch) (config : LogicalNode)
    (name : String) : (plateSpaceFindings device ln config name).map Finding.issue =
      match effectiveSpace? ln config name with
      | some text => if Namespace.Listed text then [] else [unlistedIssue device ln name text]
      | none => if HasSpace ln config name then [noSpaceIssue device ln name] else [] := by
  rw [plateSpaceFindings, spaceValue_eq]
  cases effectiveSpace? ln config name with
  | none =>
    by_cases hspace : HasSpace ln config name
    · simp only [hspace, if_true]
      rfl
    · simp only [hspace, if_false]
      rfl
  | some text =>
    simp only [spaceFindings, Namespace.isKnown_iff_listed]
    by_cases hlisted : Namespace.Listed text
    · simp only [hlisted, if_true]
      rfl
    · simp only [hlisted, if_false]
      rfl

/-- **The check of a namespace finds what there is to report**, once. -/
theorem mem_map_issue_plateSpaceFindings (device : String) (ln : Branch) (config : LogicalNode)
    (name : String) (i : Issue) : i ∈ (plateSpaceFindings device ln config name).map Finding.issue ↔
      SpaceIssue device ln config name i := by
  rw [map_issue_plateSpaceFindings]
  constructor
  · intro hi
    split at hi
    · rename_i text heff
      by_cases hlisted : Namespace.Listed text
      · simp [hlisted] at hi
      · simp only [hlisted, if_false, List.mem_singleton] at hi
        exact hi ▸ .notListed heff hlisted
    · rename_i heff
      by_cases hspace : HasSpace ln config name
      · simp only [hspace, if_true, List.mem_singleton] at hi
        exact hi ▸ .noValue hspace heff
      · simp [hspace] at hi
  · rintro (⟨hspace, heff⟩ | ⟨heff, hlisted⟩)
    · simp [heff, hspace]
    · simp [heff, hlisted]

theorem length_plateSpaceFindings (device : String) (ln : Branch) (config : LogicalNode)
    (name : String) : (plateSpaceFindings device ln config name).length ≤ 1 := by
  rw [← List.length_map Finding.issue, map_issue_plateSpaceFindings]
  split <;> split <;> simp

/-- What is found about the namespaces on the name plate of a logical node. -/
def plateSpacesFindings (device : String) (ln : Branch) (config : LogicalNode) : List Finding :=
  (if config.lnClass = "LLN0" then plateSpaceFindings device ln config "ldNs" else []) ++
    plateSpaceFindings device ln config "lnNs"

/-- The namespaces that are looked for on the name plate of a logical node. -/
def spaceNames (config : LogicalNode) : List String :=
  if config.lnClass = "LLN0" then ["ldNs", "lnNs"] else ["lnNs"]

theorem mem_map_issue_plateSpacesFindings (device : String) (ln : Branch) (config : LogicalNode)
    (i : Issue) : i ∈ (plateSpacesFindings device ln config).map Finding.issue ↔
      ∃ name ∈ spaceNames config, SpaceIssue device ln config name i := by
  unfold plateSpacesFindings spaceNames
  by_cases hclass : config.lnClass = "LLN0" <;>
    simp only [hclass, if_true, if_false, List.map_append, List.mem_append, List.map_nil,
      mem_map_issue_plateSpaceFindings] <;>
    simp

section Alike

variable {b b' : Branch} (h : b.Alike b')
include h

theorem namePlate?_alike : namePlate? b' = namePlate? b := by
  unfold namePlate? Branch.child?
  rw [h.branches]

theorem configRevFindings_alike (inst : String) :
    configRevFindings inst b' = configRevFindings inst b := by
  unfold configRevFindings
  rw [h.config, h.ref, namePlate?_alike h]

theorem effectiveSpace?_alike (config : LogicalNode) (name : String) :
    effectiveSpace? b' config name = effectiveSpace? b config name := by
  unfold effectiveSpace? defaultSpace? plateAttribute? plateType?
  rw [h.branches]

theorem plateSpaceFindings_alike (device : String) (config : LogicalNode) (name : String) :
    plateSpaceFindings device b' config name = plateSpaceFindings device b config name := by
  have hvalue : spaceValue b' config name = spaceValue b config name := by
    unfold spaceValue declaredSpace?
    rw [namePlate?_alike h]
  rw [plateSpaceFindings, plateSpaceFindings, hvalue, h.name]
  cases spaceValue b config name <;> simp only [spaceFindings, h.ref]

end Alike

end Model

namespace Resolution

/-! ## The check -/

variable {g : Growth} {dev ln : Branch} {config : LogicalNode}

theorem report_append (g : Growth) (fs fs' : List Finding) :
    g.report (fs ++ fs') = (g.report fs).report fs' := by
  have hjournal : g.journal ++ (fs ++ fs').map Entry.finding =
      g.journal ++ fs.map Entry.finding ++ fs'.map Entry.finding := by
    rw [← Array.toList_inj]
    simp
  simp only [Growth.report, hjournal]

theorem space?_spaceValue (ln : Branch) (config : LogicalNode) (name : String) :
    (spaceValue ln config name).space? =
      (effectiveSpace? ln config name).bind Namespace.parse? := by
  rw [spaceValue_eq]
  cases effectiveSpace? ln config name with
  | some text => rfl
  | none => by_cases hspace : HasSpace ln config name <;> simp [hspace, SpaceValue.space?]

/-- The check of one namespace reports on it and sets what its effective value stands for. -/
theorem checkSpace_eq {device : Nat} {deviceName : String}
    (hdevice : (g.model.node? device).map Node.name = some deviceName)
    (hln : g.model.branch? ln.id = some ln) (hconfig : ln.node.kind.config? = some config)
    (target : Nat) (name : String) : checkSpace device ln.id target name g =
      (g.report (plateSpaceFindings deviceName ln config name)).onModel
        (·.setSpace? target ((effectiveSpace? ln config name).bind Namespace.parse?)) := by
  unfold checkSpace
  simp only [hln, hconfig, hdevice, space?_spaceValue, Option.getD_some]
  cases (effectiveSpace? ln config name).bind Namespace.parse? <;> rfl

/-- **The check of the namespaces of a logical node** reports on each of them and sets those of the
logical device and of the logical node. -/
theorem checkSpaces_eq (hdev : dev.Stands g.model) (hln : ln ∈ dev.branches)
    (hconfig : ln.node.kind.config? = some config) : checkSpaces dev.id ln.id config g =
      (g.report (plateSpacesFindings dev.name ln config)).onModel fun m =>
        (m.setSpace? dev.id ((deviceSpace? ln config).bind Namespace.parse?)).setSpace? ln.id
          ((effectiveSpace? ln config "lnNs").bind Namespace.parse?) := by
  have hstands := hdev.of_mem hln
  have hname : (g.model.node? dev.id).map Node.name = some dev.name := by
    rw [hdev.node?]
    rfl
  unfold checkSpaces plateSpacesFindings deviceSpace?
  by_cases hclass : config.lnClass = "LLN0"
  · let space := (effectiveSpace? ln config "ldNs").bind Namespace.parse?
    let g' := (g.report (plateSpaceFindings dev.name ln config "ldNs")).onModel
      (·.setSpace? dev.id space)
    -- what is set on the logical device does not reach the logical node
    have hname' : (g'.model.node? dev.id).map Node.name = some dev.name := by
      show (((g.model.setSpace? dev.id space).node? dev.id).map Node.name) = _
      rw [IedModel.node?_setSpace?, if_pos rfl, hdev.node?]
      rfl
    have hstands' : ln.Stands g'.model := hstands.frame fun id hid _ => by
      show (g.model.setSpace? dev.id space).node? id = _
      have hlt := hdev.id_lt hln
      rw [IedModel.node?_setSpace?, if_neg (by omega)]
    simp only [hclass, if_true]
    rw [checkSpace_eq hname hstands.branch? hconfig, checkSpace_eq hname' hstands'.branch? hconfig]
    rw [report_append]
    rfl
  · simp only [hclass, if_false]
    rw [checkSpace_eq hname hstands.branch? hconfig]
    rfl

end Resolution

end Substation
