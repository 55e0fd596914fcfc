import Mathlib.Data.List.Basic
import Mathlib.Tactic.Common
import Substation.Resolution

/-!
# Documents with changed logical devices

A function changes a document one logical device after the other. When two documents are the same
after such a change, whatever is asked for is found in both or missing from both, and the access
points that are resolved are the same after the change (`resolve_of_mapDevices`).
-/

namespace Substation

open Substation.Config

namespace Config

/-- The access point with every logical device changed. -/
def AccessPoint.mapDevices (f : LogicalDevice → LogicalDevice) (a : AccessPoint) : AccessPoint :=
  { a with server := a.server.map fun s => ⟨s.devices.map f⟩ }

theorem AccessPoint.devices_mapDevices (f : LogicalDevice → LogicalDevice) (a : AccessPoint) :
    (a.mapDevices f).devices = a.devices.map f := by
  obtain ⟨name, _ | s⟩ := a <;> rfl

/-- The IED with every logical device changed. -/
def Ied.mapDevices (f : LogicalDevice → LogicalDevice) (i : Ied) : Ied :=
  { i with accessPoints := i.accessPoints.map (AccessPoint.mapDevices f) }

theorem Ied.accessPoint?_mapDevices (f : LogicalDevice → LogicalDevice) (i : Ied)
    (ap : Option String) :
    accessPoint? (i.mapDevices f) ap = (accessPoint? i ap).map (AccessPoint.mapDevices f) := by
  cases ap with
  | none => exact List.head?_map
  | some name => exact List.find?_map

end Config

namespace Document

/-- The document with every logical device changed; the change may depend on the name of the IED. -/
def mapDevices (f : String → LogicalDevice → LogicalDevice) (d : Document) : Document :=
  { d with scl := { d.scl with ieds := d.scl.ieds.map fun i => i.mapDevices (f i.name) } }

variable {f : String → LogicalDevice → LogicalDevice} {d d' : Document}

theorem ied?_mapDevices (f : String → LogicalDevice → LogicalDevice) (d : Document)
    (name : String) :
    (d.mapDevices f).ied? name = (d.ied? name).map fun i => i.mapDevices (f i.name) :=
  List.find?_map

variable (h : d.mapDevices f = d'.mapDevices f)
include h

theorem registry_of_mapDevices : d'.registry = d.registry :=
  (congrArg Document.registry h.symm :)

theorem connectedAp?_of_mapDevices : d'.connectedAp? = d.connectedAp? :=
  (congrArg Document.connectedAp? h.symm :)

end Document

/-- **A resolution fails in both documents or in none**, and then it is that of access points that
are the same after the change. -/
theorem resolve_of_mapDevices {f : String → LogicalDevice → LogicalDevice} {d d' : Document}
    (h : d.mapDevices f = d'.mapDevices f) (ied : String) (ap : Option String)
    (o : ResolveOptions) :
    (∃ failure, resolve d ied ap o = .error failure ∧ resolve d' ied ap o = .error failure) ∨
    ∃ i i' a a', resolve d ied ap o = .ok (.ofAccessPoint d o i a) ∧
      resolve d' ied ap o = .ok (.ofAccessPoint d' o i' a') ∧ i'.name = i.name ∧
      a'.name = a.name ∧ a'.devices.map (f i.name) = a.devices.map (f i.name) := by
  have hied : (d.ied? ied).map (fun i => i.mapDevices (f i.name)) =
      (d'.ied? ied).map fun i => i.mapDevices (f i.name) := by
    rw [← Document.ied?_mapDevices, ← Document.ied?_mapDevices, h]
  unfold resolve
  cases hi : d.ied? ied with
  | none =>
    rw [hi] at hied
    rw [Option.map_eq_none_iff.mp hied.symm]
    exact .inl ⟨_, rfl, rfl⟩
  | some i =>
    rw [hi] at hied
    obtain ⟨i', hi', hsame⟩ := Option.map_eq_some_iff.mp hied.symm
    have hname : i'.name = i.name := (congrArg Ied.name hsame :)
    rw [hname] at hsame
    have hap : (accessPoint? i ap).map (AccessPoint.mapDevices (f i.name)) =
        (accessPoint? i' ap).map (AccessPoint.mapDevices (f i.name)) := by
      rw [← Ied.accessPoint?_mapDevices, ← Ied.accessPoint?_mapDevices, hsame]
    rw [hi']
    cases ha : accessPoint? i ap with
    | none =>
      rw [ha] at hap
      simp only [ha, Option.map_eq_none_iff.mp hap.symm]
      exact .inl ⟨_, rfl, rfl⟩
    | some a =>
      rw [ha] at hap
      obtain ⟨a', ha', hsame'⟩ := Option.map_eq_some_iff.mp hap.symm
      have hdevices := congrArg AccessPoint.devices hsame'
      rw [AccessPoint.devices_mapDevices, AccessPoint.devices_mapDevices] at hdevices
      simp only [ha, ha']
      exact .inr ⟨i, i', a, a', rfl, rfl, hname, (congrArg AccessPoint.name hsame' :), hdevices⟩

end Substation
