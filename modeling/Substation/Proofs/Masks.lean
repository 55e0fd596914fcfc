import Mathlib.Data.List.Basic
import Mathlib.Data.List.Find
import Mathlib.Tactic.Common
import Substation.Document
import Substation.Model.Binding

/-!
# Masks

Values and some attributes of control blocks are texts that a configuration may hold or not, and
that nothing but the writing of the static model looks at. A mask says what is left of these texts;
everything else of a configuration stays. So two documents differ in such texts only if they are the
same when they are masked by `Mask.all`, and a mask that keeps some texts says in which ones they
may differ.

Names are not masked, so whatever is found by name is found behind a mask (`leafAt?_masked`).
-/

namespace Substation.Config

/-- What is left of the texts of a configuration. -/
structure Mask where
  /-- What is left of a value. -/
  value : String → String
  /-- What is left of an optional attribute of a control block. -/
  optional : Option String → Option String
  /-- What is left of the name of a log that is written after the name of its owner. -/
  log (owner : String) : Option String → Option String

/-- Nothing is left. -/
def Mask.all : Mask := ⟨fun _ => "", fun _ => none, fun _ _ => none⟩

/-- What stands in front of the name of a log. -/
def logOwner (device node : String) : String := device ++ "/" ++ node ++ "$"

variable (k : Mask)

/-! ## Instance values -/

/-- A value behind a mask. -/
def Val.masked (v : Val) : Val := { v with text := k.value v.text }

/-- The values of an attribute behind a mask. -/
def Dai.masked (d : Dai) : Dai := { d with values := d.values.map (Val.masked k) }

mutual

/-- Nested instance values behind a mask. -/
def Sdi.masked : Sdi → Sdi
  | .mk name index nested leaves =>
    .mk name index (maskedAll nested) (leaves.map (Dai.masked k))

/-- Several parts behind a mask. -/
def Sdi.maskedAll : List Sdi → List Sdi
  | [] => []
  | s :: ss => masked s :: maskedAll ss

end

/-- The instance values of a data object behind a mask. -/
def Doi.masked (d : Doi) : Doi :=
  { d with nested := d.nested.map (Sdi.masked k), leaves := d.leaves.map (Dai.masked k) }

theorem Dai.value?_masked (d : Dai) : (d.masked k).value? = d.value?.map k.value := by
  rw [value?, value?, masked, List.head?_map, Option.map_map, Option.map_map]
  rfl

theorem Sdi.maskedAll_eq_map (ss : List Sdi) : maskedAll k ss = ss.map (masked k) := by
  induction ss with
  | nil => rfl
  | cons s ss ih => rw [maskedAll, ih, List.map_cons]

theorem Sdi.name_masked (s : Sdi) : (s.masked k).name = s.name := by
  cases s
  rfl

theorem Sdi.leaf?_masked (s : Sdi) (name : String) :
    (s.masked k).leaf? name = (s.leaf? name).map (Dai.masked k) := by
  cases s
  exact List.find?_map

theorem Sdi.nested?_masked (s : Sdi) (name : String) :
    (s.masked k).nested? name = (s.nested? name).map (masked k) := by
  obtain ⟨_, _, nested, _⟩ := s
  show (maskedAll k nested).find? _ = _
  rw [maskedAll_eq_map, List.find?_map]
  refine congrArg (Option.map _) (List.find?_congr fun s _ => ?_)
  rw [Function.comp_apply, name_masked]

theorem Doi.leaf?_masked (d : Doi) (name : String) :
    (d.masked k).leaf? name = (d.leaf? name).map (Dai.masked k) :=
  List.find?_map

theorem Doi.nested?_masked (d : Doi) (name : String) :
    (d.masked k).nested? name = (d.nested? name).map (Sdi.masked k) := by
  show (d.nested.map _).find? _ = _
  rw [List.find?_map]
  refine congrArg (Option.map _) (List.find?_congr fun s _ => ?_)
  rw [Function.comp_apply, Sdi.name_masked]

theorem nestedAt?_masked (names : List String) (s : Sdi) :
    Model.nestedAt? names (s.masked k) = (Model.nestedAt? names s).map (Sdi.masked k) := by
  induction names generalizing s with
  | nil => rfl
  | cons name names ih =>
    rw [Model.nestedAt?, Model.nestedAt?, Sdi.nested?_masked, Option.bind_map, Option.map_bind]
    exact Option.bind_congr fun t _ => ih t

/-- What stands at a path stands there behind a mask. -/
theorem leafAt?_masked (d : Doi) (path : List String) :
    Model.leafAt? (d.masked k) path = (Model.leafAt? d path).map (Dai.masked k) := by
  match path with
  | [] => rfl
  | [_] => rfl
  | first :: second :: rest =>
    simp only [Model.leafAt?]
    rw [Doi.nested?_masked, Option.bind_map, Option.map_bind]
    refine Option.bind_congr fun s _ => ?_
    rw [Function.comp_apply, Function.comp_apply, nestedAt?_masked, Option.bind_map,
      Option.map_bind]
    exact Option.bind_congr fun t _ => t.leaf?_masked k _

/-! ## Devices -/

/-- A report control block behind a mask. -/
def ReportControl.masked (c : ReportControl) : ReportControl :=
  { c with
    rptId := k.optional c.rptId
    dataSet := k.optional c.dataSet
    bufTime := k.optional c.bufTime
    intgPd := k.optional c.intgPd }

/-- A log control block behind a mask. -/
def LogControl.masked (owner : String) (c : LogControl) : LogControl :=
  { c with
    dataSet := k.optional c.dataSet
    intgPd := k.optional c.intgPd
    logName := k.log owner c.logName }

/-- A control block for event messages behind a mask. -/
def GseControl.masked (c : GseControl) : GseControl :=
  { c with
    appId := k.optional c.appId
    dataSet := k.optional c.dataSet }

/-- A control block for sampled values behind a mask. -/
def SampledControl.masked (c : SampledControl) : SampledControl :=
  { c with
    smvId := k.optional c.smvId
    dataSet := k.optional c.dataSet
    smpMod := k.optional c.smpMod }

/-- A logical node behind a mask. -/
def LogicalNode.masked (owner : String) (n : LogicalNode) : LogicalNode :=
  { n with
    reports := n.reports.map (ReportControl.masked k)
    logControls := n.logControls.map (LogControl.masked k owner)
    instances := n.instances.map (Doi.masked k)
    gseControls := n.gseControls.map (GseControl.masked k)
    sampledControls := n.sampledControls.map (SampledControl.masked k) }

theorem LogicalNode.instance?_masked (owner : String) (n : LogicalNode) (name : String) :
    (n.masked k owner).instance? name = (n.instance? name).map (Doi.masked k) :=
  List.find?_map

/-- A logical node of the device `inst` behind a mask. -/
def LogicalNode.maskedOn (inst : String) (n : LogicalNode) : LogicalNode :=
  n.masked k (logOwner inst n.name)

/-- A logical device behind a mask. -/
def LogicalDevice.masked (d : LogicalDevice) : LogicalDevice :=
  { d with
    ln0 := d.ln0.map (LogicalNode.maskedOn k d.inst)
    lns := d.lns.map (LogicalNode.maskedOn k d.inst) }

theorem LogicalDevice.logicalNodes_masked (d : LogicalDevice) :
    (d.masked k).logicalNodes = d.logicalNodes.map (LogicalNode.maskedOn k d.inst) := by
  rw [logicalNodes, logicalNodes, List.map_append, ← Option.toList_map]
  rfl

/-- An access point behind a mask. -/
def AccessPoint.masked (a : AccessPoint) : AccessPoint :=
  { a with server := a.server.map fun s => ⟨s.devices.map (LogicalDevice.masked k)⟩ }

/-- An IED behind a mask. -/
def Ied.masked (i : Ied) : Ied :=
  { i with accessPoints := i.accessPoints.map (AccessPoint.masked k) }

end Substation.Config

namespace Substation

open Substation.Config

variable (k : Mask)

/-- A document behind a mask. -/
def Document.masked (d : Document) : Document :=
  { d with scl := { d.scl with ieds := d.scl.ieds.map (Ied.masked k) } }

end Substation
