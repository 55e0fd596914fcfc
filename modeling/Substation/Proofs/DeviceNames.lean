import Mathlib.Tactic.Common
import Substation.Proofs.Generations
import Substation.Proofs.Journals
import Substation.Proofs.MappedDevices
import Substation.Proofs.MovedTypes
import Substation.Proofs.UnplacedModels

/-!
# Names of logical devices

The name of a logical device is the beginning of every reference below it, and it is not written.
References are taken apart in two places, and there it may leave a trace: a dot in the name misleads
the look-up of nested values, and a structured attribute whose name holds a slash may be passed over
on one logical device and not on another. Apart from these, documents that differ in the names of
logical devices are written alike (`device_names_not_written`).

Results:
* `device_names_not_written` (`emit_static_model`, `generate_static_model`): documents that differ
  in names of logical devices are written alike;
* `device_names_written` (`dai_for_attribute`, `expand_data_object`): unless a name holds a dot or a
  slash.
-/

namespace Substation

open Substation.Config
open Substation.Emission
open Substation.Journal
open Substation.Model
open Substation.Resolution
open Substation.Template

/-! ## Documents without names of logical devices -/

/-- A logical device of an IED without its name, unless that holds a dot. -/
def Config.LogicalDevice.unnamed (ied : String) (d : LogicalDevice) : LogicalDevice :=
  { d with ldName := some (Text.ifDotted (deviceName ied d)) }

/-- A document without the names of its logical devices. -/
def Document.unnamed (d : Document) : Document := d.mapDevices LogicalDevice.unnamed

namespace Resolution

/-! ## Models without places -/

theorem Respaced.unplaced {m m' : IedModel} (h : Respaced m m') : m'.unplaced = m.unplaced := by
  induction h with
  | refl => rfl
  | step _ id space ih => rw [IedModel.unplaced_setSpace, ih]

/-- Tables of two resolutions that are the same without their places. -/
structure Twins (r : Registry) (limit : Nat) (m m' : IedModel) : Prop where
  stage : ∃ names, Stage r limit names m
  stage' : ∃ names, Stage r limit names m'
  same : m.unplaced = m'.unplaced

namespace Twins

variable {r : Registry} {o : ResolveOptions}

theorem addDevice {m m' : IedModel} (h : Twins r o.maxDepth m m') {name name' : String}
    (hname : Text.ifDotted name = Text.ifDotted name') (inst : String) :
    Twins r o.maxDepth (m.addDevice name inst) (m'.addDevice name' inst) := by
  obtain ⟨⟨_, hstage⟩, ⟨_, hstage'⟩, hsame⟩ := h
  exact ⟨⟨_, hstage.device name inst⟩, ⟨_, hstage'.device name' inst⟩,
    IedModel.unplaced_addDevice hsame hname inst⟩

variable (hr : r.Unslashed) (subject : Subject) {name name' inst : String} {device : Nat}
include hr

theorem addNode {g g' : Growth} (h : Twins r o.maxDepth g.model g'.model)
    (hf : g.model.face? device = some (deviceFace name inst))
    (hf' : g'.model.face? device = some (deviceFace name' inst)) (config : LogicalNode) :
    let next := Resolution.addNode r o subject inst device
    Twins r o.maxDepth (next g config).model (next g' config).model ∧
      (next g config).model.face? device = some (deviceFace name inst) ∧
      (next g' config).model.face? device = some (deviceFace name' inst) := by
  obtain ⟨⟨_, hstage⟩, ⟨_, hstage'⟩, hsame⟩ := h
  obtain ⟨hnext, hface⟩ := addNode_stage o subject inst rfl hf hstage config
  obtain ⟨hnext', hface'⟩ := addNode_stage o subject inst rfl hf' hstage' config
  refine ⟨⟨⟨_, hnext⟩, ⟨_, hnext'⟩, ?_⟩, hface, hface'⟩
  -- the same is planted, and checks set namespaces only
  obtain ⟨d, hd, -, hstem⟩ := exists_of_deviceFace hf
  obtain ⟨d', hd', -, hstem'⟩ := exists_of_deviceFace hf'
  rw [(respaced_addNode o subject inst hstage.lawful.forest hd config).unplaced,
    (respaced_addNode o subject inst hstage'.lawful.forest hd' config).unplaced, hstem, hstem',
    nodeSprout_moved hr name name']
  exact IedModel.unplaced_plant hsame device _

theorem addNodes (configs : List LogicalNode) {g g' : Growth}
    (h : Twins r o.maxDepth g.model g'.model)
    (hf : g.model.face? device = some (deviceFace name inst))
    (hf' : g'.model.face? device = some (deviceFace name' inst)) :
    Twins r o.maxDepth (configs.foldl (Resolution.addNode r o subject inst device) g).model
      (configs.foldl (Resolution.addNode r o subject inst device) g').model := by
  induction configs generalizing g g' with
  | nil => exact h
  | cons config configs ih =>
    obtain ⟨hnext, hface, hface'⟩ := h.addNode hr subject hf hf' config
    exact ih hnext hface hface'

/-- Logical devices that are the same without their names are added alike. -/
theorem addNamed {g g' : Growth} (h : Twins r o.maxDepth g.model g'.model) {d d' : LogicalDevice}
    (hd : d.unnamed subject.ied = d'.unnamed subject.ied) :
    Twins r o.maxDepth (Resolution.addDevice r o subject g d).model
      (Resolution.addDevice r o subject g' d').model := by
  have hinst : d'.inst = d.inst := (congrArg LogicalDevice.inst hd.symm :)
  have hnodes : d'.logicalNodes = d.logicalNodes :=
    (congrArg LogicalDevice.logicalNodes hd.symm :)
  have hname : Text.ifDotted (deviceName subject.ied d) =
      Text.ifDotted (deviceName subject.ied d') :=
    Option.some.inj (congrArg LogicalDevice.ldName hd :)
  have hface := face?_addDevice_size g.model (deviceName subject.ied d) d.inst
  have hface' := face?_addDevice_size g'.model (deviceName subject.ied d') d.inst
  rw [IedModel.size_of_unplaced h.same] at hface'
  unfold Resolution.addDevice
  rw [hinst, hnodes, IedModel.size_of_unplaced h.same]
  exact addNodes hr subject d.logicalNodes (h.addDevice hname d.inst) hface hface'

/-- Logical devices that are the same without their names are built alike. -/
theorem addDevices (ds : List LogicalDevice) {ds' : List LogicalDevice}
    (hds : ds.map (LogicalDevice.unnamed subject.ied) =
      ds'.map (LogicalDevice.unnamed subject.ied)) {g g' : Growth}
    (h : Twins r o.maxDepth g.model g'.model) :
    Twins r o.maxDepth (ds.foldl (Resolution.addDevice r o subject) g).model
      (ds'.foldl (Resolution.addDevice r o subject) g').model := by
  induction ds generalizing ds' g g' with
  | nil =>
    rw [List.map_eq_nil_iff.mp hds.symm]
    exact h
  | cons d ds ih =>
    obtain ⟨d', ds', rfl, hd, hds⟩ := List.map_eq_cons_iff.mp hds.symm
    exact ih hds.symm (h.addNamed hr subject hd.symm)

end Twins

/-- Access points that are the same without the names of their logical devices have models that are
the same without their places. -/
theorem twins_ofAccessPoint {d d' : Document} (hregistry : d'.registry = d.registry)
    (hr : d.registry.Unslashed) (o : ResolveOptions) {i i' : Ied} {a a' : AccessPoint}
    (hname : i'.name = i.name) (haname : a'.name = a.name)
    (hdevices : a'.devices.map (LogicalDevice.unnamed i.name) =
      a.devices.map (LogicalDevice.unnamed i.name)) :
    Twins d.registry o.maxDepth (ofAccessPoint d o i a).model (ofAccessPoint d' o i' a').model := by
  have hstart : Twins d.registry o.maxDepth (start i a).model (start i' a').model :=
    ⟨⟨_, .empty i.name⟩, ⟨_, .empty i'.name⟩,
      congrArg (fun name => IedModel.unplaced { name }) hname.symm⟩
  have hbuilt := hstart.addDevices hr ⟨i.name, a.name⟩ a.devices hdevices.symm
  rw [model_ofAccessPoint, model_ofAccessPoint, built, built, hregistry, hname, haname]
  exact hbuilt

end Resolution

/-! ## Texts -/

/-- Static models with one layout have one text, and the same beginning of it fits into a sink. -/
theorem text_emit_congr {d d' : Document} {res res' : Resolution} {eo : EmitOptions}
    (h : (res'.statement d' eo).layout = (res.statement d eo).layout) (limit : Option Nat) :
    (emit d' res' eo limit).text = (emit d res eo limit).text := by
  have hfull : (emit d' res' eo none).text = (emit d res eo none).text := by
    rw [text_emit isComplete_emit, text_emit isComplete_emit, ModelStatement.text_eq,
      ModelStatement.text_eq, h]
  cases limit with
  | none => exact hfull
  | some limit =>
    refine String.toList_injective ?_
    rw [(cutAt_emit d' res' eo limit).kept_eq, (cutAt_emit d res eo limit).kept_eq, hfull]

/-- Resolutions whose models are the same without their places are written as the same text. -/
theorem text_emit_of_unplaced {d d' : Document} (hregistry : d'.registry = d.registry)
    (hconnected : d'.connectedAp? = d.connectedAp?) {res res' : Resolution}
    (hsubject : res'.subject = res.subject) (hm : res.model.Lawful) (hm' : res'.model.Lawful)
    (h : res.model.unplaced = res'.model.unplaced) (eo : EmitOptions) (limit : Option Nat) :
    (emit d' res' eo limit).text = (emit d res eo limit).text := by
  have hsetting : res'.setting d' eo = { res.setting d eo with model := res'.model } := by
    rw [Resolution.setting, Resolution.setting, hregistry, hconnected, hsubject]
  refine text_emit_congr ?_ limit
  rw [Resolution.statement, hsetting]
  exact layout_modelStatement (res.setting d eo) hm hm' h

/-- **The names of logical devices are not written.** Documents that differ only in names of logical
devices are resolved with the same failure, or to models that are written as the same text into
whatever sink, and so are generations; provided that a name that holds a dot is the same in both,
and that no name of a structured attribute holds a slash. -/
theorem device_names_not_written {d d' : Document} (h : d.unnamed = d'.unnamed)
    (hr : d.registry.Unslashed) (ied : String) (ap : Option String) (o : ResolveOptions)
    (eo : EmitOptions) (limit : Option Nat) :
    (resolve d ied ap o).map (fun res => (emit d res eo limit).text) =
      (resolve d' ied ap o).map (fun res => (emit d' res eo limit).text) ∧
    (generate d ied ap o eo limit).text = (generate d' ied ap o eo limit).text := by
  have hregistry := Document.registry_of_mapDevices h
  have hconnected := Document.connectedAp?_of_mapDevices h
  rcases resolve_of_mapDevices h ied ap o with
    ⟨failure, hfail, hfail'⟩ | ⟨i, i', a, a', hok, hok', hname, haname, hdevices⟩
  · rw [hfail, hfail', generate_of_error hfail, generate_of_error hfail', Except.map, Except.map]
    exact ⟨rfl, rfl⟩
  · obtain ⟨⟨_, hstage⟩, ⟨_, hstage'⟩, hsame⟩ :=
      twins_ofAccessPoint hregistry hr o hname haname hdevices
    have hsubject : (ofAccessPoint d' o i' a').subject = (ofAccessPoint d o i a).subject := by
      rw [subject_ofAccessPoint, subject_ofAccessPoint, hname, haname]
    have htext := text_emit_of_unplaced hregistry hconnected hsubject hstage.lawful hstage'.lawful
      hsame eo limit
    rw [text_generate hok, text_generate hok', emit_trackUsage, emit_trackUsage, hok, hok',
      Except.map, Except.map, htext]
    exact ⟨rfl, rfl⟩

/-- A structured attribute of a name, with an attribute in it. -/
def originTypes (name : String) : Registry where
  nodeTypes := ⟨[("L", ⟨"L", "GGIO", [⟨"Mod", "M", 0, false⟩]⟩)]⟩
  objectTypes := ⟨[("M", ⟨"M", "ENC", [],
    [⟨name, .st, .constructed, some "O", 0, {}, none, []⟩]⟩)]⟩
  attributeTypes := ⟨[("O", ⟨"O", [⟨"q", .none, .int32, none, 0, {}, none, []⟩]⟩)]⟩

theorem unslashed_originTypes {name : String} (h : '/' ∉ name.toList) :
    (originTypes name).Unslashed := by
  intro id t ht a ha _
  obtain ⟨e, he, rfl⟩ := Catalogue.exists_entry ht
  rw [List.mem_singleton.mp he] at ha
  rwa [List.mem_singleton.mp ha]

/-- A value for the attribute in the structured attribute `origin`. -/
def originNode : LogicalNode :=
  ⟨"GGIO", "L", "1", none, none, [], [], [],
    [⟨"Mod", none, [.mk "origin" none [] [⟨"q", none, none, [⟨none, "3"⟩]⟩]], []⟩],
    [], [], [], none⟩

/-- A document with that logical node, on a logical device of a name. -/
def originDocument (name : String) (ldName : Option String) : Document :=
  ⟨⟨none, none, none, none, none, [⟨"E", none, none, none,
    [⟨"A", some ⟨[⟨"LD", ldName, none, none, [originNode]⟩]⟩⟩]⟩], none⟩, originTypes name, []⟩

/-- A logical device with no name of its own and one with such a name. -/
theorem device_names_not_written_origin :
    (originDocument "origin" none).unnamed = (originDocument "origin" (some "S1")).unnamed ∧
      (originDocument "origin" none).registry.Unslashed ∧
      (∃ res, resolve (originDocument "origin" none) "E" none {} = .ok res) ∧
      (resolve (originDocument "origin" none) "E" none {}).map
          (fun res => (emit (originDocument "origin" none) res {} none).text) =
        (resolve (originDocument "origin" (some "S1")) "E" none {}).map
          (fun res => (emit (originDocument "origin" (some "S1")) res {} none).text) := by
  have hsame : (originDocument "origin" none).unnamed =
      (originDocument "origin" (some "S1")).unnamed := rfl
  have hr : (originDocument "origin" none).registry.Unslashed :=
    unslashed_originTypes (by decide)
  have hres : ∃ res, resolve (originDocument "origin" none) "E" none {} = .ok res := ⟨_, rfl⟩
  obtain ⟨htext, -⟩ := device_names_not_written hsame hr "E" none {} {} none
  exact ⟨hsame, hr, hres, htext⟩

/-- **The name of a logical device may be seen in the text**: a dot in it hides the value in a
structured attribute, and it may keep a structured attribute with a slash in its name empty. -/
theorem device_names_written :
    (generate (originDocument "origin" (some "S1.LD")) "E" none {} {} none).text ≠
        (generate (originDocument "origin" (some "S1")) "E" none {} {} none).text ∧
      (generate (originDocument "X/GGIO1.Mod" (some "X")) "E" none {} {} none).text ≠
        (generate (originDocument "X/GGIO1.Mod" (some "Y")) "E" none {} {} none).text := by
  decide +kernel

end Substation
