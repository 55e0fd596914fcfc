import Mathlib.Data.List.Basic
import Mathlib.Tactic.Common
import Substation.Emission.ModelStatement
import Substation.Proofs.Calls

/-!
# Layout of data sets and control blocks

Setting groups, members and control blocks are calls, possibly with a frame below them. Each kind
has a layout, whose lines are those that are written (`script_shows`) and from which the statement
can be read (`ofLayout?_layout`).
-/

namespace Substation.Emission

open Substation.Text

/-! ## Setting groups -/

namespace SettingStatement

/-- The fields. -/
def fields (s : SettingStatement) : List Field := [.integer s.active, .integer s.number]

/-- The layout; there is no semicolon after it. -/
def layout (s : SettingStatement) : Layout := .single (.ofFields "SG" s.fields) .nothing

/-- Reads setting groups. -/
def ofLayout? (t : Layout) : Option SettingStatement :=
  match t.fields with
  | [active, number] => do return ⟨← Text.integer? active, ← Text.integer? number⟩
  | _ => none

theorem ofLayout?_layout (s : SettingStatement) : ofLayout? s.layout = some s := by
  simp [ofLayout?, layout, fields]

theorem script_shows (s : SettingStatement) : s.script.Shows [s.layout] := by
  have hline := Script.Shows.line (.ofFields "SG" s.fields) .nothing
  rw [Tail.text, String.append_empty, ← Head.text_ofFields "SG" "SG(" rfl] at hline
  exact hline

theorem plain_layout (s : SettingStatement) : s.layout.Plain :=
  Layout.plain_single
    (Head.plain_ofFields (by decide) (List.cons_ne_nil _ _) (List.forall_mem_nil _)) trivial

end SettingStatement

/-! ## Data sets -/

namespace Member

/-- The fields. -/
def fields (m : Member) : List Field :=
  .text m.variableName :: match m.index, m.component with
    | none, _ => []
    | some index, none => [.natural index]
    | some index, some component => [.natural index, .text component]

/-- The layout. -/
def layout (m : Member) : Layout := .ofCall "DE" m.fields

/-- A member as far as it is written. -/
def shown (m : Member) : Member :=
  { m with component := m.index.bind fun _ => m.component, badIndex := none }

/-- Reads a member. -/
def ofLayout? (t : Layout) : Option Member :=
  match t.fields with
  | [name] => some ⟨name, none, none, none⟩
  | [name, index] => do return ⟨name, ← natural? index, none, none⟩
  | [name, index, component] => do return ⟨name, ← natural? index, component, none⟩
  | _ => none

theorem ofLayout?_layout (m : Member) : ofLayout? m.layout = some m.shown := by
  obtain ⟨name, index, component, bad⟩ := m
  cases index with
  | none => rfl
  | some index =>
    cases component <;> simp [ofLayout?, layout, Layout.ofCall, fields, shown]

theorem text_eq (m : Member) : m.text = "DE(" ++ spaced (m.fields.map Field.shown) ++ ");" := by
  obtain ⟨name, index, component, bad⟩ := m
  cases index with
  | none => simp [text, suffix, fields, spaced]
  | some index =>
    cases component <;> simp [text, suffix, fields, Field.shown, spaced, String.append_assoc]

theorem script_shows (m : Member) : (Script.line m.text).Shows [m.layout] := by
  rw [text_eq]
  exact .call "DE" "DE(" rfl m.fields

theorem fields_shown (m : Member) : m.shown.fields = m.fields := by
  obtain ⟨name, index, component, bad⟩ := m
  cases index <;> rfl

end Member

/-- A statement without the entries. -/
def Remarked.shown {α β : Type} (shown : α → β) (r : Remarked α) : Remarked β :=
  { statement := shown r.statement }

theorem Remarked.script_shows {α : Type} {script : α → Script} {layout : α → Layout}
    (h : ∀ a, (script a).Shows [layout a]) (r : Remarked α) :
    (r.script script).Shows [layout r.statement] :=
  (Script.Shows.remarks r.remarks).append (h r.statement)

namespace DataSetStatement

/-- The layout. -/
def layout (s : DataSetStatement) : Layout :=
  .block (.ofName "DS" s.name) (s.members.map (·.statement.layout))

/-- The texts. -/
def texts (s : DataSetStatement) : List String :=
  s.name :: s.members.flatMap fun m => Emission.texts m.statement.fields

/-- The data set as far as it is written. -/
def shown (s : DataSetStatement) : DataSetStatement :=
  { s with members := s.members.map (Remarked.shown Member.shown) }

/-- Reads a data set. -/
def ofLayout? (t : Layout) : Option DataSetStatement := do
  let name ← t.fields.head?
  return ⟨name, Layout.pick ["DE"] (fun p => (Member.ofLayout? p).map (⟨[], ·⟩)) t.parts⟩

theorem script_shows (s : DataSetStatement) : s.script.Shows [s.layout] := by
  rw [script, Head.text_ofName "DS" "DS(" rfl]
  exact .block (.concat_map (Remarked.script_shows Member.script_shows) s.members)

theorem plain_layout {s : DataSetStatement} (h : ∀ t ∈ s.texts, Bare t) : s.layout.Plain := by
  obtain ⟨hname, hmembers⟩ := List.forall_mem_cons.mp h
  refine Layout.plain_block (Head.plain_ofName (by decide) hname) (List.forall_mem_map.mpr ?_)
  intro m hm
  refine Layout.plain_ofCall (by decide) (List.cons_ne_nil _ _) fun t ht => ?_
  exact hmembers t (List.mem_flatMap.mpr ⟨m, hm, ht⟩)

theorem ofLayout?_layout (s : DataSetStatement) : ofLayout? s.layout = some s.shown := by
  rw [ofLayout?, layout, Layout.parts, Layout.pick_map]
  · rfl
  · exact fun _ _ => List.mem_singleton_self _
  · intro m hm
    rw [Member.ofLayout?_layout]
    rfl

theorem layout_shown (s : DataSetStatement) : s.shown.layout = s.layout := by
  have hmember (m : Remarked Member) :
      (m.shown Member.shown).statement.layout = m.statement.layout :=
    congrArg (Layout.ofCall "DE") m.statement.fields_shown
  rw [layout, layout, shown, List.map_map]
  exact congrArg _ (List.map_congr_left fun m _ => hmember m)

end DataSetStatement

/-! ## Reports and logs -/

namespace ReportStatement

/-- The fields. -/
def fields (s : ReportStatement) : List Field :=
  [.text s.name, .text s.rptId, .flag s.buffered, .text s.dataSet, .integer s.confRev,
    .natural s.triggers, .natural s.optional, .text s.bufTime, .text s.intgPd]

/-- The layout of a block that is not numbered. -/
def layout (s : ReportStatement) : Layout := .ofCall "RC" s.fields

/-- Reads a control block. -/
def ofLayout? (t : Layout) : Option ReportStatement :=
  match t.fields with
  | [name, rptId, buffered, dataSet, confRev, triggers, optional, bufTime, intgPd] => do
    return ⟨name, rptId, ← Field.flag? buffered, dataSet, ← Text.integer? confRev,
      ← natural? triggers, ← natural? optional, bufTime, intgPd, none⟩
  | _ => none

/-- A single block under a name. -/
def named (s : ReportStatement) (name : String) : ReportStatement :=
  { s with name, instances := none }

/-- The block as such, or each of its numbered instances. -/
def expanded (s : ReportStatement) : List ReportStatement :=
  match s.instances with
  | none => [s.named s.name]
  | some n => (List.range n).map fun i => s.named (s.instanceName (i + 1))

theorem exists_of_mem_expanded {s t : ReportStatement} (h : t ∈ s.expanded) :
    ∃ name, t = s.named name ∧ (Bare s.name → Bare name) := by
  unfold expanded at h
  cases hn : s.instances with
  | none =>
    rw [hn] at h
    exact ⟨s.name, List.mem_singleton.mp h, id⟩
  | some n =>
    rw [hn] at h
    obtain ⟨i, -, rfl⟩ := List.mem_map.mp h
    -- numbers in names are bare
    exact ⟨_, rfl, fun hname => hname.append (.of_isNumeric fun _ => isNumeric_padded)⟩

theorem ofLayout?_layout {s t : ReportStatement} (h : t ∈ s.expanded) :
    ofLayout? t.layout = some t := by
  obtain ⟨name, rfl, -⟩ := exists_of_mem_expanded h
  simp [ofLayout?, layout, Layout.ofCall, fields, named]

theorem line_shows (s : ReportStatement) (name : String) :
    (Script.line (s.line name)).Shows [(s.named name).layout] :=
  .call "RC" "RC(" rfl (s.named name).fields

theorem script_shows (s : ReportStatement) : s.script.Shows (s.expanded.map layout) := by
  unfold script expanded
  cases s.instances with
  | none => exact s.line_shows s.name
  | some n =>
    rw [List.map_map]
    exact .each fun i => s.line_shows (s.instanceName (i + 1))

theorem plain_layout {s t : ReportStatement} (h : ∀ t ∈ texts s.fields, Bare t)
    (ht : t ∈ s.expanded) : t.layout.Plain := by
  obtain ⟨name, rfl, hname⟩ := exists_of_mem_expanded ht
  obtain ⟨hs, hrest⟩ := List.forall_mem_cons.mp h
  exact Layout.plain_ofCall (by decide) (List.cons_ne_nil _ _)
    (List.forall_mem_cons.mpr ⟨hname hs, hrest⟩)

theorem flatMap_expanded (s : ReportStatement) : s.expanded.flatMap expanded = s.expanded := by
  have hexpanded : ∀ t ∈ s.expanded, t.expanded = [t] := by
    intro t ht
    obtain ⟨name, rfl, -⟩ := exists_of_mem_expanded ht
    rfl
  rw [List.flatMap_congr hexpanded]
  exact List.flatMap_singleton' _

end ReportStatement

namespace LogControlStatement

/-- The fields. -/
def fields (s : LogControlStatement) : List Field :=
  [.text s.name, .text s.dataSet, .text s.log, .natural s.triggers, .text s.intgPd,
    .flag s.enabled, .flag s.reasonCode]

/-- The layout. -/
def layout (s : LogControlStatement) : Layout := .ofCall "LC" s.fields

/-- Reads a control block. -/
def ofLayout? (t : Layout) : Option LogControlStatement :=
  match t.fields with
  | [name, dataSet, log, triggers, intgPd, enabled, reasonCode] => do
    return ⟨name, dataSet, log, ← natural? triggers, intgPd, ← Field.flag? enabled,
      ← Field.flag? reasonCode⟩
  | _ => none

theorem ofLayout?_layout (s : LogControlStatement) : ofLayout? s.layout = some s := by
  simp [ofLayout?, layout, Layout.ofCall, fields]

theorem script_shows (s : LogControlStatement) : s.script.Shows [s.layout] :=
  .call "LC" "LC(" rfl s.fields

end LogControlStatement

/-- The layout of a log. -/
def logLayout (name : String) : Layout := .ofCall "LOG" [.text name]

theorem logScript_shows (name : String) : (logScript name).Shows [logLayout name] := by
  have hline := Script.Shows.call "LOG" "LOG(" rfl [.text name]
  rw [List.map_singleton, Field.shown_text, spaced, String.intercalate_singleton] at hline
  exact hline

/-! ## Control blocks with frames -/

namespace Frame

/-- The fields. -/
def fields (f : Frame) : List Field :=
  [.text f.vlanPriority, .text f.vlanId, .text f.appId, .digits f.mac]

/-- Reads the fields. -/
def ofFields? : List String → Option Frame
  | [vlanPriority, vlanId, appId, mac] => do
    return ⟨vlanPriority, vlanId, appId, ← Text.HexString.ofText? mac⟩
  | _ => none

theorem ofFields?_fields (f : Frame) : ofFields? (f.fields.map Field.shown) = some f := by
  simp [ofFields?, fields]

/-- The layout of a call that may have a frame. -/
def layout (tag : String) (fs : List Field) : Option Frame → Layout
  | none => .ofCall tag fs
  | some f => .block (.ofFields tag fs) [.ofCall "PA" f.fields]

/-- Reads the frame of a call, if there is one. -/
def ofLayout? (t : Layout) : Option Frame := t.parts.head?.bind fun p => ofFields? p.fields

theorem ofLayout?_layout (tag : String) (fs : List Field) (frame : Option Frame) :
    ofLayout? (layout tag fs frame) = frame := by
  cases frame with
  | none => rfl
  | some f =>
    rw [ofLayout?, layout, Layout.parts, List.head?_cons, Option.bind_some, Layout.ofCall,
      Layout.fields_single, ofFields?_fields]

@[simp] theorem tag_layout (tag : String) (fs : List Field) (frame : Option Frame) :
    (layout tag fs frame).tag = tag := by
  cases frame <;> rfl

@[simp] theorem fields_layout (tag : String) (fs : List Field) (frame : Option Frame) :
    (layout tag fs frame).fields = fs.map Field.shown := by
  cases frame <;> rfl

theorem script_shows (tag : String) (fs : List Field) (frame : Option Frame) :
    (script (Head.ofFields tag fs).text frame).Shows [layout tag fs frame] := by
  cases frame with
  | none => exact .line (.ofFields tag fs) (.assignment none)
  | some f => exact .block (.call "PA" "PA(" rfl f.fields)

/-- The texts of a call that may have a frame. -/
def texts (fs : List Field) (frame : Option Frame) : List String :=
  Emission.texts fs ++ frame.toList.flatMap fun f => Emission.texts f.fields

theorem plain_layout {tag : String} {fs : List Field} {frame : Option Frame}
    (htag : IsTag tag) (hne : fs ≠ []) (h : ∀ t ∈ texts fs frame, Bare t) :
    (layout tag fs frame).Plain := by
  obtain ⟨hfs, hframe⟩ := List.forall_mem_append.mp h
  cases frame with
  | none => exact Layout.plain_ofCall htag hne hfs
  | some f =>
    refine Layout.plain_block (Head.plain_ofFields htag hne hfs) ?_
    rw [Option.toList_some, List.flatMap_singleton] at hframe
    exact List.forall_mem_singleton.mpr
      (Layout.plain_ofCall (by decide) (List.cons_ne_nil _ _) hframe)

end Frame

namespace GseStatement

/-- The fields. -/
def fields (s : GseStatement) : List Field :=
  [.text s.name, .text s.appId, .text s.dataSet, .integer s.confRev, .flag s.fixedOffs,
    .text s.minTime, .text s.maxTime]

/-- The layout. -/
def layout (s : GseStatement) : Layout := Frame.layout "GC" s.fields s.frame

/-- Reads a control block. -/
def ofLayout? (t : Layout) : Option GseStatement :=
  match t.fields with
  | [name, appId, dataSet, confRev, fixedOffs, minTime, maxTime] => do
    return ⟨name, appId, dataSet, ← Text.integer? confRev, ← Field.flag? fixedOffs, minTime,
      maxTime, Frame.ofLayout? t⟩
  | _ => none

theorem ofLayout?_layout (s : GseStatement) : ofLayout? s.layout = some s := by
  rw [ofLayout?, layout, Frame.ofLayout?_layout, Frame.fields_layout]
  simp [fields]

theorem script_shows (s : GseStatement) : s.script.Shows [s.layout] := by
  have hshows := Frame.script_shows "GC" s.fields s.frame
  rw [← Head.text_ofFields "GC" "GC(" rfl] at hshows
  exact hshows

end GseStatement

namespace SampledStatement

/-- The fields. -/
def fields (s : SampledStatement) : List Field :=
  [.text s.name, .text s.smvId, .text s.dataSet, .integer s.confRev, .text s.smpMod,
    .integer s.smpRate, .natural s.optional, .flag s.multicast]

/-- The layout. -/
def layout (s : SampledStatement) : Layout := Frame.layout "SMVC" s.fields s.frame

/-- Reads a control block. -/
def ofLayout? (t : Layout) : Option SampledStatement :=
  match t.fields with
  | [name, smvId, dataSet, confRev, smpMod, smpRate, optional, multicast] => do
    return ⟨name, smvId, dataSet, ← Text.integer? confRev, smpMod, ← Text.integer? smpRate,
      ← natural? optional, ← Field.flag? multicast, Frame.ofLayout? t⟩
  | _ => none

theorem ofLayout?_layout (s : SampledStatement) : ofLayout? s.layout = some s := by
  rw [ofLayout?, layout, Frame.ofLayout?_layout, Frame.fields_layout]
  simp [fields]

theorem script_shows (s : SampledStatement) : s.script.Shows [s.layout] := by
  have hshows := Frame.script_shows "SMVC" s.fields s.frame
  rw [← Head.text_ofFields "SMVC" "SMVC(" rfl] at hshows
  exact hshows

end SampledStatement

end Substation.Emission
