import Mathlib.Data.List.Basic
import Mathlib.Tactic.Common
import Substation.Proofs.ControlLayout
import Substation.Proofs.DataLayout

/-!
# Layout of a static model

Each statement of a model has a layout. Its lines are those that are written (`script_shows`), they
are plain if the texts of the statement are bare (`plain_layout`), and the statement can be read off
the layout (`ofLayout?_layout`). Entries of the journal leave no trace in the text, and of a
numbered report control block there are only the instances, so what is read is the statement as it
is `shown`.
-/

namespace Substation.Emission

namespace NodeStatement

/-! ## Logical nodes -/

/-- What a logical node holds, kind by kind. -/
def sections (s : NodeStatement) : List Layout.Section := [
  ⟨["SG"], s.settings.toList.map SettingStatement.layout⟩,
  ⟨["DO", "DA"], s.data.map DataStatement.layout⟩,
  ⟨["DS"], s.dataSets.map DataSetStatement.layout⟩,
  ⟨["RC"], (s.reports.flatMap ReportStatement.expanded).map ReportStatement.layout⟩,
  ⟨["LC"], s.logControls.map LogControlStatement.layout⟩,
  ⟨["LOG"], s.logs.map logLayout⟩,
  ⟨["GC"], s.gseControls.map (·.statement.layout)⟩,
  ⟨["SMVC"], s.sampledControls.map (·.statement.layout)⟩]

/-- The layout. -/
def layout (s : NodeStatement) : Layout :=
  .block (.ofName "LN" s.name) (s.sections.flatMap Layout.Section.entries)

/-- The names, identifications, attributes and parts of addresses. -/
def texts (s : NodeStatement) : List String :=
  s.name :: (DataStatement.textsAll s.data ++ s.dataSets.flatMap DataSetStatement.texts ++
    s.reports.flatMap (fun r => Emission.texts r.fields) ++
    s.logControls.flatMap (fun c => Emission.texts c.fields) ++ s.logs ++
    s.gseControls.flatMap (fun c => Frame.texts c.statement.fields c.statement.frame) ++
    s.sampledControls.flatMap (fun c => Frame.texts c.statement.fields c.statement.frame))

/-- The logical node as far as it is written. -/
def shown (s : NodeStatement) : NodeStatement where
  name := s.name
  settings := s.settings
  data := s.data
  dataSets := s.dataSets.map DataSetStatement.shown
  reports := s.reports.flatMap ReportStatement.expanded
  logControls := s.logControls
  logs := s.logs
  gseControls := s.gseControls.map (Remarked.shown id)
  sampledControls := s.sampledControls.map (Remarked.shown id)
  closing := []

/-- Reads a logical node. -/
def ofLayout? (t : Layout) : Option NodeStatement := do
  let name ← t.fields.head?
  return {
    name
    settings := (Layout.pick ["SG"] SettingStatement.ofLayout? t.parts).head?
    data := Layout.pick ["DO", "DA"] DataStatement.ofLayout? t.parts
    dataSets := Layout.pick ["DS"] DataSetStatement.ofLayout? t.parts
    reports := Layout.pick ["RC"] ReportStatement.ofLayout? t.parts
    logControls := Layout.pick ["LC"] LogControlStatement.ofLayout? t.parts
    logs := Layout.pick ["LOG"] (fun p => p.fields.head?) t.parts
    gseControls := Layout.pick ["GC"]
      (fun p => (GseStatement.ofLayout? p).map (⟨[], ·⟩)) t.parts
    sampledControls := Layout.pick ["SMVC"]
      (fun p => (SampledStatement.ofLayout? p).map (⟨[], ·⟩)) t.parts
    closing := [] }

theorem script_shows (s : NodeStatement) : s.script.Shows [s.layout] := by
  have hreports : (Script.concat (s.reports.map ReportStatement.script)).Shows
      ((s.reports.flatMap ReportStatement.expanded).map ReportStatement.layout) := by
    rw [List.map_flatMap]
    exact .concat_flatMap ReportStatement.script_shows _
  have hdata : (DataStatement.scriptAll s.data).Shows (s.data.map DataStatement.layout) := by
    rw [← DataStatement.layouts_eq_map]
    exact DataStatement.scriptAll_shows _
  have hentries : s.sections.flatMap Layout.Section.entries =
      (s.sections.map Layout.Section.entries ++ [[]]).flatten := by
    rw [List.flatten_append, List.flatMap_def]
    exact (List.append_nil _).symm
  rw [script, Head.text_ofName "LN" "LN(" rfl, layout, hentries]
  refine .block (.concat ?_)
  exact .cons (.concat_map SettingStatement.script_shows _) <|
    .cons hdata <|
    .cons (.concat_map DataSetStatement.script_shows _) <|
    .cons hreports <|
    .cons (.concat_map LogControlStatement.script_shows _) <|
    .cons (.concat_map logScript_shows _) <|
    .cons (.concat_map (Remarked.script_shows GseStatement.script_shows) _) <|
    .cons (.concat_map (Remarked.script_shows SampledStatement.script_shows) _) <|
    .cons (.remarks _) .nil

theorem tagged_map {α : Type} {tags : List String} {layout : α → Layout}
    {as : List α} (h : ∀ a, (layout a).tag ∈ tags) :
    (Layout.Section.mk tags (as.map layout)).Tagged :=
  List.forall_mem_map.mpr fun a _ => h a

theorem tagged_of_tag {α : Type} {tag : String} {layout : α → Layout}
    {as : List α} (h : ∀ a, (layout a).tag = tag) :
    (Layout.Section.mk [tag] (as.map layout)).Tagged :=
  tagged_map (fun a => List.mem_singleton.mpr (h a))

theorem tagged_sections (s : NodeStatement) : ∀ sec ∈ s.sections, sec.Tagged := by
  unfold sections
  simp only [List.forall_mem_cons, List.not_mem_nil, false_imp_iff, implies_true, and_true]
  exact ⟨tagged_of_tag fun _ => rfl, tagged_map DataStatement.tag_layout,
    tagged_of_tag fun _ => rfl, tagged_of_tag fun _ => rfl,
    tagged_of_tag fun _ => rfl, tagged_of_tag fun _ => rfl,
    tagged_of_tag fun _ => Frame.tag_layout _ _ _,
    tagged_of_tag fun _ => Frame.tag_layout _ _ _⟩

theorem apart_sections (s : NodeStatement) : s.sections.Pairwise Layout.Section.Apart := by
  unfold sections
  simp [Layout.Section.Apart]

/-- The entries of a kind are read among all the others. -/
theorem pick_layout {α β : Type} (s : NodeStatement) {tags : List String} {as : List β}
    {layout : β → Layout} {read? : Layout → Option α} {shown : β → α}
    (hs : ⟨tags, as.map layout⟩ ∈ s.sections)
    (hread : ∀ b ∈ as, read? (layout b) = some (shown b)) :
    Layout.pick tags read? s.layout.parts = as.map shown := by
  have hpick : Layout.pick tags read? s.layout.parts = Layout.pick tags read? (as.map layout) :=
    Layout.pick_section s.tagged_sections s.apart_sections hs
  rw [hpick]
  exact Layout.pick_map (fun b hb => s.tagged_sections _ hs _ (List.mem_map_of_mem hb)) hread

/-- Bare texts, and values on lines of their own, make plain lines. -/
theorem plain_layout {s : NodeStatement} (h : ∀ t ∈ s.texts, Bare t)
    (hl : ∀ v ∈ DataStatement.literalsAll s.data, '\n' ∉ v.toList) : s.layout.Plain := by
  simp only [texts, List.forall_mem_cons, List.forall_mem_append, List.forall_mem_flatMap,
    and_assoc] at h
  obtain ⟨hname, hdata, hdataSets, hreports, hlogControls, hlogs, hgse, hsampled⟩ := h
  have hdata := DataStatement.plain_layouts s.data hdata hl
  rw [DataStatement.layouts_eq_map] at hdata
  refine Layout.plain_block (Head.plain_ofName (by decide) hname) ?_
  simp only [sections, List.forall_mem_flatMap, List.forall_mem_cons, List.forall_mem_map,
    List.not_mem_nil, false_imp_iff, implies_true, and_true]
  refine ⟨fun c _ => c.plain_layout, List.forall_mem_map.mp hdata,
    fun d hd => DataSetStatement.plain_layout (hdataSets d hd),
    fun r hr t ht => ReportStatement.plain_layout (hreports r hr) ht,
    fun c hc => Layout.plain_ofCall (by decide) (List.cons_ne_nil _ _) (hlogControls c hc),
    fun l hl => Layout.plain_ofCall (by decide) (List.cons_ne_nil _ _)
      (List.forall_mem_singleton.mpr (hlogs l hl)),
    fun c hc => Frame.plain_layout (by decide) (List.cons_ne_nil _ _) (hgse c hc),
    fun c hc => Frame.plain_layout (by decide) (List.cons_ne_nil _ _) (hsampled c hc)⟩

/-- What was written is read. -/
theorem ofLayout?_layout (s : NodeStatement) : ofLayout? s.layout = some s.shown := by
  have hreport : ∀ r ∈ s.reports.flatMap ReportStatement.expanded,
      ReportStatement.ofLayout? r.layout = some r := by
    intro r hr
    obtain ⟨r', -, hr⟩ := List.mem_flatMap.mp hr
    exact ReportStatement.ofLayout?_layout hr
  have hlog : ∀ name ∈ s.logs, (logLayout name).fields.head? = some name := fun _ _ => rfl
  have hgse : ∀ c ∈ s.gseControls,
      (GseStatement.ofLayout? c.statement.layout).map (Remarked.mk []) =
        some (c.shown id) := fun c _ => by
    rw [GseStatement.ofLayout?_layout]
    rfl
  have hsampled : ∀ c ∈ s.sampledControls,
      (SampledStatement.ofLayout? c.statement.layout).map (Remarked.mk []) =
        some (c.shown id) := fun c _ => by
    rw [SampledStatement.ofLayout?_layout]
    rfl
  have hname : s.layout.fields.head? = some s.name := rfl
  rw [ofLayout?, hname,
    s.pick_layout (List.mem_of_getElem? (i := 0) rfl)
      fun c _ => SettingStatement.ofLayout?_layout c,
    s.pick_layout (List.mem_of_getElem? (i := 1) rfl) fun d _ => DataStatement.ofLayout?_layout d,
    s.pick_layout (List.mem_of_getElem? (i := 2) rfl)
      fun d _ => DataSetStatement.ofLayout?_layout d,
    s.pick_layout (List.mem_of_getElem? (i := 3) rfl) hreport,
    s.pick_layout (List.mem_of_getElem? (i := 4) rfl)
      fun c _ => LogControlStatement.ofLayout?_layout c,
    s.pick_layout (List.mem_of_getElem? (i := 5) rfl) hlog,
    s.pick_layout (List.mem_of_getElem? (i := 6) rfl) hgse,
    s.pick_layout (List.mem_of_getElem? (i := 7) rfl) hsampled]
  simp [shown]

theorem layout_shown (s : NodeStatement) : s.shown.layout = s.layout := by
  have hreports : (s.reports.flatMap ReportStatement.expanded).flatMap ReportStatement.expanded =
      s.reports.flatMap ReportStatement.expanded := by
    rw [List.flatMap_assoc]
    exact List.flatMap_congr fun r _ => ReportStatement.flatMap_expanded r
  rw [layout, layout, sections, sections]
  simp only [shown, List.map_map, hreports]
  have hdataSets : DataSetStatement.layout ∘ DataSetStatement.shown = DataSetStatement.layout :=
    funext DataSetStatement.layout_shown
  rw [hdataSets]
  rfl

end NodeStatement

/-! ## Logical devices -/

namespace DeviceStatement

/-- The layout. -/
def layout (s : DeviceStatement) : Layout :=
  .block (.ofName "LD" s.inst) (s.nodes.map NodeStatement.layout)

/-- The names, identifications, attributes and parts of addresses. -/
def texts (s : DeviceStatement) : List String := s.inst :: s.nodes.flatMap NodeStatement.texts

/-- The literals of values. -/
def literals (s : DeviceStatement) : List String :=
  s.nodes.flatMap fun n => DataStatement.literalsAll n.data

/-- The logical device as far as it is written. -/
def shown (s : DeviceStatement) : DeviceStatement := ⟨s.inst, s.nodes.map NodeStatement.shown⟩

/-- Reads a logical device. -/
def ofLayout? (t : Layout) : Option DeviceStatement := do
  let inst ← t.fields.head?
  return ⟨inst, Layout.pick ["LN"] NodeStatement.ofLayout? t.parts⟩

theorem script_shows (s : DeviceStatement) : s.script.Shows [s.layout] := by
  rw [script, Head.text_ofName "LD" "LD(" rfl]
  exact .block (.concat_map NodeStatement.script_shows s.nodes)

theorem plain_layout {s : DeviceStatement} (h : ∀ t ∈ s.texts, Bare t)
    (hl : ∀ v ∈ s.literals, '\n' ∉ v.toList) : s.layout.Plain := by
  obtain ⟨hinst, hnodes⟩ := List.forall_mem_cons.mp h
  rw [List.forall_mem_flatMap] at hnodes
  rw [literals, List.forall_mem_flatMap] at hl
  exact Layout.plain_block (Head.plain_ofName (by decide) hinst)
    (List.forall_mem_map.mpr fun n hn => NodeStatement.plain_layout (hnodes n hn) (hl n hn))

theorem ofLayout?_layout (s : DeviceStatement) : ofLayout? s.layout = some s.shown := by
  rw [ofLayout?, layout, Layout.parts, Layout.pick_map]
  · rfl
  · exact fun _ _ => List.mem_singleton_self _
  · exact fun n _ => n.ofLayout?_layout

theorem layout_shown (s : DeviceStatement) : s.shown.layout = s.layout := by
  rw [layout, layout, shown, List.map_map]
  exact congrArg _ (List.map_congr_left fun n _ => n.layout_shown)

end DeviceStatement

/-! ## The model -/

namespace ModelStatement

/-- The layout. -/
def layout (s : ModelStatement) : Layout :=
  .block (.ofName "MODEL" s.name) (s.devices.map DeviceStatement.layout)

/-- The names, identifications, attributes and parts of addresses. -/
def texts (s : ModelStatement) : List String := s.name :: s.devices.flatMap DeviceStatement.texts

/-- The literals of values. -/
def literals (s : ModelStatement) : List String := s.devices.flatMap DeviceStatement.literals

/-- The texts are bare, and every value stays on its line. -/
def Plain (s : ModelStatement) : Prop :=
  (∀ t ∈ s.texts, Bare t) ∧ ∀ v ∈ s.literals, '\n' ∉ v.toList

/-- The model as far as it is written. -/
def shown (s : ModelStatement) : ModelStatement := ⟨s.name, s.devices.map DeviceStatement.shown⟩

/-- Reads a model. -/
def ofLayout? (t : Layout) : Option ModelStatement := do
  let name ← t.fields.head?
  return ⟨name, Layout.pick ["LD"] DeviceStatement.ofLayout? t.parts⟩

theorem script_shows (s : ModelStatement) : s.script.Shows [s.layout] := by
  rw [script, Head.text_ofName "MODEL" "MODEL(" rfl]
  exact .block (.concat_map DeviceStatement.script_shows s.devices)

theorem plain_layout {s : ModelStatement} (h : s.Plain) : s.layout.Plain := by
  obtain ⟨htexts, hliterals⟩ := h
  obtain ⟨hname, hdevices⟩ := List.forall_mem_cons.mp htexts
  rw [List.forall_mem_flatMap] at hdevices
  rw [literals, List.forall_mem_flatMap] at hliterals
  exact Layout.plain_block (Head.plain_ofName (by decide) hname)
    (List.forall_mem_map.mpr fun d hd =>
      DeviceStatement.plain_layout (hdevices d hd) (hliterals d hd))

theorem ofLayout?_layout (s : ModelStatement) : ofLayout? s.layout = some s.shown := by
  rw [ofLayout?, layout, Layout.parts, Layout.pick_map]
  · rfl
  · exact fun _ _ => List.mem_singleton_self _
  · exact fun d _ => d.ofLayout?_layout

theorem layout_shown (s : ModelStatement) : s.shown.layout = s.layout := by
  rw [layout, layout, shown, List.map_map]
  exact congrArg _ (List.map_congr_left fun d _ => d.layout_shown)

theorem text_eq (s : ModelStatement) :
    s.script.text = s.layout.lines.flatMap fun l => l.toList ++ ['\n'] := by
  rw [Script.text, s.script_shows, Layout.linesAll, List.flatMap_singleton]

/-- The model as far as it is written has the whole text. -/
theorem text_shown (s : ModelStatement) : s.shown.script.text = s.script.text := by
  rw [text_eq, text_eq, layout_shown]

/-- Reads the text of a static model. -/
def read? (text : String) : Option ModelStatement := (Layout.read? text.toList).bind ofLayout?

/-- What was written is read. -/
theorem read?_text {s : ModelStatement} (h : s.Plain) :
    read? (String.ofList s.script.text) = some s.shown := by
  rw [read?, String.toList_ofList, text_eq, Layout.read?_lines (plain_layout h)]
  exact s.ofLayout?_layout

/-- Models that are written alike are alike, as far as they are written. -/
theorem shown_inj {s s' : ModelStatement} (h : s.Plain) (h' : s'.Plain)
    (htext : s.script.text = s'.script.text) : s.shown = s'.shown := by
  have hread := read?_text h
  rw [htext, read?_text h'] at hread
  exact (Option.some.inj hread).symm

end ModelStatement

end Substation.Emission
