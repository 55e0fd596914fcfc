import Mathlib.Data.List.Basic
import Mathlib.Tactic.Common
import Substation.Proofs.EmittedBlocks

/-!
# Lines for data

The lines for data are those for data objects, attributes and elements of arrays. In the block of a
logical node they are the lines of its data objects (`NodeStatement.dataHeads_layout`); what else it
holds has none (`NodeStatement.noData_of_mem`).
-/

namespace Substation.Emission

/-- What stands at the front of a line that does not close a block. -/
def Row.head? : Row → Option Head
  | opens h => some h
  | closes => none
  | single h _ => some h

/-- Whether a line is one for data: for a data object, an attribute or an element of an array. -/
def Head.isData : Head → Bool
  | call tag _ => tag ∈ ["DO", "DA"]
  | element _ => true

namespace Layout

/-- What stands at the front of the lines, from top to bottom. -/
def heads (t : Layout) : List Head := t.rows.filterMap Row.head?

@[simp] theorem heads_block (h : Head) (parts : List Layout) :
    (block h parts).heads = h :: parts.flatMap heads := by
  rw [heads, rows, rowsAll_eq_flatMap, List.filterMap_cons_some (by rfl), List.filterMap_append,
    List.filterMap_flatMap]
  exact congrArg _ (List.append_nil _)

/-- No line is one for data. -/
def NoData (t : Layout) : Prop := ∀ h ∈ t.heads, h.isData = false

/-- Every line is one for data. -/
def AllData (t : Layout) : Prop := ∀ h ∈ t.heads, h.isData = true

theorem noData_single {h : Head} (hh : h.isData = false) (t : Tail) : (single h t).NoData :=
  List.forall_mem_singleton.mpr hh

theorem noData_block {h : Head} {parts : List Layout} (hh : h.isData = false)
    (hparts : ∀ t ∈ parts, t.NoData) : (block h parts).NoData := by
  unfold NoData
  rw [heads_block, List.forall_mem_cons, List.forall_mem_flatMap]
  exact ⟨hh, hparts⟩

theorem allData_block {h : Head} {parts : List Layout} (hh : h.isData = true)
    (hparts : ∀ t ∈ parts, t.AllData) : (block h parts).AllData := by
  unfold AllData
  rw [heads_block, List.forall_mem_cons, List.forall_mem_flatMap]
  exact ⟨hh, hparts⟩

/-- The lines for data among some parts, if each part has either only such lines or none. -/
theorem filter_isData_flatMap {parts : List Layout} {p : Layout → Bool}
    (hdata : ∀ t ∈ parts, p t = true → t.AllData) (hnone : ∀ t ∈ parts, p t = false → t.NoData) :
    (parts.flatMap heads).filter Head.isData = (parts.filter p).flatMap heads := by
  induction parts with
  | nil => rfl
  | cons t parts ih =>
    obtain ⟨hdata, hdatas⟩ := List.forall_mem_cons.mp hdata
    obtain ⟨hnone, hnones⟩ := List.forall_mem_cons.mp hnone
    rw [List.flatMap_cons, List.filter_append, ih hdatas hnones]
    cases hp : p t with
    | true =>
      rw [List.filter_cons_of_pos hp, List.flatMap_cons, List.filter_eq_self.mpr (hdata hp)]
    | false =>
      have hempty : t.heads.filter Head.isData = [] :=
        List.filter_eq_nil_iff.mpr fun h hh => by simp [hnone hp h hh]
      rw [List.filter_cons_of_neg (by simp [hp]), hempty, List.nil_append]

end Layout

namespace DataStatement

theorem allData_contents {count : Nat} {parts : List Layout} {element : Nat → Layout}
    (hparts : ∀ t ∈ parts, t.AllData) (helement : ∀ i, (element i).AllData) :
    ∀ t ∈ contents count parts element, t.AllData := by
  unfold contents
  split
  · exact hparts
  · exact List.forall_mem_map.mpr fun i _ => helement i

mutual

theorem allData_layout : ∀ s : DataStatement, s.layout.AllData
  | object name count parts =>
    Layout.allData_block rfl (allData_contents (allData_layouts parts) fun _ =>
      Layout.allData_block rfl (allData_layouts parts))
  | group f parts =>
    Layout.allData_block rfl (allData_contents (allData_layouts parts) fun _ =>
      Layout.allData_block rfl (allData_layouts parts))
  | value f literal => by
    have hline : ∀ i, (Layout.single (.element i) (.assignment literal)).AllData := fun _ =>
      List.forall_mem_singleton.mpr rfl
    rw [layout]
    split
    · exact List.forall_mem_singleton.mpr rfl
    · exact Layout.allData_block rfl (List.forall_mem_map.mpr fun i _ => hline i)

theorem allData_layouts : ∀ ss : List DataStatement, ∀ t ∈ layouts ss, t.AllData
  | [] => List.forall_mem_nil _
  | s :: ss => List.forall_mem_cons.mpr ⟨allData_layout s, allData_layouts ss⟩

end

end DataStatement

theorem Head.isData_ofFields {tag : String} {fs : List Field} (h : tag ∉ ["DO", "DA"]) :
    (Head.ofFields tag fs).isData = false :=
  decide_eq_false h

theorem Layout.noData_ofCall {tag : String} {fs : List Field} (h : tag ∉ ["DO", "DA"]) :
    (Layout.ofCall tag fs).NoData :=
  Layout.noData_single (Head.isData_ofFields h) _

theorem Frame.noData_layout {tag : String} {fs : List Field} (h : tag ∉ ["DO", "DA"])
    (frame : Option Frame) : (Frame.layout tag fs frame).NoData := by
  cases frame with
  | none => exact Layout.noData_ofCall h
  | some f =>
    exact Layout.noData_block (Head.isData_ofFields h)
      (List.forall_mem_singleton.mpr (Layout.noData_ofCall (by decide)))

namespace NodeStatement

/-- What a logical node holds besides its data has no lines for data. -/
theorem noData_of_mem {s : NodeStatement} {t : Layout} (ht : t ∈ s.layout.parts)
    (htag : t.tag ∉ ["DO", "DA"]) : t.NoData := by
  obtain ⟨sec, hsec, ht⟩ := List.mem_flatMap.mp ht
  simp only [sections, List.mem_cons, List.not_mem_nil, or_false] at hsec
  rcases hsec with rfl | rfl | rfl | rfl | rfl | rfl | rfl | rfl
  all_goals obtain ⟨c, -, rfl⟩ := List.mem_map.mp ht
  · exact Layout.noData_single (Head.isData_ofFields (by decide)) _
  · exact absurd c.tag_layout htag
  · exact Layout.noData_block (Head.isData_ofFields (by decide))
      (List.forall_mem_map.mpr fun _ _ => Layout.noData_ofCall (by decide))
  · exact Layout.noData_ofCall (by decide)
  · exact Layout.noData_ofCall (by decide)
  · exact Layout.noData_ofCall (by decide)
  · exact Frame.noData_layout (by decide) _
  · exact Frame.noData_layout (by decide) _

theorem filter_data (s : NodeStatement) :
    s.layout.parts.filter (·.tag ∈ ["DO", "DA"]) = DataStatement.layouts s.data := by
  rw [DataStatement.layouts_eq_map]
  exact s.filter_layout (List.mem_of_getElem? (i := 1) rfl)

/-- The lines for data of a logical node are those of its data objects. -/
theorem dataHeads_layout (s : NodeStatement) : s.layout.heads.filter Head.isData =
    (DataStatement.layouts s.data).flatMap Layout.heads := by
  show ((Layout.block (.ofName "LN" s.name) s.layout.parts).heads).filter Head.isData = _
  have hhead : (Head.ofName "LN" s.name).isData = false := Head.isData_ofFields (by decide)
  rw [Layout.heads_block, List.filter_cons_of_neg (by simp [hhead]), ← s.filter_data]
  refine Layout.filter_isData_flatMap (fun t ht htag => ?_) fun t ht htag =>
    noData_of_mem ht (of_decide_eq_false htag)
  refine DataStatement.allData_layouts s.data t ?_
  rw [← s.filter_data]
  exact List.mem_filter.mpr ⟨ht, htag⟩

end NodeStatement

theorem DeviceStatement.dataHeads_layout (s : DeviceStatement) :
    s.layout.heads.filter Head.isData =
      s.nodes.flatMap fun n => (DataStatement.layouts n.data).flatMap Layout.heads := by
  have hhead : (Head.ofName "LD" s.inst).isData = false := Head.isData_ofFields (by decide)
  rw [layout, Layout.heads_block, List.filter_cons_of_neg (by simp [hhead]), List.flatMap_map,
    List.filter_flatMap]
  exact List.flatMap_congr fun n _ => n.dataHeads_layout

/-- The lines for data of a model are those of the data objects of its logical nodes. -/
theorem ModelStatement.dataHeads_layout (s : ModelStatement) :
    s.layout.heads.filter Head.isData = s.devices.flatMap fun dev =>
      dev.nodes.flatMap fun n => (DataStatement.layouts n.data).flatMap Layout.heads := by
  have hhead : (Head.ofName "MODEL" s.name).isData = false := Head.isData_ofFields (by decide)
  rw [layout, Layout.heads_block, List.filter_cons_of_neg (by simp [hhead]), List.flatMap_map,
    List.filter_flatMap]
  exact List.flatMap_congr fun dev _ => dev.dataHeads_layout

end Substation.Emission
