import Mathlib.Data.List.Basic
import Mathlib.Tactic.Common
import Substation.Proofs.RenamedBranches
import Substation.Proofs.Stems

/-!
# Renamed logical nodes

A logical node may be renamed before the model is written. What is written then differs in the block
of the logical node only (`exists_lines_rename`): it has the new name, also where its log control
blocks refer to it. The values in the block need not stay. A value directly below a data object is
found only while the reference of its attribute continues that of the logical node, which is now
another one; so it is lost, while a value in a nested part is still found (`renamed_node_written`,
`renaming_loses_value`).

Results:
* `exists_lines_rename` (`write_logical_node`): only the block of the logical node differs;
* `renamed_node_written` (`dai_for_attribute`): which values are left in it;
* `renaming_loses_value`: a value that is lost.
-/

namespace Substation

open Substation.Config
open Substation.Emission
open Substation.Model
open Substation.Resolution
open Substation.Template

/-! ## The text -/

/-- Two ways of picking that differ at one element differ in what they pick there. -/
theorem exists_filterMap_around {α β : Type} {as : List α} {a : α} (hnodup : as.Nodup)
    (ha : a ∈ as) {f g : α → Option β} {x y : β} (hf : f a = some x) (hg : g a = some y)
    (h : ∀ a' ∈ as, a' ≠ a → g a' = f a') : ∃ front back,
      as.filterMap f = front ++ x :: back ∧ as.filterMap g = front ++ y :: back := by
  obtain ⟨front, back, rfl⟩ := List.append_of_mem ha
  obtain ⟨hnot, -⟩ := List.nodup_cons.mp (List.nodup_middle.mp hnodup)
  have hsame : ∀ a' ∈ front ++ back, g a' = f a' := by
    intro a' ha'
    refine h a' ?_ (ne_of_mem_of_not_mem ha' hnot)
    exact List.mem_append.mpr ((List.mem_append.mp ha').imp_right (List.mem_cons_of_mem a))
  obtain ⟨hfront, hback⟩ := List.forall_mem_append.mp hsame
  refine ⟨front.filterMap f, back.filterMap f, ?_, ?_⟩
  · rw [List.filterMap_append, List.filterMap_cons_some hf]
  · rw [List.filterMap_append, List.filterMap_cons_some hg, List.filterMap_congr hfront,
      List.filterMap_congr hback]

namespace Emission.Setting

variable {w : Setting} {ln dev : Branch} {config : LogicalNode} {inst : String}
  {space devSpace : Option Namespace}

section

variable (hm : w.model.Lawful) (hln : ln.Stands w.model)
  (hconfig : ln.node.kind = .logicalNode config space)
include hm hln hconfig

/-- In the statement of its logical device, that of the logical node alone changes. -/
theorem exists_deviceStatement_rename (hdev : dev.Stands w.model)
    (hkind : dev.node.kind = .device inst devSpace) (hmem : ln ∈ dev.branches) (name : String) :
    ∃ front back,
      w.deviceStatement? dev = some ⟨inst, front ++ w.nodeStatement inst ln config :: back⟩ ∧
      (w.rename ln.id name).deviceStatement? (dev.renameBelow ln.id name) =
        some ⟨inst,
          front ++ (w.rename ln.id name).nodeStatement inst (ln.rename name) config :: back⟩ := by
  have hk : ln.node.kind.isLogicalNode := by
    rw [hconfig]
    rfl
  have hrenamed : (w.rename ln.id name).nodeStatement? inst (ln.renameAt ln.id name) =
      some ((w.rename ln.id name).nodeStatement inst (ln.rename name) config) := by
    have hconfig' : (ln.rename name).node.kind = .logicalNode config space := by
      rw [Branch.node_rename]
      exact hconfig
    rw [Branch.renameAt, if_pos rfl, nodeStatement?_eq hconfig']
  have hother : ∀ b ∈ dev.branches, b ≠ ln →
      (w.rename ln.id name).nodeStatement? inst (b.renameAt ln.id name) =
        w.nodeStatement? inst b := by
    intro b hb hne
    have hid : b.id ≠ ln.id := fun hid => hne ((hdev.of_mem hb).unique hln hid)
    rw [Branch.renameAt_of_ne hid, nodeStatement?_rename_of_ne hm hln hk (hdev.of_mem hb) hid]
  obtain ⟨front, back, hbefore, hafter⟩ := exists_filterMap_around (hdev.nodup_branches hm.forest)
    hmem (nodeStatement?_eq hconfig) hrenamed hother
  have hkind' : (dev.renameBelow ln.id name).node.kind = .device inst devSpace := hkind
  refine ⟨front, back, ?_, ?_⟩
  · rw [deviceStatement?_eq hkind, hbefore]
  · rw [deviceStatement?_eq hkind', Branch.renameBelow, Branch.branches, List.filterMap_map,
      Function.comp_def, hafter]

/-- In the statement of the model, that of the logical device alone changes. -/
theorem exists_modelStatement_rename (hdev : dev.Stands w.model) (hid : dev.id ∈ w.model.devices)
    (hparent : ln.node.parent = some dev.id) {name : String} {s s' : DeviceStatement}
    (hs : w.deviceStatement? dev = some s)
    (hs' : (w.rename ln.id name).deviceStatement? (dev.renameBelow ln.id name) = some s') :
    ∃ front back, w.modelStatement = ⟨w.model.name, front ++ s :: back⟩ ∧
      (w.rename ln.id name).modelStatement =
        ⟨w.model.name, front ++ s' :: back⟩ := by
  have hk : ln.node.kind.isLogicalNode := by
    rw [hconfig]
    rfl
  have hbefore : (w.model.branch? dev.id).bind w.deviceStatement? = some s := by
    rw [hdev.branch?, Option.bind_some, hs]
  have hafter : ((w.model.rename ln.id name).branch? dev.id).bind
      (w.rename ln.id name).deviceStatement? = some s' := by
    rw [IedModel.branch?_rename hm hln hk hid, hdev.branch?, Option.map_some, Option.bind_some, hs']
  -- the logical node is in no other logical device
  have hother : ∀ d ∈ w.model.devices, d ≠ dev.id →
      ((w.model.rename ln.id name).branch? d).bind (w.rename ln.id name).deviceStatement? =
        (w.model.branch? d).bind w.deviceStatement? := by
    intro d hd hne
    obtain ⟨b, hb, rfl, hdevice⟩ := hm.exists_of_mem_devices hd
    have hbelow : ∀ c ∈ b.branches, c.id ≠ ln.id := by
      intro c hc hid
      obtain rfl := (hb.of_mem hc).unique hln hid
      exact hne (Option.some.inj ((hb.parent_of_mem hm hc).symm.trans hparent))
    obtain ⟨inst, space, hkind⟩ := NodeKind.exists_of_isDevice hdevice
    rw [IedModel.branch?_rename hm hln hk hd, hb.branch?, Option.map_some, Option.bind_some,
      Option.bind_some, Branch.renameBelow_of_forall_ne hbelow, deviceStatement?_eq hkind,
      deviceStatement?_eq hkind]
    refine congrArg (fun nodes => some (DeviceStatement.mk inst nodes)) ?_
    exact List.filterMap_congr fun c hc =>
      nodeStatement?_rename_of_ne hm hln hk (hb.of_mem hc) (hbelow c hc) inst name
  obtain ⟨front, back, hfront, hback⟩ := exists_filterMap_around
    (hm.forest.devices_sorted.imp Nat.ne_of_lt) hid hbefore hafter hother
  refine ⟨front, back, ?_, ?_⟩
  · rw [modelStatement, List.filterMap_filterMap, hfront]
  · rw [modelStatement, List.filterMap_filterMap, model_rename, IedModel.devices_rename,
      IedModel.name_rename, hback]

omit hm hln hconfig in
/-- The lines around those of a logical node do not depend on it. -/
theorem exists_lines_around (name inst : String) (devices devices' : List DeviceStatement)
    (nodes nodes' : List NodeStatement) : ∃ front back, ∀ s : NodeStatement,
      (ModelStatement.mk name (devices ++ ⟨inst, nodes ++ s :: nodes'⟩ :: devices')).layout.lines =
        front ++ s.layout.lines ++ back := by
  refine ⟨((Head.ofName "MODEL" name).text ++ "\x7b") ::
      Layout.linesAll (devices.map DeviceStatement.layout) ++
        ((Head.ofName "LD" inst).text ++ "\x7b") ::
          Layout.linesAll (nodes.map NodeStatement.layout),
    Layout.linesAll (nodes'.map NodeStatement.layout) ++ ["\x7d"] ++
      (Layout.linesAll (devices'.map DeviceStatement.layout) ++ ["\x7d"]), fun s => ?_⟩
  rw [ModelStatement.layout, List.map_append, List.map_cons, DeviceStatement.layout,
    List.map_append, List.map_cons, Layout.lines_block_append, Layout.lines_block_append]
  simp only [List.append_assoc, List.cons_append]

/-- **Renaming a logical node changes no line outside its block.** -/
theorem exists_lines_rename (name : String) :
    ∃ dev inst front back, ln.node.parent = some dev ∧ w.model.inst? dev = some inst ∧
      w.modelStatement.layout.lines =
        front ++ (w.nodeStatement inst ln config).layout.lines ++ back ∧
      (w.rename ln.id name).modelStatement.layout.lines =
        front ++ ((w.rename ln.id name).nodeStatement inst (ln.rename name) config).layout.lines ++
          back := by
  obtain ⟨dev, inst, devSpace, hdev, hid, hkind, hparent, hmem⟩ := exists_device hm hln hconfig
  obtain ⟨nodes, nodes', hs, hs'⟩ :=
    exists_deviceStatement_rename hm hln hconfig hdev hkind hmem name
  obtain ⟨devices, devices', hmodel, hmodel'⟩ :=
    exists_modelStatement_rename hm hln hconfig hdev hid hparent hs hs'
  have hinst : w.model.inst? dev.id = some inst := by
    unfold IedModel.inst?
    rw [hdev.node?, Option.map_some, hkind]
  obtain ⟨front, back, hlines⟩ :=
    exists_lines_around w.model.name inst devices devices' nodes nodes'
  refine ⟨dev.id, inst, front, back, hparent, hinst, ?_, ?_⟩
  · rw [hmodel, hlines]
  · rw [hmodel', hlines]

end

end Emission.Setting

/-! ## The values -/

namespace Model

variable {m : IedModel} {ln object c : Branch} {config : LogicalNode} {ref : String}

/-- What is not directly below the data object is found by its reference. -/
theorem valueBelow?_of_ref_ne (h : c.ref ≠ ref ++ "." ++ object.name ++ "." ++ c.name) :
    valueBelow? config ref object c =
      (config.instance? object.name).bind (pathValue? · c.ref) := by
  unfold valueBelow?
  refine Option.bind_congr fun doi hdoi => ?_
  have hname : doi.name = object.name := (mem_of_find?_name hdoi).2
  have hnone : ((doi.leaf? c.name).filter fun dai =>
      c.ref = ref ++ "." ++ doi.name ++ "." ++ dai.name) = none := by
    cases hleaf : doi.leaf? c.name with
    | none => rfl
    | some dai => rw [Option.filter_some, name_of_leaf? doi hleaf, hname, decide_eq_false h]; rfl
  rw [hnone]

/-- Where no value of the name is directly below the data object, one is found by the reference. -/
theorem valueBelow?_of_leaf?_eq_none
    (h : (config.instance? object.name).bind (·.leaf? c.name) = none) :
    valueBelow? config ref object c =
      (config.instance? object.name).bind (pathValue? · c.ref) := by
  unfold valueBelow?
  refine Option.bind_congr fun doi hdoi => ?_
  rw [hdoi, Option.bind_some] at h
  rw [h, Option.filter_none]

/-- References of different lengths below one node are the same for a longer name only. -/
theorem ref_ne_of_not_prefix {front old name object rest leaf : String}
    (h : ¬ old.toList ++ ['.'] <+: name.toList) :
    front ++ old ++ "." ++ object ++ "." ++ rest ++ "." ++ leaf ≠
      front ++ name ++ "." ++ object ++ "." ++ leaf := by
  intro heq
  have hlist := congrArg String.toList heq
  simp only [String.toList_append, List.append_assoc, List.append_cancel_left_eq] at hlist
  have hlength := congrArg List.length hlist
  have hdot : ".".toList = ['.'] := rfl
  simp only [List.length_append, hdot, List.length_singleton] at hlength
  have hold : old.toList ++ ".".toList <+: name.toList ++ _ :=
    ⟨_, (List.append_assoc _ _ _).trans hlist⟩
  refine h (List.prefix_of_prefix_length_le hold (List.prefix_append _ _) ?_)
  rw [List.length_append, List.length_singleton]
  omega

theorem Branch.Reaches.eq_or_exists_last {names : List String} (hr : object.Reaches names c) :
    c = object ∨ ∃ d names', object.Reaches names' d ∧ c ∈ d.branches := by
  induction hr with
  | refl b => exact .inl rfl
  | @step b c d names hc _ ih =>
    rcases ih with rfl | ⟨e, names', hr, hd⟩
    · exact .inr ⟨b, [], .refl b, hc⟩
    · exact .inr ⟨e, c.name :: names', .step hc hr, hd⟩

section

variable (hm : m.Lawful) (hln : ln.Stands m) (hconfig : ln.node.kind.config? = some config)
  (ho : object ∈ ln.branches)
include hm hln hconfig

/-- The references of the logical node before and after the renaming. -/
theorem exists_ref_rename (name : String) :
    ∃ front, ln.ref = front ++ ln.name ∧ (ln.node.rename name).ref = front ++ name := by
  obtain ⟨-, hdevice, -⟩ := NodeKind.of_config?_eq_some hconfig
  obtain ⟨dev, hdev, hmem⟩ := hln.exists_above hm hdevice
  have href := (hdev.law_of_mem hm hmem).2
  exact ⟨_, href, Node.ref_rename href name⟩

include ho

/-- The reference of what is directly below the data object. -/
theorem ref_of_mem_branches (hc : c ∈ object.branches) :
    c.ref = ln.ref ++ "." ++ object.name ++ "." ++ c.name := by
  obtain ⟨-, hdevice, -⟩ := NodeKind.of_config?_eq_some hconfig
  have hr : ln.Reaches [object.name, c.name] c := .step ho (.step hc (.refl c))
  exact hr.ref_eq hm hln hdevice

/-- The reference of what is further below has more names in it. -/
theorem exists_ref_of_mem_preorder (hc : c ∈ object.preorder) (hleaf : c.node.kind.isLeaf)
    (hfar : c ∉ object.branches) :
    ∃ rest, c.ref = ln.ref ++ "." ++ object.name ++ "." ++ rest ++ "." ++ c.name := by
  obtain ⟨hk, hdevice, -⟩ := NodeKind.of_config?_eq_some hconfig
  have hadmits := (hln.law_of_mem hm ho).1
  obtain ⟨names, hr⟩ := Branch.mem_preorder_iff.mp hc
  rcases hr.eq_or_exists_last with rfl | ⟨d, names', hr', hcd⟩
  · rw [NodeKind.isLeaf_eq_false (hadmits.isObject_of_isLogicalNode hk)] at hleaf
    exact Bool.noConfusion hleaf
  · cases names' with
    | nil =>
      cases hr'
      exact absurd hcd hfar
    | cons n names' =>
      have hd := hr'.stands (hln.of_mem ho)
      have hddevice : d.node.kind.isDevice = false :=
        ((hln.kind_of_mem_branches hm hdevice ho) d hr'.mem_preorder).1
      have hdref := (Branch.Reaches.step ho hr').ref_eq hm hln hdevice
      have hcref := (hd.law_of_mem hm hcd).2
      refine ⟨String.ofList (n.toList ++ Text.joined '.' names'), ?_⟩
      rw [hcref, NodeKind.separator_of_not_isDevice hddevice, hdref, ← String.toList_inj]
      simp [refBelow_toList, Text.joined, String.toList_append]

/-- A value is found with the reference that the logical node has then. -/
theorem configured?_rename_of_mem (hc : c ∈ object.preorder) (name : String) :
    m.configured? c.id = valueBelow? config ln.ref object c ∧
      (m.rename ln.id name).configured? c.id =
        valueBelow? config (ln.node.rename name).ref object c := by
  obtain ⟨hk, -, -⟩ := NodeKind.of_config?_eq_some hconfig
  obtain ⟨names, hr⟩ := Branch.mem_preorder_iff.mp hc
  have hrenamed : (ln.renameAt ln.id name).ref = (ln.node.rename name).ref := by
    rw [Branch.renameAt, if_pos rfl, Branch.ref, Branch.node_rename]
  rw [configured?_rename hm hln hconfig ho hr hln hk name, hrenamed]
  exact ⟨configured?_of_reaches hm hln hconfig ho hr, rfl⟩

/-- **What is not lost**: all values if the name stays, those in nested parts unless the old name
with a dot begins the new one, and what attributes get that have no value directly below the data
object. -/
theorem configured?_rename_eq (hc : c ∈ object.preorder) (hleaf : c.node.kind.isLeaf)
    {name : String} (h : name = ln.name ∨
      (c ∉ object.branches ∧ ¬ ln.name.toList ++ ['.'] <+: name.toList) ∨
      (config.instance? object.name).bind (·.leaf? c.name) = none) :
    (m.rename ln.id name).configured? c.id = m.configured? c.id := by
  obtain ⟨hbefore, hafter⟩ := configured?_rename_of_mem hm hln hconfig ho hc name
  obtain ⟨front, href, href'⟩ := exists_ref_rename hm hln hconfig name
  rw [hbefore, hafter]
  rcases h with rfl | ⟨hfar, hprefix⟩ | hnone
  · rw [href', ← href]
  · obtain ⟨rest, hcref⟩ := exists_ref_of_mem_preorder hm hln hconfig ho hc hleaf hfar
    have hself : ¬ ln.name.toList ++ ['.'] <+: ln.name.toList := fun hle => by
      have hlength := hle.length_le
      rw [List.length_append, List.length_singleton] at hlength
      omega
    rw [href] at hcref
    rw [valueBelow?_of_ref_ne, valueBelow?_of_ref_ne]
    · rw [href, hcref]
      exact ref_ne_of_not_prefix hself
    · rw [href', hcref]
      exact ref_ne_of_not_prefix hprefix
  · rw [valueBelow?_of_leaf?_eq_none hnone, valueBelow?_of_leaf?_eq_none hnone]

/-- **What is lost**: under another name, an attribute directly below a data object gets only what
the segments of its reference lead to. -/
theorem configured?_rename_of_mem_branches (hc : c ∈ object.branches) {name : String}
    (hne : name ≠ ln.name) : (m.rename ln.id name).configured? c.id =
      (config.instance? object.name).bind (pathValue? · c.ref) := by
  have hmem := Branch.mem_preorder_of_mem_branches hc c.self_mem_preorder
  obtain ⟨front, href, href'⟩ := exists_ref_rename hm hln hconfig name
  rw [(configured?_rename_of_mem hm hln hconfig ho hmem name).2]
  refine valueBelow?_of_ref_ne ?_
  rw [ref_of_mem_branches hm hln hconfig ho hc, href, href']
  intro heq
  simp only [String.append_assoc, String.append_right_inj, String.append_left_inj] at heq
  exact hne heq.symm

/-- Without dots in the names, the segments lead nowhere. -/
theorem pathValue?_of_mem_branches (hc : c ∈ object.branches) (hdot : '.' ∉ ln.ref.toList)
    (hodot : '.' ∉ object.name.toList) (hcdot : '.' ∉ c.name.toList) (doi : Doi) :
    pathValue? doi c.ref = none := by
  obtain ⟨path, hfirst, hsegments⟩ :=
    splitFirst?_refBelow (b := ln) hdot hodot (List.forall_mem_singleton.mpr hcdot)
  have href : c.ref = refBelow ln [object.name, c.name] :=
    ref_of_mem_branches hm hln hconfig ho hc
  rw [pathValue?, href, hfirst, Option.bind_some, hsegments]
  rfl

end

end Model

/-! ## All together -/

/-- The resolution with a node of its model renamed. -/
def Resolution.rename (res : Resolution) (id : Nat) (name : String) : Resolution :=
  { res with model := res.model.rename id name }

/-- **Renaming a logical node changes its block, and may lose values in it.** Nothing outside the
block changes. In the block the name is the new one, also in the references of the log control
blocks, and the values are what is then found for the attributes: of a value that the data object
has directly below it, nothing is left under any other name, unless dots in the names let the
reference lead to some value. All other values are what they were, unless the new name is the old
one with something behind a dot. -/
theorem renamed_node_written {d : Document} {ied : String} {ap : Option String}
    {o : ResolveOptions} {res : Resolution} (h : resolve d ied ap o = .ok res) {id : Nat}
    {ln : Branch} (hln : res.model.branch? id = some ln) {config : LogicalNode}
    (hconfig : ln.node.kind.config? = some config) (name : String) (eo : EmitOptions) :
    (∃ dev inst front back, ∃ before : NodeStatement,
      ln.node.parent = some dev ∧ res.model.inst? dev = some inst ∧
      before = (res.setting d eo).nodeStatement inst ln config ∧
      (emit d res eo none).text = textOfLines (front ++ before.layout.lines ++ back) ∧
      (emit d (res.rename id name) eo none).text = textOfLines (front ++
        { before with
          name
          logControls := config.logControls.map (.ofControl inst name)
          data := nodeData ((res.rename id name).setting d eo).initialValue? ln : NodeStatement
          }.layout.lines ++ back)) ∧
    (∀ object ∈ ln.branches, ∀ c ∈ object.preorder, c.node.kind.isLeaf →
      (res.model.configured? c.id = valueBelow? config ln.ref object c ∧
        (res.rename id name).model.configured? c.id =
          valueBelow? config (ln.node.rename name).ref object c) ∧
      ((name = ln.name ∨ (c ∉ object.branches ∧ ¬ ln.name.toList ++ ['.'] <+: name.toList) ∨
          (config.instance? object.name).bind (·.leaf? c.name) = none) →
        (res.rename id name).model.configured? c.id = res.model.configured? c.id) ∧
      (c ∈ object.branches → name ≠ ln.name →
        (res.rename id name).model.configured? c.id =
          (config.instance? object.name).bind (pathValue? · c.ref) ∧
        ('.' ∉ ln.ref.toList → '.' ∉ object.name.toList → '.' ∉ c.name.toList →
          (res.rename id name).model.configured? c.id = none))) ∧
    ((name = ln.name ∨ ∀ doi ∈ config.instances, doi.leaves = []) →
      nodeData ((res.rename id name).setting d eo).initialValue? ln =
        nodeData (res.setting d eo).initialValue? ln) := by
  obtain ⟨_, _, -, -, hstage⟩ := stage_of_resolve h
  have hm := hstage.lawful
  obtain ⟨hstands, rfl⟩ := (Branch.branch?_eq_some_iff hm.forest).mp hln
  refine ⟨?_, fun object ho c hc hleaf =>
    ⟨?_, ?_, fun hmem hne => ⟨?_, fun hdot hodot hcdot => ?_⟩⟩, fun hkept => ?_⟩
  · obtain ⟨hk, -, -⟩ := NodeKind.of_config?_eq_some hconfig
    obtain ⟨config', space, hkind⟩ := NodeKind.exists_of_isLogicalNode hk
    obtain rfl : config' = config := by
      rw [hkind] at hconfig
      exact Option.some.inj hconfig
    obtain ⟨dev, inst, front, back, hparent, hinst, hlines, hlines'⟩ :=
      Setting.exists_lines_rename (w := res.setting d eo) hm hstands hkind name
    rw [Setting.rename, Setting.layout_nodeStatement_rename] at hlines'
    refine ⟨dev, inst, front, back, _, hparent, hinst, rfl, ?_, ?_⟩
    · rw [text_emit_eq_textOfLines]
      exact congrArg textOfLines hlines
    · rw [text_emit_eq_textOfLines]
      exact congrArg textOfLines hlines'
  · exact configured?_rename_of_mem hm hstands hconfig ho hc name
  · exact configured?_rename_eq hm hstands hconfig ho hc hleaf
  · exact configured?_rename_of_mem_branches hm hstands hconfig ho hmem hne
  · have hlost := configured?_rename_of_mem_branches hm hstands hconfig ho hmem hne
    simp only [pathValue?_of_mem_branches hm hstands hconfig ho hmem hdot hodot hcdot] at hlost
    rw [Resolution.rename, hlost]
    exact Option.bind_fun_none _
  · refine Setting.nodeData_congr_configured (w := res.setting d eo) fun object ho c hc hleaf =>
      configured?_rename_eq hm hstands hconfig ho hc hleaf ?_
    refine hkept.imp_right fun hnone => .inr (Option.bind_eq_none_iff.mpr fun doi hdoi => ?_)
    rw [Doi.leaf?, hnone doi (List.mem_of_find?_eq_some hdoi)]
    rfl

/-- A plain attribute and one within a structured attribute. -/
def twofoldTypes : Registry where
  nodeTypes := ⟨[("L", ⟨"L", "GGIO", [⟨"Mod", "M", 0, false⟩]⟩)]⟩
  objectTypes := ⟨[("M", ⟨"M", "ENC", [], [⟨"q", .st, .int32, none, 0, {}, none, []⟩,
    ⟨"origin", .st, .constructed, some "O", 0, {}, none, []⟩]⟩)]⟩
  attributeTypes := ⟨[("O", ⟨"O", [⟨"t", .none, .int32, none, 0, {}, none, []⟩]⟩)]⟩

/-- A value for each of them. -/
def twofoldNode : LogicalNode :=
  ⟨"GGIO", "L", "1", none, none, [], [], [],
    [⟨"Mod", none, [.mk "origin" none [] [⟨"t", none, none, [⟨none, "4"⟩]⟩]],
      [⟨"q", none, none, [⟨none, "3"⟩]⟩]⟩], [], [], [], none⟩

/-- A document with that logical node. -/
def twofoldDocument : Document :=
  ⟨⟨none, none, none, none, none, [⟨"E", none, none, none,
    [⟨"A", some ⟨[⟨"LD", none, none, none, [twofoldNode]⟩]⟩⟩]⟩], none⟩, twofoldTypes, []⟩

/-- What the resolution of that document gives. -/
theorem resolve_twofoldDocument : ∃ res ln, ∃ object q t : Branch,
    resolve twofoldDocument "E" none { checkNamespaces := false } = .ok res ∧
      res.model.branch? 1 = some ln ∧ ln.node.kind.config? = some twofoldNode ∧
      ln.ref = "ELD/GGIO1" ∧ ln.name = "GGIO1" ∧
      (object ∈ ln.branches ∧ object.name = "Mod") ∧
      (q ∈ object.branches ∧ q.node.kind.isLeaf ∧ q.name = "q") ∧
      (t ∈ object.preorder ∧ t.node.kind.isLeaf ∧ t ∉ object.branches) ∧
      res.model.configured? q.id = some ⟨"q", none, none, [⟨none, "3"⟩]⟩ ∧
      res.model.configured? t.id = some ⟨"t", none, none, [⟨none, "4"⟩]⟩ := by
  have hresolve : ∃ res, resolve twofoldDocument "E" none { checkNamespaces := false } = .ok res ∧
      (∃ n, res.model.node? 1 = some n ∧ n.kind.config? = some twofoldNode) ∧
      res.model.configured? 3 = some ⟨"q", none, none, [⟨none, "3"⟩]⟩ ∧
      res.model.configured? 5 = some ⟨"t", none, none, [⟨none, "4"⟩]⟩ ∧
      (res.model.branch? 1).any fun ln => ln.ref = "ELD/GGIO1" ∧ ln.name = "GGIO1" ∧
        ln.branches.any fun object => object.name = "Mod" ∧
          (object.branches.any fun q => q.id = 3 ∧ q.node.kind.isLeaf ∧ q.name = "q") ∧
          (object.preorder.any fun t => t.id = 5 ∧ t.node.kind.isLeaf) ∧
          object.branches.all fun c => c.id ≠ 5 :=
    ⟨_, rfl, ⟨_, rfl, rfl⟩, by decide +kernel, by decide +kernel, by decide +kernel⟩
  obtain ⟨res, hres, ⟨n, hn, hconfig⟩, hq, ht, hcheck⟩ := hresolve
  obtain ⟨ln, hln, hcheck⟩ := (Option.any_eq_true _ _).mp hcheck
  obtain ⟨href, hname, hcheck⟩ := of_decide_eq_true hcheck
  obtain ⟨object, ho, hcheck⟩ := List.any_eq_true.mp hcheck
  obtain ⟨honame, hcheck, hcheck', hfar⟩ := of_decide_eq_true hcheck
  obtain ⟨q, hqmem, hqcheck⟩ := List.any_eq_true.mp hcheck
  obtain ⟨hqid, hqleaf, hqname⟩ := of_decide_eq_true hqcheck
  obtain ⟨t, htmem, htcheck⟩ := List.any_eq_true.mp hcheck'
  obtain ⟨htid, htleaf⟩ := of_decide_eq_true htcheck
  obtain ⟨i, a, -, -, hstage⟩ := stage_of_resolve hres
  obtain rfl := Branch.node_of_branch? hstage.lawful.forest hln hn
  refine ⟨res, ln, object, q, t, hres, hln, hconfig, href, hname, ⟨ho, honame⟩,
    ⟨hqmem, hqleaf, hqname⟩, ⟨htmem, htleaf, fun hmem => ?_⟩, hqid ▸ hq, htid ▸ ht⟩
  exact of_decide_eq_true (List.all_eq_true.mp hfar t hmem) htid

/-- Under a new name the value in the structured attribute is found again, and the other one is
not. -/
theorem renamed_node_written_twofold : ∃ res ln, ∃ q t : Branch,
    resolve twofoldDocument "E" none { checkNamespaces := false } = .ok res ∧
      res.model.branch? 1 = some ln ∧ ln.node.kind.config? = some twofoldNode ∧
      res.model.configured? q.id = some ⟨"q", none, none, [⟨none, "3"⟩]⟩ ∧
      (res.rename 1 "GGIO2").model.configured? q.id = none ∧
      (res.rename 1 "GGIO2").model.configured? t.id = some ⟨"t", none, none, [⟨none, "4"⟩]⟩ := by
  obtain ⟨res, ln, object, q, t, hres, hln, hconfig, href, hname, ⟨ho, honame⟩,
    ⟨hq, hqleaf, hqname⟩, ⟨ht, htleaf, hfar⟩, hqvalue, htvalue⟩ := resolve_twofoldDocument
  obtain ⟨-, hvalues, -⟩ := renamed_node_written hres hln hconfig "GGIO2" {}
  refine ⟨res, ln, q, t, hres, hln, hconfig, hqvalue, ?_, ?_⟩
  · have hne : "GGIO2" ≠ ln.name := by
      rw [hname]
      decide
    have hmem := Branch.mem_preorder_of_mem_branches hq q.self_mem_preorder
    refine ((hvalues object ho q hmem hqleaf).2.2 hq hne).2 ?_ ?_ ?_
    · rw [href]
      decide
    · rw [honame]
      decide
    · rw [hqname]
      decide
  · have hprefix : ¬ ln.name.toList ++ ['.'] <+: "GGIO2".toList := by
      rw [hname]
      decide
    rw [(hvalues object ho t ht htleaf).2.1 (.inr (.inl ⟨hfar, hprefix⟩)), htvalue]

/-- **Renaming a logical node may lose a value**: besides the new name, the text misses the value
that is configured directly below the data object. -/
theorem renaming_loses_value :
    (resolve twofoldDocument "E" none { checkNamespaces := false }).toOption.map (fun res =>
        ((emit twofoldDocument res {} none).text,
          (emit twofoldDocument (res.rename 1 "GGIO2") {} none).text)) =
      some (
        textOfLines ["MODEL(E)\x7b", "LD(LD)\x7b", "LN(GGIO1)\x7b", "DO(Mod 0)\x7b",
          "DA(q 0 3 0 16 0)=3;", "DA(origin 0 27 0 16 0)\x7b", "DA(t 0 3 0 16 0)=4;",
          "\x7d", "\x7d", "\x7d", "\x7d", "\x7d"],
        textOfLines ["MODEL(E)\x7b", "LD(LD)\x7b", "LN(GGIO2)\x7b", "DO(Mod 0)\x7b",
          "DA(q 0 3 0 16 0);", "DA(origin 0 27 0 16 0)\x7b", "DA(t 0 3 0 16 0)=4;",
          "\x7d", "\x7d", "\x7d", "\x7d", "\x7d"]) := by
  decide +kernel

end Substation
