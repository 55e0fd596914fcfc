import Mathlib.Data.List.Basic
import Mathlib.Tactic.Common
import Substation.Proofs.Binding
import Substation.Proofs.MappedModels
import Substation.Proofs.ModelLayout

/-!
# Models without places

Every reference begins with the name of a logical device, and a static model shows neither. A model
without its places has no references and no namespaces, and of the names of its logical devices only
those that hold a dot: when the configured value of an attribute is looked up, the reference of the
attribute is cut at its first dot, wherever that stands.

Models that are the same without their places are found to hold the same values
(`configured?_unplaced`), and so they are written alike (`layout_modelStatement`). The operations
that build a model keep them the same.
-/

namespace Substation

open Substation.Config
open Substation.Model
open Substation.Template

/-! ## Dots -/

namespace Text

/-- The text if it holds a dot, or else nothing. -/
def ifDotted (s : String) : String := if '.' ∈ s.toList then s else ""

variable {s t : String}

theorem eq_or_dotless_of_ifDotted (h : ifDotted s = ifDotted t) :
    s = t ∨ '.' ∉ s.toList ∧ '.' ∉ t.toList := by
  unfold ifDotted at h
  by_cases hs : '.' ∈ s.toList
  · by_cases ht : '.' ∈ t.toList
    · rw [if_pos hs, if_pos ht] at h
      exact .inl h
    · rw [if_pos hs, if_neg ht] at h
      exact absurd hs (by simp [h])
  · by_cases ht : '.' ∈ t.toList
    · rw [if_neg hs, if_pos ht] at h
      exact absurd ht (by simp [← h])
    · exact .inr ⟨hs, ht⟩

/-- A front without dots leaves what stands behind the first dot as it is. -/
theorem snd_splitFirst?_append {front : String} (h : '.' ∉ front.toList) (text : String) :
    (splitFirst? '.' (front ++ text)).map Prod.snd = (splitFirst? '.' text).map Prod.snd := by
  have hall : ∀ c ∈ front.toList, (c != '.') = true := fun c hc =>
    bne_iff_ne.mpr fun heq => h (heq ▸ hc)
  unfold splitFirst?
  rw [String.toList_append, List.dropWhile_append_of_pos hall]
  cases text.toList.dropWhile (· != '.') <;> rfl

theorem snd_splitFirst?_congr (h : ifDotted s = ifDotted t) (text : String) :
    (splitFirst? '.' (s ++ text)).map Prod.snd = (splitFirst? '.' (t ++ text)).map Prod.snd := by
  rcases eq_or_dotless_of_ifDotted h with rfl | ⟨hs, ht⟩
  · rfl
  · rw [snd_splitFirst?_append hs, snd_splitFirst?_append ht]

end Text

namespace Model

/-! ## Tables -/

/-- A node without its place. -/
def Node.unplaced (n : Node) : Node :=
  { n with
    name := if n.kind.isDevice then Text.ifDotted n.name else n.name
    ref := ""
    kind := n.kind.bare }

theorem Node.name_unplaced {n : Node} (h : n.kind.isDevice = false) : n.unplaced.name = n.name :=
  if_neg (by simp [h])

theorem Node.config?_unplaced (n : Node) : n.unplaced.kind.config? = n.kind.config? :=
  n.kind.config?_bare

theorem Node.spares_unplaced : Node.Spares Node.unplaced where
  parent _ := rfl
  children _ := rfl
  isDevice n := n.kind.isDevice_bare
  isLogicalNode n := by
    obtain ⟨_, _, _, _, kind⟩ := n
    cases kind <;> rfl
  data n hdevice hnode := by
    refine ⟨Node.name_unplaced hdevice, ?_⟩
    obtain ⟨_, _, _, _, kind⟩ := n
    cases kind with
    | logicalNode => exact Bool.noConfusion hnode
    | device => exact Bool.noConfusion hdevice
    | _ => rfl

namespace IedModel

/-- A model without its places. -/
def unplaced (m : IedModel) : IedModel := m.mapNodes Node.unplaced

theorem node?_unplaced (m : IedModel) (id : Nat) :
    m.unplaced.node? id = (m.node? id).map Node.unplaced := node?_mapNodes id

theorem unplaced_setSpace (m : IedModel) (id : Nat) (space : Namespace) :
    (m.setSpace id space).unplaced = m.unplaced := by
  refine ext_node? rfl rfl fun i => ?_
  rw [node?_unplaced, node?_unplaced, node?_setSpace]
  split
  · rw [Option.map_map]
    refine congrArg (Option.map · _) (funext fun n => ?_)
    obtain ⟨_, _, _, _, kind⟩ := n
    cases kind <;> rfl
  · rfl

variable {m m' : IedModel} (h : m.unplaced = m'.unplaced)
include h

theorem name_of_unplaced : m'.name = m.name := (congrArg IedModel.name h.symm :)

theorem devices_of_unplaced : m'.devices = m.devices := (congrArg devices h.symm :)

theorem size_of_unplaced : m'.size = m.size := by
  have hsize := congrArg size h
  rw [unplaced, size_mapNodes, unplaced, size_mapNodes] at hsize
  exact hsize.symm

theorem exists_of_unplaced {id : Nat} {n : Node} (hn : m.node? id = some n) :
    ∃ n', m'.node? id = some n' ∧ n'.unplaced = n.unplaced := by
  have hnode := m'.node?_unplaced id
  rw [← h, node?_unplaced, hn] at hnode
  exact Option.map_eq_some_iff.mp hnode.symm

/-! ## Building -/

theorem unplaced_addDevice {name name' : String} (hname : Text.ifDotted name = Text.ifDotted name')
    (inst : String) : (m.addDevice name inst).unplaced = (m'.addDevice name' inst).unplaced := by
  have hsize := size_of_unplaced h
  refine ext_node? (name_of_unplaced h).symm ?_ fun id => ?_
  · show m.devices ++ [m.size] = m'.devices ++ [m'.size]
    rw [hsize, devices_of_unplaced h]
  · rw [node?_unplaced, node?_unplaced, node?_addDevice, node?_addDevice, hsize]
    split
    · simp only [Option.map_some, Node.unplaced, NodeKind.isDevice, if_true, hname]
    · rw [← node?_unplaced, ← node?_unplaced, h]

theorem unplaced_addChild (parent : Nat) (name : String) (kind : NodeKind) :
    (m.addChild parent name kind).unplaced = (m'.addChild parent name kind).unplaced := by
  cases hp : m.node? parent with
  | none =>
    have hp' : m'.node? parent = none := by
      rw [node?_eq_none_iff, size_of_unplaced h]
      exact node?_eq_none_iff.mp hp
    rw [addChild_of_node?_eq_none name kind hp, addChild_of_node?_eq_none name kind hp', h]
  | some p =>
    obtain ⟨p', hp', hsame⟩ := exists_of_unplaced h hp
    refine ext_node? ?_ ?_ fun id => ?_
    · show (m.addChild parent name kind).name = (m'.addChild parent name kind).name
      rw [name_addChild, name_addChild, name_of_unplaced h]
    · show (m.addChild parent name kind).devices = (m'.addChild parent name kind).devices
      rw [devices_addChild, devices_addChild, devices_of_unplaced h]
    · rw [node?_unplaced, node?_unplaced, node?_addChild hp, node?_addChild hp',
        size_of_unplaced h]
      split
      · rfl
      · split
        · exact congrArg (fun n : Node => some (n.adopt m.size)) hsame.symm
        · rw [← node?_unplaced, ← node?_unplaced, h]

omit h

mutual

theorem unplaced_plant {m m' : IedModel} (h : m.unplaced = m'.unplaced) (parent : Nat) :
    ∀ s : Sprout, (m.plant parent s).unplaced = (m'.plant parent s).unplaced
  | .mk name kind parts => by
    rw [plant, plant, size_of_unplaced h]
    exact unplaced_plantAll (unplaced_addChild h parent name kind) m.size parts

theorem unplaced_plantAll {m m' : IedModel} (h : m.unplaced = m'.unplaced) (parent : Nat) :
    ∀ ss : List Sprout, (m.plantAll parent ss).unplaced = (m'.plantAll parent ss).unplaced
  | [] => by rw [plantAll, plantAll, h]
  | s :: ss => by
    rw [plantAll, plantAll]
    exact unplaced_plantAll (unplaced_plant h parent s) parent ss

end

/-! ## Looking up -/

include h

theorem parent?_unplaced (id : Nat) : m'.parent? id = m.parent? id := by
  rw [← parent?_mapNodes Node.spares_unplaced.parent, ← unplaced, ← h]
  exact parent?_mapNodes Node.spares_unplaced.parent id

theorem topObject?_unplaced (id : Nat) : m'.topObject? id = m.topObject? id := by
  rw [← topObject?_mapNodes Node.spares_unplaced, ← unplaced, ← h]
  exact topObject?_mapNodes Node.spares_unplaced id

section Lawful

variable (hm : m.Lawful) (hm' : m'.Lawful)
include hm hm'

/-- A node that is not a logical device has its name and the end of its reference in both models. -/
theorem exists_end_of_parent {id p : Nat} {n : Node} (hn : m.node? id = some n)
    (hp : n.parent = some p) : ∃ up up' n', m.node? p = some up ∧ m'.node? p = some up' ∧
      m'.node? id = some n' ∧ up.kind.Admits n.kind ∧ n'.name = n.name ∧
      n.ref = up.ref ++ (up.kind.separator ++ n.name) ∧
      n'.ref = up'.ref ++ (up.kind.separator ++ n.name) := by
  obtain ⟨n', hn', hsame⟩ := exists_of_unplaced h hn
  obtain ⟨up, hup, hadmits, href⟩ := hm.of_parent_eq_some hn hp
  obtain ⟨up', hup', hadmits', href'⟩ := hm'.of_parent_eq_some hn'
    ((congrArg Node.parent hsame :).trans hp)
  obtain ⟨_, hup'', hsame'⟩ := exists_of_unplaced h hup
  cases hup'.symm.trans hup''
  have hname : n'.name = n.name := by
    rw [← Node.name_unplaced hadmits.isDevice_eq_false, ← hsame,
      Node.name_unplaced hadmits'.isDevice_eq_false]
  have hseparator : up'.kind.separator = up.kind.separator := by
    rw [← NodeKind.separator_bare, ← NodeKind.separator_bare up.kind]
    exact congrArg (fun n : Node => n.kind.separator) hsame'
  refine ⟨up, up', n', hup, hup', hn', hadmits, hname, ?_, ?_⟩
  · rw [href, String.append_assoc]
  · rw [href', hname, hseparator, String.append_assoc]

/-- Below its data object a node has the same name and the same end of its reference in both
models. -/
theorem exists_end_of_topObject? {id object : Nat} (ht : m.topObject? id = some object) :
    ∃ n n' text, m.node? id = some n ∧ m'.node? id = some n' ∧ n'.name = n.name ∧
      n.ref = m.ref object ++ text ∧ n'.ref = m'.ref object ++ text := by
  induction id using Nat.strongRecOn with
  | ind id ih =>
    rw [topObject?] at ht
    split at ht
    · exact nomatch ht
    · rename_i n hn
      split at ht
      · exact nomatch ht
      · rename_i p hp
        obtain ⟨up, up', n', hup, hup', hn', -, hname, href, href'⟩ :=
          exists_end_of_parent h hm hm' hn hp
        split at ht
        · obtain ⟨-, heq⟩ := Option.ite_none_right_eq_some.mp ht
          cases heq
          refine ⟨n, n', "", hn, hn', hname, ?_, ?_⟩
          · rw [ref_eq hn, String.append_empty]
          · rw [ref_eq hn', String.append_empty]
        · obtain ⟨hlt, ht⟩ := Option.ite_none_right_eq_some.mp ht
          obtain ⟨_, _, text, hup₂, hup₂', -, hupref, hupref'⟩ := ih p hlt ht
          cases hup.symm.trans hup₂
          cases hup'.symm.trans hup₂'
          refine ⟨n, n', text ++ (up.kind.separator ++ n.name), hn, hn', hname, ?_, ?_⟩
          · rw [href, hupref, String.append_assoc]
          · rw [href', hupref', String.append_assoc]

/-- What stands behind the first dot of a reference below a logical node is the same in both
models. -/
theorem snd_splitFirst?_unplaced {ln : Nat} {n : Node} (hn : m.node? ln = some n)
    (hk : n.kind.isLogicalNode) (text : String) :
    (Text.splitFirst? '.' (m'.ref ln ++ text)).map Prod.snd =
      (Text.splitFirst? '.' (m.ref ln ++ text)).map Prod.snd := by
  cases hp : n.parent with
  | none =>
    have hdevice := (hm.parent_eq_none_iff hn).mp hp
    rw [NodeKind.isDevice_eq_false hk] at hdevice
    exact Bool.noConfusion hdevice
  | some p =>
    obtain ⟨up, up', n', hup, hup', hn', hadmits, -, href, href'⟩ :=
      exists_end_of_parent h hm hm' hn hp
    have hdevice := hadmits.isDevice_of_isLogicalNode hk
    obtain ⟨_, hup₂, hsame⟩ := exists_of_unplaced h hup
    cases hup'.symm.trans hup₂
    have hdevice' : up'.kind.isDevice := by
      rw [← Node.spares_unplaced.isDevice, hsame, Node.spares_unplaced.isDevice, hdevice]
    have hname : Text.ifDotted up'.name = Text.ifDotted up.name := by
      have hleft := congrArg Node.name hsame
      simpa only [Node.unplaced, hdevice, hdevice', if_true] using hleft
    -- a logical device is referred to by its name
    obtain ⟨-, -, htop⟩ := hm.of_parent_eq_none hup ((hm.parent_eq_none_iff hup).mpr hdevice)
    obtain ⟨-, -, htop'⟩ := hm'.of_parent_eq_none hup' ((hm'.parent_eq_none_iff hup').mpr hdevice')
    simp only [ref_eq hn, ref_eq hn', href, href', htop, htop', String.append_assoc]
    exact Text.snd_splitFirst?_congr hname _

/-- **A configured value is found whatever the name of its logical device is**, as long as no dot
comes in. -/
theorem configured?_unplaced (leaf : Nat) : m'.configured? leaf = m.configured? leaf := by
  unfold configured?
  simp only [bind]
  rw [topObject?_unplaced h]
  refine Option.bind_congr fun object hobject => ?_
  rw [parent?_unplaced h]
  refine Option.bind_congr fun ln hln => ?_
  obtain ⟨top, htop, hparent⟩ := Option.bind_eq_some_iff.mp hln
  obtain ⟨up, up', top', hup, hup', htop', -, htopname, htopref, htopref'⟩ :=
    exists_end_of_parent h hm hm' htop hparent
  obtain ⟨n, n', text, hn, hn', hname, href, href'⟩ := exists_end_of_topObject? h hm hm' hobject
  -- the references from the logical node down
  rw [ref_eq htop, htopref, ← ref_eq hup, String.append_assoc] at href
  rw [ref_eq htop', htopref', ← ref_eq hup', String.append_assoc] at href'
  obtain ⟨_, hup₂, hsame⟩ := exists_of_unplaced h hup
  cases hup'.symm.trans hup₂
  rw [hup, hup', Option.bind_some, Option.bind_some, ← Node.config?_unplaced, hsame,
    Node.config?_unplaced]
  refine Option.bind_congr fun config hconfig => ?_
  rw [htop, htop', Option.bind_some, Option.bind_some, htopname]
  refine Option.bind_congr fun doi _ => ?_
  rw [hn, hn', Option.bind_some, Option.bind_some, hname]
  have hdirect (dai : Dai) : n'.ref = m'.ref ln ++ "." ++ doi.name ++ "." ++ dai.name ↔
      n.ref = m.ref ln ++ "." ++ doi.name ++ "." ++ dai.name := by
    simp only [href, href', String.append_assoc, String.append_right_inj]
  have hsplit : (Text.splitFirst? '.' n'.ref).map Prod.snd =
      (Text.splitFirst? '.' n.ref).map Prod.snd := by
    rw [href, href']
    exact snd_splitFirst?_unplaced h hm hm' hup (NodeKind.of_config?_eq_some hconfig).1 _
  have hpath (ref : String) : (Text.splitFirst? '.' ref).bind
      (fun x => leafAt? doi ((Text.segments '.' x.2).drop 1)) =
      ((Text.splitFirst? '.' ref).map Prod.snd).bind fun path =>
        leafAt? doi ((Text.segments '.' path).drop 1) := by
    rw [Option.bind_map]
    rfl
  simp only [hdirect, hpath, hsplit]

end Lawful

end IedModel

end Model

namespace Emission

/-! ## Statements -/

section Layout

variable (w : Setting)

theorem layout_dataSetStatement (device : String) (ln ln' : Branch) (d : DataSet) :
    (Setting.dataSetStatement device ln d).layout =
      (Setting.dataSetStatement device ln' d).layout := by
  rw [DataSetStatement.layout, DataSetStatement.layout, Setting.dataSetStatement,
    Setting.dataSetStatement, List.map_map, List.map_map]
  rfl

theorem layout_nodeStatement? (inst : String) (b : Branch) :
    (w.nodeStatement? inst (b.mapNodes Node.unplaced)).map NodeStatement.layout =
      (w.nodeStatement? inst b).map NodeStatement.layout := by
  unfold Setting.nodeStatement?
  rw [Branch.node_mapNodes, Node.config?_unplaced]
  cases hconfig : b.node.kind.config? with
  | none => rfl
  | some config =>
    obtain ⟨-, hdevice, -⟩ := NodeKind.of_config?_eq_some hconfig
    have hname : (b.mapNodes Node.unplaced).name = b.name := by
      rw [Branch.name, Branch.node_mapNodes, Node.name_unplaced hdevice, Branch.name]
    refine congrArg some ?_
    unfold Setting.nodeStatement NodeStatement.layout NodeStatement.sections
    simp only [hname, nodeData_mapNodes _ Node.spares_unplaced, List.map_map,
      Function.comp_def, layout_dataSetStatement inst (b.mapNodes Node.unplaced) b]

theorem layout_deviceStatement? (b : Branch) :
    (w.deviceStatement? (b.mapNodes Node.unplaced)).map DeviceStatement.layout =
      (w.deviceStatement? b).map DeviceStatement.layout := by
  unfold Setting.deviceStatement?
  rw [Branch.node_mapNodes, Branch.branches_mapNodes,
    show b.node.unplaced.kind = b.node.kind.bare from rfl]
  cases b.node.kind with
  | device inst space =>
    refine congrArg some (congrArg (Layout.block (.ofName "LD" inst)) ?_)
    rw [List.map_filterMap, List.map_filterMap, List.filterMap_map]
    exact List.filterMap_congr fun c _ => layout_nodeStatement? w inst c
  | _ => rfl

/-- The layouts of the logical devices can be read off the model without its places. -/
theorem layouts_deviceStatement? {m : IedModel} (hm : m.Forest) :
    ((m.devices.filterMap m.branch?).filterMap w.deviceStatement?).map DeviceStatement.layout =
      m.unplaced.devices.filterMap fun id => (m.unplaced.branch? id).bind fun b =>
        (w.deviceStatement? b).map DeviceStatement.layout := by
  rw [List.filterMap_filterMap, List.map_filterMap]
  refine List.filterMap_congr fun id _ => ?_
  rw [IedModel.unplaced, IedModel.branch?_mapNodes hm Node.spares_unplaced.children,
    Option.bind_map, Option.map_bind]
  exact Option.bind_congr fun b _ => (layout_deviceStatement? w b).symm

/-- **Models that are the same without their places are written alike.** -/
theorem layout_modelStatement (hm : w.model.Lawful) {m' : IedModel} (hm' : m'.Lawful)
    (h : w.model.unplaced = m'.unplaced) :
    ({ w with model := m' } : Setting).modelStatement.layout = w.modelStatement.layout := by
  have hvalues : ({ w with model := m' } : Setting).initialValue? = w.initialValue? :=
    funext fun id => funext fun a => by
      rw [Setting.initialValue?, Setting.initialValue?, IedModel.configured?_unplaced h hm hm']
  have hdevice : ({ w with model := m' } : Setting).deviceStatement? = w.deviceStatement? := by
    funext b
    unfold Setting.deviceStatement? Setting.nodeStatement? Setting.nodeStatement
    rw [hvalues]
    rfl
  unfold Setting.modelStatement ModelStatement.layout
  rw [hdevice, layouts_deviceStatement? w hm.forest, layouts_deviceStatement? w hm'.forest, h,
    IedModel.name_of_unplaced h]

end Layout

end Emission

end Substation
