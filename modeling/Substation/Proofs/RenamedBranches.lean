import Mathlib.Data.List.Basic
import Mathlib.Tactic.Common
import Substation.Proofs.Ancestry
import Substation.Proofs.EmittedBlocks
import Substation.Proofs.NodeBranches
import Substation.Proofs.UnplacedModels

/-!
# Branches of a renamed model

Renaming a logical node changes one row of the table. Its own branch has the new name at its top
(`Branch.Stands.rename`), every other branch is what it was, and the logical devices hold the
changed branch in the place of the old one (`branch?_rename`). A value that is configured for an
attribute is found with the reference that its logical node has then (`configured?_rename`), so the
statements of other logical nodes are the same (`nodeStatement?_rename_of_ne`).
-/

namespace Substation

open Substation.Config
open Substation.Model
open Substation.Template

namespace Model

/-! ## The table -/

namespace IedModel

variable {m : IedModel} {target id : Nat} {name : String}

theorem node?_rename_of_ne (h : id ≠ target) : (m.rename target name).node? id = m.node? id := by
  rw [node?_rename, if_neg h]

@[simp] theorem name_rename : (m.rename target name).name = m.name := rfl

@[simp] theorem devices_rename : (m.rename target name).devices = m.devices := rfl

theorem satisfies_rename {p : Node → Bool} (hp : ∀ n : Node, p (n.rename name) = p n) :
    (m.rename target name).satisfies p id = m.satisfies p id := by
  unfold satisfies
  rw [node?_rename]
  split
  · cases m.node? id with
    | none => rfl
    | some n => exact hp n
  · rfl

theorem topObject?_rename (target : Nat) (name : String) (id : Nat) :
    (m.rename target name).topObject? id = m.topObject? id := by
  induction id using Nat.strongRecOn with
  | ind id ih =>
    -- the row keeps its parent and its kind, whether it is the renamed one or not
    have hnode : ∃ f : Node → Node, (m.rename target name).node? id = (m.node? id).map f ∧
        ∀ n, (f n).parent = n.parent ∧ (f n).kind = n.kind := by
      rw [node?_rename]
      split
      · exact ⟨(·.rename name), rfl, fun _ => ⟨rfl, rfl⟩⟩
      · exact ⟨fun n => n, Option.map_id'.symm, fun _ => ⟨rfl, rfl⟩⟩
    obtain ⟨f, hf, hsame⟩ := hnode
    conv_lhs => rw [topObject?]
    conv_rhs => rw [topObject?]
    rw [hf]
    cases m.node? id with
    | none => rfl
    | some n =>
      simp only [Option.map_some, hsame]
      cases n.parent with
      | none => rfl
      | some up =>
        simp only [satisfies_rename (p := (·.kind.isLogicalNode)) fun _ => rfl]
        split
        · rfl
        · split
          · exact ih up ‹_›
          · rfl

end IedModel

/-! ## Branches -/

namespace Branch

variable {m : IedModel} {b c ln : Branch} {name : String}

/-- The branch with another name at its top. -/
def rename (name : String) : Branch → Branch
  | mk id node branches => mk id (node.rename name) branches

@[simp] theorem id_rename (name : String) (b : Branch) : (b.rename name).id = b.id := by
  cases b
  rfl

@[simp] theorem node_rename (name : String) (b : Branch) :
    (b.rename name).node = b.node.rename name := by
  cases b
  rfl

@[simp] theorem branches_rename (name : String) (b : Branch) :
    (b.rename name).branches = b.branches := by
  cases b
  rfl

/-- The branch, with another name at its top if that has the number. -/
def renameAt (target : Nat) (name : String) (b : Branch) : Branch :=
  if b.id = target then b.rename name else b

theorem renameAt_of_ne {target : Nat} (h : b.id ≠ target) : b.renameAt target name = b := if_neg h

@[simp] theorem id_renameAt (target : Nat) (name : String) (b : Branch) :
    (b.renameAt target name).id = b.id := by
  unfold renameAt
  split <;> simp

@[simp] theorem kind_renameAt (target : Nat) (name : String) (b : Branch) :
    (b.renameAt target name).node.kind = b.node.kind := by
  unfold renameAt
  split
  · rw [node_rename]
    rfl
  · rfl

/-- The branch, with another name for the branch of a number directly below. -/
def renameBelow (target : Nat) (name : String) (b : Branch) : Branch :=
  mk b.id b.node (b.branches.map (renameAt target name))

theorem renameBelow_of_forall_ne {target : Nat} (h : ∀ c ∈ b.branches, c.id ≠ target) :
    b.renameBelow target name = b := by
  have hmap : b.branches.map (renameAt target name) = b.branches :=
    (List.map_congr_left fun c hc => renameAt_of_ne (h c hc)).trans (List.map_id' _)
  rw [renameBelow, hmap]
  cases b
  rfl

theorem Stands.rename (h : b.Stands m) (name : String) :
    (b.rename name).Stands (m.rename b.id name) := by
  cases h with
  | @mk id node branches hn hc hlt hb =>
    refine .mk ?_ hc hlt fun d hd => (hb d hd).frame fun i hi _ => ?_
    · show (m.rename id name).node? id = _
      rw [IedModel.node?_rename, if_pos rfl, hn]
      rfl
    · have hlt' := hlt d hd
      exact IedModel.node?_rename_of_ne (Nat.ne_of_gt (Nat.lt_of_lt_of_le hlt' hi))

section

variable (hm : m.Lawful) (hln : ln.Stands m) (hk : ln.node.kind.isLogicalNode)
include hm hln hk

/-- A logical node stands in no branch but its own and that of its logical device. -/
theorem Stands.id_ne_of_mem_preorder (hb : b.Stands m) (hdevice : b.node.kind.isDevice = false)
    (hne : b.id ≠ ln.id) : ∀ c ∈ b.preorder, c.id ≠ ln.id := by
  intro c hc hid
  obtain rfl := (hb.of_mem_preorder c hc).1.unique hln hid
  obtain ⟨names, hr⟩ := mem_preorder_iff.mp hc
  rcases hr.kind hm hb hdevice with rfl | ⟨-, hnode⟩
  · exact hne rfl
  · rw [hk] at hnode
    exact Bool.noConfusion hnode

theorem Stands.rename_of_ne (hb : b.Stands m) (hdevice : b.node.kind.isDevice = false)
    (hne : b.id ≠ ln.id) (name : String) : b.Stands (m.rename ln.id name) :=
  hb.congr fun c hc =>
    IedModel.node?_rename_of_ne (hln.id_ne_of_mem_preorder hm hk hb hdevice hne c hc)

theorem Stands.renameAt (hb : b.Stands m) (hdevice : b.node.kind.isDevice = false)
    (name : String) : (b.renameAt ln.id name).Stands (m.rename ln.id name) := by
  by_cases hid : b.id = ln.id
  · rw [Branch.renameAt, if_pos hid, ← hid]
    exact hb.rename name
  · rw [renameAt_of_ne hid]
    exact hln.rename_of_ne hm hk hb hdevice hid name

/-- The branch of a logical device after the renaming. -/
theorem Stands.renameBelow {dev : Branch} (hdev : dev.Stands m) (hdevice : dev.node.kind.isDevice)
    (name : String) : (dev.renameBelow ln.id name).Stands (m.rename ln.id name) := by
  have hne : dev.id ≠ ln.id := by
    intro hid
    obtain rfl := hdev.unique hln hid
    rw [NodeKind.isDevice_eq_false hk] at hdevice
    exact Bool.noConfusion hdevice
  refine .mk ?_ ?_ ?_ ?_
  · rw [IedModel.node?_rename_of_ne hne, hdev.node?]
  · rw [hdev.children, List.map_map]
    exact List.map_congr_left fun b _ => (id_renameAt ln.id name b).symm
  · rw [List.forall_mem_map]
    exact fun b hb => (id_renameAt ln.id name b).symm ▸ hdev.id_lt hb
  · rw [List.forall_mem_map]
    intro b hb
    have hkind := (hdev.law_of_mem hm hb).1.isDevice_eq_false
    exact hln.renameAt hm hk (hdev.of_mem hb) hkind name

end

end Branch

namespace IedModel

variable {m : IedModel} {ln : Branch} (hm : m.Lawful) (hln : ln.Stands m)
  (hk : ln.node.kind.isLogicalNode)
include hm

theorem Lawful.exists_of_mem_devices {d : Nat} (hd : d ∈ m.devices) :
    ∃ dev : Branch, dev.Stands m ∧ dev.id = d ∧ dev.node.kind.isDevice := by
  obtain ⟨hlt, hparent⟩ := (hm.forest.mem_devices d).mp hd
  obtain ⟨dev, hdev, rfl⟩ := Branch.exists_stands hm.forest hlt
  rw [parent?_eq hdev.node?] at hparent
  exact ⟨dev, hdev, rfl, (hm.parent_eq_none_iff hdev.node?).mp hparent⟩

include hln hk

/-- **Renaming a logical node changes its branch in that of its logical device**, and nothing
else. -/
theorem branch?_rename {d : Nat} (hd : d ∈ m.devices) (name : String) :
    (m.rename ln.id name).branch? d = (m.branch? d).map (·.renameBelow ln.id name) := by
  obtain ⟨dev, hdev, rfl, hdevice⟩ := hm.exists_of_mem_devices hd
  rw [hdev.branch?]
  exact (hln.renameBelow hm hk hdev hdevice name).branch?

end IedModel

/-! ## Configured values -/

/-- The configured value that the segments of a reference lead to. -/
def pathValue? (doi : Doi) (ref : String) : Option Dai :=
  (Text.splitFirst? '.' ref).bind fun parts => leafAt? doi ((Text.segments '.' parts.2).drop 1)

/-- The configured value of an attribute at or below a data object, if `ref` is the reference of the
logical node. One directly below the data object counts only if the reference of the attribute
continues `ref`; all others are found by the segments of the reference. -/
def valueBelow? (config : LogicalNode) (ref : String) (object c : Branch) : Option Dai :=
  (config.instance? object.name).bind fun doi =>
    match (doi.leaf? c.name).filter fun dai =>
        c.ref = ref ++ "." ++ doi.name ++ "." ++ dai.name with
    | some dai => some dai
    | none => pathValue? doi c.ref

theorem IedModel.configured?_eq_valueBelow? {m : IedModel} {ln : Nat} {n : Node}
    {object c : Branch} (htop : m.topObject? c.id = some object.id)
    (hup : m.parent? object.id = some ln) (hln : m.node? ln = some n) {config : LogicalNode}
    (hconfig : n.kind.config? = some config) (ho : m.node? object.id = some object.node)
    (hc : m.node? c.id = some c.node) :
    m.configured? c.id = valueBelow? config n.ref object c := by
  unfold IedModel.configured? valueBelow?
  simp only [htop, hup, hln, hconfig, ho, hc, IedModel.ref_eq hln, Option.bind_some, bind]
  rfl

section Values

variable {m : IedModel} {b ln object c : Branch} {config : LogicalNode} {names : List String}
  (hm : m.Lawful) (hb : b.Stands m) (hconfig : b.node.kind.config? = some config)
  (ho : object ∈ b.branches) (hr : object.Reaches names c)
include hm hb hconfig ho hr

theorem topObject?_of_mem_of_reaches : m.topObject? c.id = some object.id := by
  obtain ⟨hk, hdevice, -⟩ := NodeKind.of_config?_eq_some hconfig
  have hadmits := (hb.law_of_mem hm ho).1
  rw [topObject?_of_reaches hm (hb.of_mem ho) hadmits.isDevice_eq_false
    (hadmits.isLogicalNode_eq_false hdevice) hr, topObject?_of_mem hm hb hk ho]

/-- The value of an attribute is found with the reference of its logical node. -/
theorem configured?_of_reaches : m.configured? c.id = valueBelow? config b.ref object c :=
  IedModel.configured?_eq_valueBelow? (topObject?_of_mem_of_reaches hm hb hconfig ho hr)
    (hb.parent?_of_mem hm ho) hb.node? hconfig (hb.of_mem ho).node?
    (hr.stands (hb.of_mem ho)).node?

variable (hln : ln.Stands m) (hk : ln.node.kind.isLogicalNode)
include hln hk

/-- After a renaming the reference of the logical node may be another one, and all else is as
before. -/
theorem configured?_rename (name : String) : (m.rename ln.id name).configured? c.id =
    valueBelow? config (b.renameAt ln.id name).ref object c := by
  obtain ⟨-, hdevice, -⟩ := NodeKind.of_config?_eq_some hconfig
  have hbelow {d : Branch} (hd : d ∈ object.preorder) : d.id ≠ ln.id := by
    intro hid
    obtain rfl := ((hb.of_mem ho).of_mem_preorder d hd).1.unique hln hid
    rw [(hb.kind_of_mem_branches hm hdevice ho d hd).2] at hk
    exact Bool.noConfusion hk
  have hnode := (hln.renameAt hm hk hb hdevice name).node?
  rw [Branch.id_renameAt] at hnode
  refine IedModel.configured?_eq_valueBelow? ?_ ?_ hnode ?_ ?_ ?_
  · rw [IedModel.topObject?_rename]
    exact topObject?_of_mem_of_reaches hm hb hconfig ho hr
  · rw [(IedModel.links_rename ln.id name object.id).2]
    exact hb.parent?_of_mem hm ho
  · rw [Branch.kind_renameAt]
    exact hconfig
  · rw [IedModel.node?_rename_of_ne (hbelow object.self_mem_preorder)]
    exact (hb.of_mem ho).node?
  · rw [IedModel.node?_rename_of_ne (hbelow hr.mem_preorder)]
    exact (hr.stands (hb.of_mem ho)).node?

end Values

end Model

namespace Emission

/-! ## Statements -/

section Data

variable {lit lit' : Nat → AttributeDef → Option String}

/-- The literals of the attributes among the branches are the same. -/
def Agree (lit lit' : Nat → AttributeDef → Option String) (bs : List Branch) : Prop :=
  ∀ b ∈ bs, ∀ fc a, b.node.kind = .leaf fc a → lit b.id a = lit' b.id a

theorem Agree.mono {bs cs : List Branch} (h : Agree lit lit' cs) (hsub : bs ⊆ cs) :
    Agree lit lit' bs :=
  fun b hb => h b (hsub hb)

mutual

theorem dataStatement?_congr (transient : Bool) : ∀ b : Branch, Agree lit lit' b.preorder →
    dataStatement? lit transient b = dataStatement? lit' transient b
  | .mk id node branches, h => by
    have hbelow : Agree lit lit' (Branch.preorderAll branches) :=
      h.mono (by rw [Branch.preorder]; exact List.subset_cons_self _ _)
    rw [dataStatement?, dataStatement?]
    cases hkind : node.kind with
    | object count type own => simp only [objectParts_congr _ branches hbelow]
    | leaf fc a =>
      have hliteral : lit id a = lit' id a :=
        h _ (Branch.self_mem_preorder _) fc a hkind
      simp only [groupParts_congr _ branches hbelow, hliteral]
    | device => rfl
    | logicalNode => rfl

theorem objectParts_congr (transient : Bool) : ∀ bs : List Branch,
    Agree lit lit' (Branch.preorderAll bs) →
    objectParts lit transient bs = objectParts lit' transient bs
  | [], _ => rfl
  | b :: bs, h => by
    rw [Branch.preorderAll] at h
    rw [objectParts, objectParts, dataStatement?_congr _ b (h.mono (List.subset_append_left _ _)),
      objectParts_congr _ bs (h.mono (List.subset_append_right _ _))]

theorem groupParts_congr (transient : Bool) : ∀ bs : List Branch,
    Agree lit lit' (Branch.preorderAll bs) →
    groupParts lit transient bs = groupParts lit' transient bs
  | [], _ => rfl
  | b :: bs, h => by
    rw [Branch.preorderAll] at h
    rw [groupParts, groupParts, dataStatement?_congr _ b (h.mono (List.subset_append_left _ _)),
      groupParts_congr _ bs (h.mono (List.subset_append_right _ _))]

end

/-- Of the literals only those of the attributes below the logical node matter. -/
theorem nodeData_congr {ln : Branch} (h : ∀ object ∈ ln.branches, Agree lit lit' object.preorder) :
    nodeData lit ln = nodeData lit' ln :=
  List.filterMap_congr fun object ho =>
    dataStatement?_congr false object (h object (List.mem_filter.mp ho).1)

end Data

namespace Setting

variable {w : Setting} {ln b : Branch} {config : LogicalNode}

/-- What the writing depends on, with a node renamed. -/
def rename (w : Setting) (id : Nat) (name : String) : Setting :=
  { w with model := w.model.rename id name }

@[simp] theorem model_rename (id : Nat) (name : String) :
    (w.rename id name).model = w.model.rename id name := rfl

/-- The values below a logical node are the literals of what is configured for its attributes. -/
theorem nodeData_congr_configured {m : IedModel} (h : ∀ object ∈ b.branches, ∀ c ∈ object.preorder,
    c.node.kind.isLeaf → m.configured? c.id = w.model.configured? c.id) :
    nodeData ({ w with model := m } : Setting).initialValue? b = nodeData w.initialValue? b := by
  refine nodeData_congr fun object ho c hc fc a hkind => ?_
  rw [initialValue?, initialValue?, h object ho c hc (by rw [hkind]; rfl)]

/-- Of the model, the statement of a logical node shows what is configured for its attributes. -/
theorem nodeStatement_withModel (inst : String) (b : Branch) (config : LogicalNode)
    (m : IedModel) : ({ w with model := m } : Setting).nodeStatement inst b config =
      { w.nodeStatement inst b config with
        data := nodeData ({ w with model := m } : Setting).initialValue? b } := rfl

variable (hm : w.model.Lawful) (hln : ln.Stands w.model) (hk : ln.node.kind.isLogicalNode)
include hm hln hk

/-- The statement of another logical node does not change. -/
theorem nodeStatement?_rename_of_ne (hb : b.Stands w.model) (hne : b.id ≠ ln.id)
    (inst name : String) :
    (w.rename ln.id name).nodeStatement? inst b = w.nodeStatement? inst b := by
  unfold nodeStatement?
  -- not by `rfl`, which would compare the two models
  cases hconfig : b.node.kind.config? with
  | none => rw [Option.map_none, Option.map_none]
  | some config =>
    have hvalues : ∀ object ∈ b.branches, ∀ c ∈ object.preorder, c.node.kind.isLeaf →
        (w.model.rename ln.id name).configured? c.id = w.model.configured? c.id := by
      intro object ho c hc _
      obtain ⟨names, hr⟩ := Branch.mem_preorder_iff.mp hc
      rw [configured?_rename hm hb hconfig ho hr hln hk name,
        configured?_of_reaches hm hb hconfig ho hr, Branch.renameAt_of_ne hne]
    rw [Option.map_some, Option.map_some, rename, nodeStatement_withModel,
      nodeData_congr_configured hvalues]
    rfl

omit hm hln hk in
/-- The statement of the logical node has the new name, also in what its log control blocks refer
to, and what is then configured for its attributes. -/
theorem layout_nodeStatement_rename (inst name : String) (config : LogicalNode) (m : IedModel) :
    (({ w with model := m } : Setting).nodeStatement inst (ln.rename name) config).layout =
      { w.nodeStatement inst ln config with
        name
        logControls := config.logControls.map (.ofControl inst name)
        data := nodeData ({ w with model := m } : Setting).initialValue? ln : NodeStatement }.layout
      := by
  have hname : (ln.rename name).name = name := by
    cases ln
    rfl
  unfold NodeStatement.layout NodeStatement.sections nodeStatement
  simp only [hname, nodeData, Branch.branches_rename, List.map_map, Function.comp_def,
    layout_dataSetStatement inst (ln.rename name) ln]
  rfl

end Setting

end Emission

end Substation
