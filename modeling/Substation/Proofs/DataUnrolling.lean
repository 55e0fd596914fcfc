import Mathlib.Data.List.Basic
import Mathlib.Tactic.Common
import Substation.Proofs.DataLines
import Substation.Proofs.PlainLeaves
import Substation.Proofs.Unrolling

/-!
# Data as it is written

The data of a logical node is written as the branches below it with their arrays unrolled
(`layouts_nodeData`): a node or an element of an array is a block with what stands below it, and
where a plain attribute ends there is its value. `data_written_unrolled` says what this means for
the emitted text: which lines it has for data, in which order, how often, and how attributes in
transient data objects are marked.

Results:
* `layouts_nodeData` (`write_data_object`, `write_data_attribute`): the statements for data are
  unrolled branches;
* `data_written_unrolled` (`write_logical_node`): the lines for data of the whole text.
-/

namespace Substation

open Substation.Config
open Substation.Emission
open Substation.Model
open Substation.Template (AttributeDef Constraint)
open Emission.Setting (deviceStatement?_eq nodeStatement?_eq)
open Unrolled

namespace Emission.Layout

/-- A block, or a line if there is nothing for a block and it is known how the line ends. -/
def entry (h : Head) : Option Tail → List Layout → Layout
  | some t, [] => single h t
  | _, parts => block h parts

@[simp] theorem entry_none (h : Head) (parts : List Layout) : entry h none parts = block h parts :=
  rfl

theorem entry_of_ne_nil (h : Head) (ending : Option Tail) {parts : List Layout}
    (hparts : parts ≠ []) : entry h ending parts = block h parts := by
  cases ending with
  | none => rfl
  | some t =>
    cases parts with
    | nil => exact absurd rfl hparts
    | cons => rfl

theorem heads_entry (h : Head) (ending : Option Tail) (parts : List Layout) :
    (entry h ending parts).heads = h :: parts.flatMap heads := by
  cases ending with
  | none => exact heads_block h parts
  | some t =>
    cases parts with
    | nil => rfl
    | cons => exact heads_block h _

end Emission.Layout

namespace Model

/-! ## Lines of unrolled branches -/

/-- The node that a mark belongs to. -/
def Mark.owner : Mark → Nat
  | node id => id
  | element id _ => id

/-- What stands at the front of the line of a node. -/
def Node.head (n : Node) (transient : Bool) : Head :=
  match n.kind with
  | .object count _ _ => DataStatement.objectHead n.name count
  | .leaf fc a => DataStatement.leafHead (LeafFields.ofNode n transient fc a)
  | _ => .call "" []

/-- How a line of a node ends; a line of a plain attribute ends with its value. -/
def Node.ending? (n : Node) (literal : AttributeDef → Option String) : Option Tail :=
  match n.kind with
  | .leaf _ a => if a.type = .constructed then none else some (.assignment (literal a))
  | _ => none

namespace IedModel

variable (m : IedModel) (literalOf : Nat → AttributeDef → Option String)

/-- What stands at the front of the line for a mark. Only data objects and attributes have lines. -/
def headOf : Mark → Head
  | .node id => (m.node? id).elim (.call "" []) fun n => n.head (m.inTransient id)
  | .element _ i => .element i

/-- How the line for a mark ends if nothing stands below it. -/
def ending? (k : Mark) : Option Tail :=
  (m.node? k.owner).bind fun n => n.ending? (literalOf k.owner)

mutual

/-- The lines for a tree of marks. -/
def layoutOf : Unrolled → Layout
  | .mk k parts => .entry (m.headOf k) (m.ending? literalOf k) (layoutsOf parts)

/-- The lines for several trees. -/
def layoutsOf : List Unrolled → List Layout
  | [] => []
  | t :: ts => layoutOf t :: layoutsOf ts

end

variable {m literalOf} {k : Mark}

theorem layoutsOf_eq_map (ts : List Unrolled) :
    m.layoutsOf literalOf ts = ts.map (m.layoutOf literalOf) := by
  induction ts with
  | nil => rfl
  | cons t ts ih => rw [layoutsOf, ih, List.map_cons]

mutual

theorem heads_layoutOf : ∀ t : Unrolled, (m.layoutOf literalOf t).heads = t.marks.map m.headOf
  | .mk k parts => by
    rw [layoutOf, Layout.heads_entry, marks_mk, List.map_cons, heads_layoutsOf parts]

/-- The lines are those for the marks, in order. -/
theorem heads_layoutsOf : ∀ ts : List Unrolled,
    (m.layoutsOf literalOf ts).flatMap Layout.heads = (marksAll ts).map m.headOf
  | [] => by rw [layoutsOf]; rfl
  | t :: ts => by
    rw [layoutsOf, List.flatMap_cons, heads_layoutOf t, heads_layoutsOf ts, marksAll_cons,
      List.map_append]

end

/-- The blocks of an array that is not plain, each with the same parts. -/
theorem layoutsOf_blocks {size id : Nat} (h : ∀ i, m.ending? literalOf (.element id i) = none)
    (parts : List Unrolled) : m.layoutsOf literalOf (blocks size id parts) =
      DataStatement.contents size (m.layoutsOf literalOf parts) fun i =>
        .block (.element i) (m.layoutsOf literalOf parts) := by
  unfold blocks DataStatement.contents
  split
  · rfl
  · rw [layoutsOf_eq_map, List.map_map]
    exact List.map_congr_left fun i _ => by
      rw [Function.comp_apply, layoutOf, h, headOf, Layout.entry_none]

theorem headOf_node {id : Nat} {n : Node} (h : m.node? id = some n) :
    m.headOf (.node id) = n.head (m.inTransient id) := by
  rw [headOf, h]
  rfl

theorem ending?_of_node? {n : Node} (h : m.node? k.owner = some n) :
    m.ending? literalOf k = n.ending? (literalOf k.owner) := by
  rw [ending?, h]
  rfl

end IedModel

/-! ## Data is written unrolled -/

namespace Branch

variable {m : IedModel} {literalOf : Nat → AttributeDef → Option String} {b : Branch}

/-- A plain attribute is a line that ends with its value, or a block of such lines. -/
theorem layout_value (hb : b.Stands m) {fc : Constraint} {a : AttributeDef}
    (hk : b.node.kind = .leaf fc a) (hplain : a.type ≠ .constructed) (hends : b.branches = []) :
    m.layoutOf literalOf b.unrolled = (DataStatement.value
      (LeafFields.ofNode b.node (m.inTransient b.id) fc a) (literalOf b.id a)).layout := by
  have hending : ∀ k : Mark, k.owner = b.id →
      m.ending? literalOf k = some (.assignment (literalOf b.id a)) := by
    intro k hid
    rw [IedModel.ending?_of_node? (hid ▸ hb.node?), Node.ending?, hk, hid]
    exact if_neg hplain
  have hhead : m.headOf (.node b.id) =
      DataStatement.leafHead (LeafFields.ofNode b.node (m.inTransient b.id) fc a) := by
    rw [IedModel.headOf_node hb.node?, Node.head, hk]
  have hsize : b.node.kind.arraySize =
      (LeafFields.ofNode b.node (m.inTransient b.id) fc a).count := by
    rw [hk]
    rfl
  rw [unrolled_eq, hends, unrolledAll, hsize, IedModel.layoutOf, hending _ rfl, hhead,
    IedModel.layoutsOf_eq_map, DataStatement.layout, blocks]
  split
  · rfl
  · next hcount =>
    rw [Layout.entry_of_ne_nil _ _ (by simpa using hcount), List.map_map]
    exact congrArg _ (List.map_congr_left fun i _ => by
      rw [Function.comp_apply, IedModel.layoutOf, hending _ rfl, IedModel.headOf]
      rfl)

/-- Anything else is a block with the lines for what stands below it. -/
theorem layout_block (hb : b.Stands m) (hending : ∀ literal, b.node.ending? literal = none)
    {parts : List DataStatement}
    (hparts : DataStatement.layouts parts = m.layoutsOf literalOf (unrolledAll b.branches)) :
    m.layoutOf literalOf b.unrolled = .block (b.node.head (m.inTransient b.id))
      (DataStatement.contents b.node.kind.arraySize (DataStatement.layouts parts) fun i =>
        .block (.element i) (DataStatement.layouts parts)) := by
  have hnone : ∀ k : Mark, k.owner = b.id → m.ending? literalOf k = none := by
    intro k hid
    rw [IedModel.ending?_of_node? (hid ▸ hb.node?), hending]
  rw [hparts, unrolled_eq, IedModel.layoutOf, hnone _ rfl, Layout.entry_none,
    IedModel.layoutsOf_blocks fun i => hnone (.element b.id i) rfl, IedModel.headOf_node hb.node?]

theorem layout_object (hb : b.Stands m) {count : Nat} {type : Template.ObjectType} {own : Bool}
    (hk : b.node.kind = .object count type own) {parts : List DataStatement}
    (hparts : DataStatement.layouts parts = m.layoutsOf literalOf (unrolledAll b.branches)) :
    m.layoutOf literalOf b.unrolled = (DataStatement.object b.node.name count parts).layout := by
  rw [layout_block hb (fun _ => by rw [Node.ending?, hk]) hparts, Node.head, hk,
    DataStatement.layout]
  rfl

theorem layout_group (hb : b.Stands m) {fc : Constraint} {a : AttributeDef}
    (hk : b.node.kind = .leaf fc a) (htype : a.type = .constructed) {parts : List DataStatement}
    (hparts : DataStatement.layouts parts = m.layoutsOf literalOf (unrolledAll b.branches)) :
    m.layoutOf literalOf b.unrolled = (DataStatement.group
      (LeafFields.ofNode b.node (m.inTransient b.id) fc a) parts).layout := by
  rw [layout_block hb (fun _ => by rw [Node.ending?, hk]; exact if_pos htype) hparts, Node.head, hk,
    DataStatement.layout]
  rfl

/-- Every branch directly below stands, is of a kind that may stand there, and lies in a transient
data object if the top is one or lies in one. -/
theorem Stands.forall_mem_branches (hm : m.Lawful) (hb : b.Stands m) :
    ∀ c ∈ b.branches, c.Stands m ∧ b.node.kind.Admits c.node.kind ∧
      m.inTransient c.id = (m.inTransient b.id || b.node.kind.isTransient) := by
  intro c hc
  have hcs := hb.of_mem hc
  obtain ⟨up, hup, hadmits, -⟩ := hm.of_parent_eq_some hcs.node? (hb.parent_of_mem hm hc)
  obtain rfl : b.node = up := Option.some.inj (hb.node?.symm.trans hup)
  exact ⟨hcs, hadmits, by rw [inTransient_of_mem hm hb hc, Bool.or_comm]⟩

mutual

theorem layout_dataStatement (hm : m.Lawful) (hp : m.PlainEnds) : ∀ b : Branch, b.Stands m →
    (b.node.kind.isObject || b.node.kind.isLeaf) = true →
    ∃ s, dataStatement? literalOf (m.inTransient b.id) b = some s ∧
      s.layout = m.layoutOf literalOf b.unrolled
  | mk id node branches, hb, hdata => by
    have hdata : (node.kind.isObject || node.kind.isLeaf) = true := hdata
    have hbelow : ∀ c ∈ branches, c.Stands m ∧ node.kind.Admits c.node.kind ∧
        m.inTransient c.id = (m.inTransient id || node.kind.isTransient) :=
      hb.forall_mem_branches hm
    cases hk : node.kind with
    | device => rw [hk] at hdata; exact absurd hdata Bool.false_ne_true
    | logicalNode => rw [hk] at hdata; exact absurd hdata Bool.false_ne_true
    | object count type own =>
      have hparts : DataStatement.layouts
          (objectParts literalOf (m.inTransient id || own) branches) =
            m.layoutsOf literalOf (unrolledAll branches) := by
        refine layouts_objectParts hm hp branches fun c hc => ?_
        obtain ⟨hcs, hadmits, htransient⟩ := hbelow c hc
        rw [hk] at hadmits htransient
        exact ⟨hcs, hadmits.isData rfl, htransient⟩
      refine ⟨_, ?_, (layout_object hb hk hparts).symm⟩
      rw [dataStatement?, hk]
      rfl
    | leaf fc a =>
      by_cases htype : a.type = .constructed
      · have hparts : DataStatement.layouts (groupParts literalOf (m.inTransient id) branches) =
            m.layoutsOf literalOf (unrolledAll branches) := by
          refine layouts_groupParts hm hp branches fun c hc => ?_
          obtain ⟨hcs, hadmits, htransient⟩ := hbelow c hc
          rw [hk] at hadmits htransient
          exact ⟨hcs, hadmits.isLeaf_of_isLeaf rfl, htransient.trans (Bool.or_false _)⟩
        refine ⟨_, ?_, (layout_group hb hk htype hparts).symm⟩
        rw [dataStatement?, hk]
        exact if_pos htype
      · have hends : branches = [] :=
          hp.branches_eq_nil hb (by simp [Branch.node, hk, NodeKind.isPlain, htype])
        refine ⟨_, ?_, (layout_value hb hk htype hends).symm⟩
        rw [dataStatement?, hk]
        exact if_neg htype

/-- What a data object holds is written unrolled. -/
theorem layouts_objectParts (hm : m.Lawful) (hp : m.PlainEnds) {transient : Bool} :
    ∀ bs : List Branch,
      (∀ b ∈ bs, b.Stands m ∧ (b.node.kind.isObject || b.node.kind.isLeaf) = true ∧
        m.inTransient b.id = transient) →
      DataStatement.layouts (objectParts literalOf transient bs) =
        m.layoutsOf literalOf (unrolledAll bs)
  | [], _ => by rw [objectParts, unrolledAll, IedModel.layoutsOf]; rfl
  | b :: bs, h => by
    obtain ⟨⟨hb, hdata, htransient⟩, hbs⟩ := List.forall_mem_cons.mp h
    obtain ⟨s, hs, hlayout⟩ := layout_dataStatement hm hp b hb hdata
    rw [htransient] at hs
    rw [objectParts, hs, unrolledAll, IedModel.layoutsOf, ← hlayout,
      ← layouts_objectParts hm hp bs hbs]
    rfl

/-- What a structured attribute holds is written unrolled. -/
theorem layouts_groupParts (hm : m.Lawful) (hp : m.PlainEnds) {transient : Bool} :
    ∀ bs : List Branch,
      (∀ b ∈ bs, b.Stands m ∧ b.node.kind.isLeaf = true ∧ m.inTransient b.id = transient) →
      DataStatement.layouts (groupParts literalOf transient bs) =
        m.layoutsOf literalOf (unrolledAll bs)
  | [], _ => by rw [groupParts, unrolledAll, IedModel.layoutsOf]; rfl
  | b :: bs, h => by
    obtain ⟨⟨hb, hleaf, htransient⟩, hbs⟩ := List.forall_mem_cons.mp h
    obtain ⟨s, hs, hlayout⟩ := layout_dataStatement hm hp b hb (by rw [hleaf, Bool.or_true])
    rw [htransient] at hs
    rw [groupParts, if_pos hleaf, hs, unrolledAll, IedModel.layoutsOf, ← hlayout,
      ← layouts_groupParts hm hp bs hbs]
    rfl

end

theorem objectParts_eq_filterMap (transient : Bool) (bs : List Branch) :
    objectParts literalOf transient bs = bs.filterMap (dataStatement? literalOf transient) := by
  induction bs with
  | nil => rfl
  | cons b bs ih =>
    rw [objectParts, ih, List.filterMap_cons]
    cases dataStatement? literalOf transient b <;> rfl

/-- The data of a logical node is written unrolled. -/
theorem layouts_nodeData (hm : m.Lawful) (hp : m.PlainEnds) (hb : b.Stands m)
    (hk : b.node.kind.isLogicalNode) : DataStatement.layouts (nodeData literalOf b) =
      m.layoutsOf literalOf (unrolledAll b.branches) := by
  have hbelow := hb.forall_mem_branches hm
  have hobjects : ∀ c ∈ b.branches, c.node.kind.isObject := fun c hc =>
    (hbelow c hc).2.1.isObject_of_isLogicalNode hk
  have htransient : (m.inTransient b.id || b.node.kind.isTransient) = false := by
    rw [hm.inTransient_of_isLogicalNode hb.node? hk]
    exact NodeKind.isTransient_of_isLogicalNode hk
  rw [nodeData, List.filter_eq_self.mpr hobjects, ← objectParts_eq_filterMap]
  refine layouts_objectParts hm hp b.branches fun c hc => ?_
  obtain ⟨hcs, -, hinherited⟩ := hbelow c hc
  exact ⟨hcs, by rw [hobjects c hc, Bool.true_or], hinherited.trans htransient⟩

end Branch

/-! ## What a logical node is written with -/

open Branch

/-- The layouts are those of the data of a logical node, with its arrays unrolled. -/
structure WrittenUnrolled (m : IedModel) (literalOf : Nat → AttributeDef → Option String)
    (ln : Branch) (ts : List Layout) : Prop where
  /-- They are the branches below the logical node, unrolled. -/
  layouts : ts = m.layoutsOf literalOf (unrolledAll ln.branches)
  /-- They have one line for each mark, each before those below it. -/
  heads : ts.flatMap Layout.heads = (marksAll (unrolledAll ln.branches)).map m.headOf
  /-- The nodes below the logical node have lines, and no others. -/
  nodes : ∀ id, .node id ∈ marksAll (unrolledAll ln.branches) ↔ ∃ c ∈ ln.descendants, c.id = id
  /-- All of these are data objects or attributes. -/
  kinds : ∀ c ∈ ln.descendants, c.node.kind.isObject ∨ c.node.kind.isLeaf
  /-- A data object has one line for each combination of elements of the data objects around it. -/
  objects : ∀ c ∈ ln.descendants, c.node.kind.isObject →
    (marksAll (unrolledAll ln.branches)).count (.node c.id) =
      (((m.enclosing c.id).filter NodeKind.isObject).map NodeKind.factor).prod
  /-- An attribute has one for each combination of elements of the data objects and attributes
  around it. -/
  leaves : ∀ c ∈ ln.descendants, c.node.kind.isLeaf →
    (marksAll (unrolledAll ln.branches)).count (.node c.id) =
      (((m.enclosing c.id).filter fun k => k.isObject || k.isLeaf).map NodeKind.factor).prod
  /-- Wherever an array occurs, it has all its elements in order, each with the same parts. -/
  arrays : ∀ c ∈ ln.descendants, ∀ t ∈ subtreesAll (unrolledAll ln.branches),
    t.mark = .node c.id → t.parts =
      if c.node.kind.arraySize = 0 then unrolledAll c.branches
      else (List.range c.node.kind.arraySize).map fun i => .mk (.element c.id i)
        (unrolledAll c.branches)
  /-- The elements of an array are written alike, but for their numbers. -/
  elements : ∀ c ∈ ln.descendants, m.layoutOf literalOf c.unrolled =
    .entry (m.headOf (.node c.id)) (m.ending? literalOf (.node c.id))
      (if c.node.kind.arraySize = 0 then m.layoutsOf literalOf (unrolledAll c.branches)
      else (List.range c.node.kind.arraySize).map fun i =>
        .entry (.element i) (m.ending? literalOf (.node c.id))
          (m.layoutsOf literalOf (unrolledAll c.branches)))
  /-- The line of a data object has its name and the size of the array. -/
  objectHeads : ∀ c ∈ ln.descendants, ∀ {count type transient},
    c.node.kind = .object count type transient →
    m.headOf (.node c.id) = .ofFields "DO" [.text c.name, .natural count]
  /-- The line of an attribute has the bit mask of its definition, and 128 more if one of the data
  objects around it is transient. -/
  leafHeads : ∀ c ∈ ln.descendants, ∀ {fc a}, c.node.kind = .leaf fc a →
    m.headOf (.node c.id) = .ofFields "DA" [.text c.name, .natural a.count,
      .integer a.type.ordinal, .integer fc.ordinal,
      .natural (a.triggers.bits + if ∃ k ∈ m.enclosing c.id, k.isTransient then 128 else 0),
      .text (textOr "0" a.sAddr)]

/-- Only data stands below data. -/
theorem isData_of_reaches {m : IedModel} {b c : Branch} {names : List String} (hm : m.Lawful)
    (hr : b.Reaches names c) (hb : b.Stands m)
    (hdata : (b.node.kind.isObject || b.node.kind.isLeaf) = true) :
    (c.node.kind.isObject || c.node.kind.isLeaf) = true := by
  induction hr with
  | refl b => exact hdata
  | @step b d c names hd hr ih =>
    obtain ⟨hds, hadmits, -⟩ := hb.forall_mem_branches hm d hd
    have hdevice : b.node.kind.isDevice = false := by
      cases hkind : b.node.kind with
      | device => rw [hkind] at hdata; exact absurd hdata Bool.false_ne_true
      | _ => rfl
    exact ih hds (hadmits.isData hdevice)

/-- The data of a logical node is written so. -/
theorem writtenUnrolled_nodeData {m : IedModel} {literalOf : Nat → AttributeDef → Option String}
    {ln : Branch} (hm : m.Lawful) (hp : m.PlainEnds) (hln : ln.Stands m)
    (hk : ln.node.kind.isLogicalNode) :
    WrittenUnrolled m literalOf ln (DataStatement.layouts (nodeData literalOf ln)) where
  layouts := layouts_nodeData hm hp hln hk
  heads := by rw [layouts_nodeData hm hp hln hk, IedModel.heads_layoutsOf]
  nodes _ := mem_marksAll_iff ln.branches
  kinds c hc := by
    obtain ⟨d, hd, hc⟩ := mem_descendants.mp hc
    obtain ⟨names, hr⟩ := mem_preorder_iff.mp hc
    obtain ⟨hds, hadmits, -⟩ := hln.forall_mem_branches hm d hd
    have hdata := hadmits.isData (NodeKind.isDevice_eq_false hk)
    exact Bool.or_eq_true_iff.mp (isData_of_reaches hm hr hds hdata)
  objects c hc hobject := by
    obtain ⟨hcs, -⟩ := hln.of_mem_descendants hc
    rw [count_unrolledAll hm hln hk hc,
      hm.repetitions_eq hcs.node? (NodeKind.isLeaf_eq_false hobject)]
  leaves c hc _ := by rw [count_unrolledAll hm hln hk hc, IedModel.repetitions_eq]
  arrays c hc t ht hmark := by
    rw [hln.eq_unrolled hc ht hmark, unrolled_eq]
    rfl
  elements c hc := by
    rw [unrolled_eq, IedModel.layoutOf, blocks]
    refine congrArg _ ?_
    split
    · rfl
    · rw [IedModel.layoutsOf_eq_map, List.map_map]
      exact List.map_congr_left fun i _ => by rw [Function.comp_apply, IedModel.layoutOf]; rfl
  objectHeads c hc count type transient hkind := by
    obtain ⟨hcs, -⟩ := hln.of_mem_descendants hc
    rw [IedModel.headOf_node hcs.node?, Node.head, hkind]
    rfl
  leafHeads c hc fc a hkind := by
    obtain ⟨hcs, -⟩ := hln.of_mem_descendants hc
    rw [IedModel.headOf_node hcs.node?, Node.head, hkind]
    simp only [DataStatement.leafHead, LeafFields.fields, LeafFields.ofNode, IedModel.inTransient,
      List.any_eq_true, transientBit, Branch.name]

end Model

theorem flatMap_filterMap_of_forall {α β γ : Type} {as : List α} {f : α → Option β}
    {g : β → List γ} {h : α → List γ} (hf : ∀ a ∈ as, ∃ b, f a = some b ∧ g b = h a) :
    (as.filterMap f).flatMap g = as.flatMap h := by
  induction as with
  | nil => rfl
  | cons a as ih =>
    obtain ⟨⟨b, hb, hg⟩, has⟩ := List.forall_mem_cons.mp hf
    rw [List.filterMap_cons_some hb, List.flatMap_cons, List.flatMap_cons, hg, ih has]

/-- The lines for data of a model are those of the branches below its logical nodes. -/
theorem Emission.Setting.dataHeads_modelStatement {w : Setting} (hm : w.model.Lawful)
    (hp : w.model.PlainEnds) : w.modelStatement.layout.heads.filter Head.isData =
      (w.model.devices.filterMap w.model.branch?).flatMap fun dev => dev.branches.flatMap fun ln =>
        (marksAll (Branch.unrolledAll ln.branches)).map w.model.headOf := by
  rw [ModelStatement.dataHeads_layout]
  refine flatMap_filterMap_of_forall fun dev hdev => ?_
  obtain ⟨id, hid, hbranch⟩ := List.mem_filterMap.mp hdev
  obtain ⟨hstands, rfl⟩ := (Branch.branch?_eq_some_iff hm.forest).mp hbranch
  have htop : dev.node.parent = none := by
    rw [← IedModel.parent?_eq hstands.node?]
    exact ((hm.forest.mem_devices dev.id).mp hid).2
  obtain ⟨inst, space, hk⟩ :=
    NodeKind.exists_of_isDevice ((hm.parent_eq_none_iff hstands.node?).mp htop)
  refine ⟨_, deviceStatement?_eq hk, flatMap_filterMap_of_forall fun ln hln => ?_⟩
  obtain ⟨hlns, hadmits, -⟩ := hstands.forall_mem_branches hm ln hln
  rw [hk] at hadmits
  cases hconfig : ln.node.kind with
  | logicalNode config space =>
    refine ⟨_, nodeStatement?_eq hconfig, ?_⟩
    show (DataStatement.layouts (nodeData w.initialValue? ln)).flatMap Layout.heads = _
    rw [Branch.layouts_nodeData hm hp hlns (by rw [hconfig]; rfl), IedModel.heads_layoutsOf]
  | _ => rw [hconfig] at hadmits; exact hadmits.elim

variable {d : Document} {res : Resolution}

/-- **Data is written unrolled.** The lines for data of the whole text are those of the branches
below the logical nodes, unrolled and in order. Every logical node of a resolved model has a block,
whose entries for data are those of the logical node (`WrittenUnrolled`) and whose other entries
have no lines for data. -/
theorem data_written_unrolled {ied : String} {ap : Option String} {ro : ResolveOptions}
    (hres : resolve d ied ap ro = .ok res) (o : EmitOptions) :
    (emit d res o none).text = textOfLines (res.statement d o).layout.lines ∧
    (res.statement d o).layout.heads.filter Head.isData =
      ((res.model.devices.filterMap res.model.branch?).flatMap fun dev =>
        dev.branches.flatMap fun ln =>
          (marksAll (Branch.unrolledAll ln.branches)).map res.model.headOf) ∧
    ∀ {id : Nat} {n : Node} {config : LogicalNode} {space : Option Namespace},
      res.model.node? id = some n → n.kind = .logicalNode config space →
      ∃ ln front parts back, res.model.branch? id = some ln ∧
        (emit d res o none).text = textOfLines
          (front ++ (Layout.block (.ofName "LN" n.name) parts).lines ++ back) ∧
        WrittenUnrolled res.model (res.setting d o).initialValue? ln
          (parts.filter (·.tag ∈ ["DO", "DA"])) ∧
        ∀ t ∈ parts, t.tag ∉ ["DO", "DA"] → t.NoData := by
  obtain ⟨i, a, -, -, hstage⟩ := Resolution.stage_of_resolve hres
  have hm := hstage.lawful
  have hp := hstage.plainEnds
  refine ⟨text_emit_eq_textOfLines, Setting.dataHeads_modelStatement (w := res.setting d o) hm hp,
    ?_⟩
  intro id n config space hn hconfig
  obtain ⟨ln, hln, rfl⟩ := Branch.exists_stands hm.forest (IedModel.lt_size_of_node? hn)
  obtain rfl : ln.node = n := Option.some.inj (hln.node?.symm.trans hn)
  obtain ⟨-, inst, front, back, -, -, htext⟩ := exists_block hm hln hconfig
  let s := (res.setting d o).nodeStatement inst ln config
  refine ⟨ln, front, s.layout.parts, back, hln.branch?, htext, ?_,
    fun t ht htag => NodeStatement.noData_of_mem ht htag⟩
  rw [s.filter_data]
  exact writtenUnrolled_nodeData hm hp hln (by rw [hconfig]; rfl)

/-- An array of transient data objects, each with an array of data objects, each with an array of
structures that hold an array of numbers. -/
def phaseTypes : Template.Registry where
  nodeTypes := ⟨[("L", ⟨"L", "LLN0", [⟨"Har", "H", 2, true⟩]⟩)]⟩
  objectTypes := ⟨[("H", ⟨"H", "HMV", [⟨"phs", "P", 2, false⟩], []⟩),
    ("P", ⟨"P", "CMV", [], [⟨"cVal", .mx, .constructed, some "V", 2, {}, none, []⟩]⟩)]⟩
  attributeTypes :=
    ⟨[("V", ⟨"V", [⟨"f", .none, .float32, none, 3, { dchg := true }, none, []⟩]⟩)]⟩

/-- A logical node of that type. -/
def phaseNode : LogicalNode where
  lnClass := "LLN0"
  lnType := "L"
  inst := ""
  lnPrefix := none
  desc := none
  dataSets := []
  reports := []
  logControls := []
  instances := []
  logs := []
  gseControls := []
  sampledControls := []
  settings := none

/-- An access point with that logical node. -/
def phaseAccessPoint : AccessPoint := ⟨"A", some ⟨[⟨"LD", none, none, some phaseNode, []⟩]⟩⟩

/-- A document with that access point. -/
def phaseDocument : Document :=
  ⟨⟨none, none, none, none, none, [⟨"E", none, none, none, [phaseAccessPoint]⟩], none⟩,
    phaseTypes, []⟩

/-- Namespaces and configuration revisions are not looked at. -/
def phaseOptions : ResolveOptions := { checkConfigRev := false, checkNamespaces := false }

/-- The resolution of the document. -/
def phaseResolution : Resolution :=
  .ofAccessPoint phaseDocument phaseOptions ⟨"E", none, none, none, [phaseAccessPoint]⟩
    phaseAccessPoint

/-- The numbers are written for each of the eight structures, and marked as transient. -/
theorem data_written_unrolled_phases :
    resolve phaseDocument "E" none phaseOptions = .ok phaseResolution ∧
    ∃ ln front parts back, phaseResolution.model.branch? 1 = some ln ∧
      (emit phaseDocument phaseResolution {} none).text = textOfLines
        (front ++ (Layout.block (.ofName "LN" "LLN0") parts).lines ++ back) ∧
      WrittenUnrolled phaseResolution.model (phaseResolution.setting phaseDocument {}).initialValue?
        ln (parts.filter (·.tag ∈ ["DO", "DA"])) ∧
      ((parts.filter (·.tag ∈ ["DO", "DA"])).flatMap Layout.heads).count
        (.call "DA" ["f", "3", "10", "1", "145", "0"]) = 8 := by
  have hres : resolve phaseDocument "E" none phaseOptions = .ok phaseResolution := rfl
  obtain ⟨-, -, hln⟩ := data_written_unrolled hres {}
  obtain ⟨n, hn, hname, hkind⟩ : ∃ n, phaseResolution.model.node? 1 = some n ∧ n.name = "LLN0" ∧
      n.kind = .logicalNode phaseNode none := ⟨_, rfl, rfl, rfl⟩
  obtain ⟨ln, front, parts, back, hbranch, htext, hwritten, -⟩ := hln hn hkind
  refine ⟨hres, ln, front, parts, back, hbranch, hname ▸ htext, hwritten, ?_⟩
  have hcount : ((phaseResolution.model.branch? 1).elim 0 fun ln =>
      ((marksAll (Branch.unrolledAll ln.branches)).map phaseResolution.model.headOf).count
        (.call "DA" ["f", "3", "10", "1", "145", "0"])) = 8 := by decide +kernel
  rw [hbranch] at hcount
  rw [hwritten.heads]
  exact hcount

end Substation
