import Mathlib.Data.List.Infix
import Mathlib.Tactic.Common
import Substation.Proofs.References
import Substation.Proofs.StaticText

/-!
# Blocks of the emitted text

What is emitted are the lines of one block, which holds a block for each logical device, and these
hold a block for each logical node. So every logical node of a resolved model has a block in the
text, within the block of its logical device (`exists_hasBlock`), and what stands in the block can
be studied on its own.
-/

namespace Substation

open Substation.Config
open Substation.Emission
open Substation.Model

namespace Emission

/-- The lines of an entry of a block stand in the block, between those of the entries around it. -/
theorem Layout.lines_block_append (h : Head) (as bs : List Layout) (t : Layout) :
    (Layout.block h (as ++ t :: bs)).lines =
      (h.text ++ "\x7b") :: linesAll as ++ t.lines ++ (linesAll bs ++ ["\x7d"]) := by
  rw [lines_block, linesAll, linesAll, linesAll, List.flatMap_append, List.flatMap_cons]
  simp

theorem Layout.lines_infix_of_mem {h : Head} {parts : List Layout} {t : Layout} (ht : t ∈ parts) :
    t.lines <:+: (Layout.block h parts).lines := by
  obtain ⟨front, back, rfl⟩ := List.append_of_mem ht
  exact ⟨_, _, (lines_block_append h front back t).symm⟩

/-- The entries of a logical node that have the tags of a kind are those of the kind. -/
theorem NodeStatement.filter_layout {α : Type} (s : NodeStatement) {tags : List String}
    {as : List α} {layout : α → Layout} (hs : ⟨tags, as.map layout⟩ ∈ s.sections) :
    s.layout.parts.filter (·.tag ∈ tags) = as.map layout := by
  have hpick : Layout.pick tags some s.layout.parts = as.map layout :=
    s.pick_layout hs fun _ _ => rfl
  rwa [Layout.pick, List.filterMap_some] at hpick

/-- The entries of a kind stand together, and around them are only entries of other kinds. -/
theorem NodeStatement.exists_split (s : NodeStatement) {sec : Layout.Section}
    (hs : sec ∈ s.sections) : ∃ before after, s.layout.parts = before ++ sec.entries ++ after ∧
      ∀ t ∈ before ++ after, t.tag ∉ sec.tags := by
  obtain ⟨front, back, heq⟩ := List.append_of_mem hs
  have hapart := s.apart_sections
  rw [heq, List.pairwise_append, List.pairwise_cons] at hapart
  obtain ⟨-, ⟨hback, -⟩, hfront⟩ := hapart
  refine ⟨front.flatMap Layout.Section.entries, back.flatMap Layout.Section.entries, ?_, ?_⟩
  · show s.sections.flatMap Layout.Section.entries = _
    rw [heq, List.flatMap_append, List.flatMap_cons, List.append_assoc]
  · intro t ht
    rcases List.mem_append.mp ht with ht | ht
    · obtain ⟨sec', hsec', ht⟩ := List.mem_flatMap.mp ht
      have htag := s.tagged_sections sec' (heq ▸ List.mem_append_left _ hsec') t ht
      exact hfront sec' hsec' sec List.mem_cons_self t.tag htag
    · obtain ⟨sec', hsec', ht⟩ := List.mem_flatMap.mp ht
      have htag := s.tagged_sections sec'
        (heq ▸ List.mem_append_right _ (List.mem_cons_of_mem _ hsec')) t ht
      exact fun hsec => hback sec' hsec' t.tag hsec htag

namespace Setting

variable {w : Setting} {ln dev : Branch} {inst : String} {config : LogicalNode}

theorem nodeStatement?_eq {space : Option Namespace}
    (hk : ln.node.kind = .logicalNode config space) :
    w.nodeStatement? inst ln = some (w.nodeStatement inst ln config) := by
  rw [nodeStatement?, hk]
  rfl

theorem deviceStatement?_eq {space : Option Namespace} (hk : dev.node.kind = .device inst space) :
    w.deviceStatement? dev = some ⟨inst, dev.branches.filterMap (w.nodeStatement? inst)⟩ := by
  rw [deviceStatement?, hk]

/-- A logical node below a logical device has a block within the block of the device, which stands
in the text of the model. -/
theorem exists_deviceBlock {space lnSpace : Option Namespace} (hid : dev.id ∈ w.model.devices)
    (hdev : w.model.branch? dev.id = some dev) (hk : dev.node.kind = .device inst space)
    (hln : ln ∈ dev.branches) (hconfig : ln.node.kind = .logicalNode config lnSpace) :
    ∃ parts, (w.nodeStatement inst ln config).layout ∈ parts ∧
      (Layout.block (.ofName "LD" inst) parts).lines <:+: w.modelStatement.layout.lines := by
  have hnode : w.nodeStatement inst ln config ∈ dev.branches.filterMap (w.nodeStatement? inst) :=
    List.mem_filterMap.mpr ⟨ln, hln, nodeStatement?_eq hconfig⟩
  have hdevice : ⟨inst, dev.branches.filterMap (w.nodeStatement? inst)⟩ ∈
      w.modelStatement.devices :=
    List.mem_filterMap.mpr ⟨dev, List.mem_filterMap.mpr ⟨dev.id, hid, hdev⟩,
      deviceStatement?_eq hk⟩
  exact ⟨_, List.mem_map_of_mem hnode, Layout.lines_infix_of_mem (List.mem_map_of_mem hdevice)⟩

end Setting

end Emission

namespace Model

variable {m : IedModel} {ln : Branch} {config : LogicalNode} {space : Option Namespace}

/-- Every logical node of a lawful table stands directly below a logical device. -/
theorem exists_device (hm : m.Lawful) (hln : ln.Stands m)
    (hconfig : ln.node.kind = .logicalNode config space) :
    ∃ (dev : Branch) (inst : String) (devSpace : Option Namespace), dev.Stands m ∧
      dev.id ∈ m.devices ∧ dev.node.kind = .device inst devSpace ∧
      ln.node.parent = some dev.id ∧ ln ∈ dev.branches := by
  have hk : ln.node.kind.isLogicalNode := by
    rw [hconfig]
    rfl
  obtain ⟨dev, hdev, hmem⟩ := hln.exists_above hm (NodeKind.isDevice_eq_false hk)
  have hdevice := (hdev.law_of_mem hm hmem).1.isDevice_of_isLogicalNode hk
  have htop := (hm.parent_eq_none_iff hdev.node?).mpr hdevice
  obtain ⟨inst, devSpace, hkind⟩ := NodeKind.exists_of_isDevice hdevice
  exact ⟨dev, inst, devSpace, hdev, (hm.of_parent_eq_none hdev.node? htop).1, hkind,
    hdev.parent_of_mem hm hmem, hmem⟩

end Model

/-- Lines as one text; every line ends with a line feed. -/
def textOfLines (ls : List String) : String :=
  String.ofList (ls.flatMap fun l => l.toList ++ ['\n'])

variable {d : Document} {res : Resolution} {o : EmitOptions}

/-- The emitted text is that of the layout. -/
theorem text_emit_eq_textOfLines :
    (emit d res o none).text = textOfLines (res.statement d o).layout.lines := by
  rw [text_emit isComplete_emit, ModelStatement.text_eq]
  rfl

/-- In the text there is the block of a logical device, and in it a block of these parts for a
logical node. -/
def HasBlock (text inst name : String) (parts : List Layout) : Prop :=
  ∃ front before after back, text = textOfLines (front ++ (Layout.block (.ofName "LD" inst)
    (before ++ .block (.ofName "LN" name) parts :: after)).lines ++ back)

theorem HasBlock.exists_lines {text inst name : String} {parts : List Layout}
    (h : HasBlock text inst name parts) : ∃ front back,
      text = textOfLines (front ++ (Layout.block (.ofName "LN" name) parts).lines ++ back) := by
  obtain ⟨front, before, after, back, htext⟩ := h
  obtain ⟨front', back', hlines⟩ := Layout.lines_infix_of_mem (h := .ofName "LD" inst)
    (List.mem_append_right before (List.mem_cons_self (l := after)))
  refine ⟨front ++ front', back' ++ back, ?_⟩
  rw [htext, ← hlines]
  simp only [List.append_assoc]

/-- Every logical node of a resolved model stands below a logical device and has a block in the
emitted text, within that of the device. -/
theorem exists_hasBlock (hm : res.model.Lawful) {ln : Branch} (hln : ln.Stands res.model)
    {config : LogicalNode} {space : Option Namespace}
    (hconfig : ln.node.kind = .logicalNode config space) :
    ∃ dev inst, ln.node.parent = some dev ∧ res.model.inst? dev = some inst ∧
      HasBlock (emit d res o none).text inst ln.node.name
        ((res.setting d o).nodeStatement inst ln config).layout.parts := by
  obtain ⟨dev, inst, devSpace, hdev, hid, hk, hparent, hmem⟩ := exists_device hm hln hconfig
  have hinst : res.model.inst? dev.id = some inst := by
    unfold IedModel.inst?
    rw [hdev.node?, Option.map_some, hk]
  obtain ⟨parts, hpart, front, back, hlines⟩ :=
    Setting.exists_deviceBlock (w := res.setting d o) hid hdev.branch? hk hmem hconfig
  obtain ⟨before, after, rfl⟩ := List.append_of_mem hpart
  refine ⟨dev.id, inst, hparent, hinst, front, before, after, back, ?_⟩
  rw [text_emit_eq_textOfLines]
  exact congrArg textOfLines hlines.symm

/-- Then the lines of the logical node stand in the text. -/
theorem exists_block (hm : res.model.Lawful) {ln : Branch} (hln : ln.Stands res.model)
    {config : LogicalNode} {space : Option Namespace}
    (hconfig : ln.node.kind = .logicalNode config space) :
    ∃ dev inst front back, ln.node.parent = some dev ∧ res.model.inst? dev = some inst ∧
      (emit d res o none).text = textOfLines
        (front ++ ((res.setting d o).nodeStatement inst ln config).layout.lines ++ back) := by
  obtain ⟨dev, inst, hparent, hinst, hblock⟩ := exists_hasBlock hm hln hconfig
  obtain ⟨front, back, htext⟩ := hblock.exists_lines
  exact ⟨dev, inst, front, back, hparent, hinst, htext⟩

end Substation
