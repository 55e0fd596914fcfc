import Mathlib.Data.List.Basic
import Mathlib.Tactic.Common
import Substation.Proofs.Journals
import Substation.Proofs.NodeBranches

/-!
# What a logical node leaves in the journal

To add a logical node is to plant it, to enter what its expansion brings in, and to check it
(`exists_of_addNode`). So a property of a logical node and the journal that every check establishes
for the node it is made for, that does not depend on namespaces and that is not lost when the
journal grows, holds of all logical nodes of a resolved model (`logicalNodes_of_resolve`).
-/

namespace Substation.Resolution

open Substation.Config
open Substation.Journal
open Substation.Model
open Substation.Template

variable {r : Registry} {g : Growth}

/-- The entries of the expansion of a logical node of reference `ref`. -/
def expansionEntries (r : Registry) (limit : Nat) (ref : String) (config : LogicalNode) :
    List Entry :=
  nodeEntries r ref config (nodeHarvest r limit ref (nodeObjects r config))

/-- Adding a logical node comes down to a check of the planted node. -/
theorem exists_of_addNode (hm : g.model.Forest) {device : Nat} {d : Node}
    (hd : g.model.node? device = some d) (o : ResolveOptions) (subject : Subject) (inst : String)
    (config : LogicalNode) :
    let ref := d.ref ++ d.kind.separator ++ config.name
    ∃ g₁ : Growth, ∃ n : Note,
      g₁.model = g.model.plant device (nodeSprout r o.maxDepth o.maxDepth ref config) ∧
      g₁.journal.toList =
        g.journal.toList ++ expansionEntries r o.maxDepth ref config ++ [.note n] ∧
      addNode r o subject inst device g config =
        checkNode r o inst device g.model.size config g₁ := by
  intro ref
  obtain ⟨g', hgrow, hmodel, hjournal⟩ := grow_addLogicalNode (r := r) hm hd o.maxDepth config
  let n := Note.resolvedNode subject inst
    (((g'.model.node? g.model.size).map Node.name).getD "")
    (g'.model.children g.model.size).length
  refine ⟨g'.enter (.note n), n, hmodel, ?_, ?_⟩
  · show (g'.journal.push (.note n)).toList = _
    rw [hjournal, Array.toList_push, Array.toList_appendList]
    rfl
  · rw [addNode, hgrow]

/-- Namespaces make no difference. -/
theorem Respaced.exists_alike {m m' : IedModel} (hm : m.Lawful) (h : Respaced m m') :
    m'.Lawful ∧ ∀ b : Branch, b.Stands m' → b.node.kind.isLogicalNode →
      ∃ b₀ : Branch, b₀.Stands m ∧ b₀.Alike b := by
  induction h with
  | refl => exact ⟨hm, fun b hb _ => ⟨b, hb, .refl b⟩⟩
  | @step m' _ id space ih =>
    obtain ⟨hlaw, hback⟩ := ih
    refine ⟨hlaw.setSpace id space, fun b hb hk => ?_⟩
    obtain ⟨b₁, hb₁, halike⟩ := Branch.exists_of_setSpace hlaw hb hk
    obtain ⟨b₀, hb₀, halike₀⟩ := hback b₁ hb₁ (halike.isLogicalNode ▸ hk)
    exact ⟨b₀, hb₀, halike₀.trans halike⟩

section Induction

variable {d : Document} {o : ResolveOptions} {P : List Entry → Branch → Prop}
  (hgrows : ∀ es es' b, es <+: es' → P es b → P es' b)
  (halike : ∀ es b b', Branch.Alike b b' → P es b → P es b')
  (hcheck : ∀ (g₁ : Growth) (inst : String) (device : Nat) (config : LogicalNode) (b : Branch),
    g₁.model.branch? b.id = some b → b.node.kind = .logicalNode config none →
    expansionEntries d.registry o.maxDepth b.ref config ⊆ g₁.journal.toList →
    P (checkNode d.registry o inst device b.id config g₁).journal.toList b)
include hgrows halike hcheck

/-- What holds of the logical nodes of a table holds when one more is added. -/
theorem logicalNodes_of_addNode
    (hg : ∀ b : Branch, b.Stands g.model → b.node.kind.isLogicalNode → P g.journal.toList b)
    (hm : g.model.Lawful) {device : Nat} {up : Node} (hup : g.model.node? device = some up)
    (hupk : up.kind.isDevice) (subject : Subject) (inst : String) (config : LogicalNode)
    {b : Branch} (hb : b.Stands (addNode d.registry o subject inst device g config).model)
    (hk : b.node.kind.isLogicalNode) :
    P (addNode d.registry o subject inst device g config).journal.toList b := by
  obtain ⟨g₁, n, hmodel, hjournal, hadd⟩ :=
    exists_of_addNode (r := d.registry) hm.forest hup o subject inst config
  have hunder := nodeSprout_under (r := d.registry) hupk o.maxDepth o.maxDepth
    (up.ref ++ up.kind.separator ++ config.name) config
  have hlaw : g₁.model.Lawful := hmodel ▸ hm.plant hup hunder
  rw [hadd] at hb ⊢
  obtain ⟨b₁, hb₁, hsame⟩ := (Respaced.exists_alike hlaw
    (respaced_checkNode o inst device g.model.size config g₁)).2 b hb hk
  refine halike _ _ _ hsame ?_
  have hk₁ : b₁.node.kind.isLogicalNode := hsame.isLogicalNode ▸ hk
  have hstands := hb₁
  rw [hmodel] at hstands
  rcases Branch.stands_of_plant hm hup hupk hunder hstands hk₁ with hold | hnew
  · have hremarked := (Remarked.report g₁ _).trans
      (remarked_checkNode (r := d.registry) o inst device g.model.size config g₁)
    have hkept : g.journal.toList <+: g₁.journal.toList := by
      rw [hjournal, List.append_assoc]
      exact List.prefix_append _ _
    exact hgrows _ _ _ (hkept.trans hremarked.isPrefix) (hg b₁ hold hk₁)
  · have hid : g.model.size = b₁.id := by rw [hnew, Sprout.id_grown]
    have href : b₁.ref = up.ref ++ up.kind.separator ++ config.name := by
      rw [hnew]
      exact Sprout.ref_grown ..
    rw [hid]
    refine hcheck g₁ inst device config b₁ hb₁.branch? ?_ ?_
    · rw [hnew, nodeSprout, Sprout.grown]
      rfl
    · rw [hjournal, href]
      exact fun e he => List.mem_append_left _ (List.mem_append_right _ he)

/-- **What every check establishes for its logical node, and what is not lost as the journal grows,
holds of all logical nodes of a resolved model.** -/
theorem logicalNodes_of_resolve {ied : String} {ap : Option String} {res : Resolution}
    (h : resolve d ied ap o = .ok res) {b : Branch} (hb : b.Stands res.model)
    (hk : b.node.kind.isLogicalNode) : P res.journal b := by
  obtain ⟨i, a, -, -, rfl⟩ := exists_of_resolve h
  obtain ⟨-, hbuilt⟩ := built_induction d o i a
    (Q := fun g => ∀ b : Branch, b.Stands g.model → b.node.kind.isLogicalNode →
      P g.journal.toList b)
    (fun b hb => absurd (IedModel.lt_size_of_node? hb.node?) (Nat.not_lt_zero _))
    (fun g name inst hm hg b hb hk => hg b (Branch.stands_of_addDevice hm.forest hb hk) hk)
    (fun g device n inst config hm hn hkind hg b hb hk => logicalNodes_of_addNode hgrows halike
      hcheck hg hm hn (NodeKind.isDevice_of_bare hkind) _ inst config hb hk)
  obtain ⟨es, hes, -⟩ := remarked_ofAccessPoint d o i a
  rw [model_ofAccessPoint] at hb
  refine hgrows _ _ b ?_ (hbuilt b hb hk)
  rw [hes]
  exact List.prefix_append _ _

end Induction

end Substation.Resolution
