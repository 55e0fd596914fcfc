import Mathlib.Logic.Relation
import Mathlib.Tactic.Common
import Substation.Proofs.Edits
import Substation.Proofs.References
import Substation.Proofs.Walks

/-!
# Navigation

Going down from a node and going up from one agree. `descendants` lists the nodes that have the node
as a proper ancestor; `nearest?` finds the first node of a kind on the way up (`IsNearest`); and in
a resolved model the data objects directly below logical nodes part the nodes further down among
them, so that `topObject?` finds the one in which a node lies (`Lawful.topObject?_eq_some_iff`).

Results:
* `nearest?_eq_some_iff` (`enclosing_logical_device`, `enclosing_logical_node`): climbs find the
  nearest node;
* `Lawful.topObject?_eq_some_iff` (`top_level_data_object`): the climb to a data object;
* `navigation_agrees` (`descendants`): these and the walk down agree.
-/

namespace Substation.Model.IedModel

variable {m : IedModel} {p : Node → Bool} {id a x : Nat}

/-- A node has a property, and it is the first one to have it on the way up from another node: all
others that have it stand above it. -/
structure IsNearest (m : IedModel) (p : Node → Bool) (id a : Nat) : Prop where
  within : m.Within id a
  satisfies : m.satisfies p a
  first : ∀ x, m.Within id x → m.satisfies p x → m.Within a x

theorem satisfies_eq {n : Node} (hn : m.node? id = some n) : m.satisfies p id = p n := by
  rw [satisfies, hn]
  rfl

theorem exists_of_satisfies (h : m.satisfies p id) : ∃ n, m.node? id = some n ∧ p n := by
  unfold satisfies at h
  exact (Option.any_eq_true _ _).mp h

/-- The way up from a child leads through its parent. -/
theorem within_iff_of_parent {n : Node} {up : Nat} (hn : m.node? id = some n)
    (hp : n.parent = some up) : m.Within id x ↔ id = x ∨ m.Within up x := by
  rw [within_iff, below_iff_of_parent? (by rw [parent?_eq hn, hp])]

theorem within_iff_of_parent_eq_none {n : Node} (hn : m.node? id = some n)
    (hp : n.parent = none) : m.Within id x ↔ id = x := by
  rw [within_iff, or_iff_left (not_below_of_parent? (by rw [parent?_eq hn, hp]))]

namespace Forest

variable (hm : m.Forest)
include hm

/-- A climb that finds a node finds the nearest one. -/
theorem isNearest_of_nearest? (h : m.nearest? p id = some a) : m.IsNearest p id a := by
  induction id using Nat.strongRecOn with
  | ind id ih =>
    cases hn : m.node? id with
    | none =>
      rw [nearest?_of_node?_eq_none hn] at h
      exact nomatch h
    | some n =>
      rw [hm.nearest?_eq hn] at h
      by_cases hpn : p n
      · rw [if_pos hpn] at h
        cases h
        exact ⟨.refl, by rw [satisfies_eq hn, hpn], fun x hx _ => hx⟩
      · rw [if_neg hpn] at h
        obtain ⟨up, hup, hfound⟩ := Option.bind_eq_some_iff.mp h
        obtain ⟨hwithin, hsat, hfirst⟩ := ih up (hm.lt_of_parent hn hup) hfound
        refine ⟨(within_iff_of_parent hn hup).mpr (.inr hwithin), hsat, fun x hx hpx => ?_⟩
        rcases (within_iff_of_parent hn hup).mp hx with rfl | hx
        · rw [satisfies_eq hn] at hpx
          exact absurd hpx hpn
        · exact hfirst x hx hpx

/-- A climb that finds nothing has passed no node with the property. -/
theorem not_satisfies_of_nearest? (h : m.nearest? p id = none) (hx : m.Within id x) :
    ¬ m.satisfies p x := by
  induction id using Nat.strongRecOn with
  | ind id ih =>
    intro hpx
    cases hn : m.node? id with
    | none =>
      rcases within_iff.mp hx with rfl | hx
      · obtain ⟨n, hn', -⟩ := exists_of_satisfies hpx
        exact nomatch hn.symm.trans hn'
      · exact absurd (node?_eq_none_iff.mp hn) (Nat.not_le_of_lt hx.lt_size)
    | some n =>
      rw [hm.nearest?_eq hn] at h
      by_cases hpn : p n
      · rw [if_pos hpn] at h
        exact nomatch h
      · rw [if_neg hpn] at h
        cases hup : n.parent with
        | none =>
          obtain rfl := (within_iff_of_parent_eq_none hn hup).mp hx
          rw [satisfies_eq hn] at hpx
          exact hpn hpx
        | some up =>
          rw [hup, Option.bind_some] at h
          rcases (within_iff_of_parent hn hup).mp hx with rfl | hx
          · rw [satisfies_eq hn] at hpx
            exact hpn hpx
          · exact ih up (hm.lt_of_parent hn hup) h hx hpx

theorem nearest?_eq_none_iff : m.nearest? p id = none ↔ ∀ x, m.Within id x → ¬ m.satisfies p x := by
  refine ⟨fun h x hx => hm.not_satisfies_of_nearest? h hx, fun h => ?_⟩
  cases hfound : m.nearest? p id with
  | none => rfl
  | some a =>
    obtain ⟨hwithin, hsat, -⟩ := hm.isNearest_of_nearest? hfound
    exact absurd hsat (h a hwithin)

/-- **`nearest?` finds the nearest node with the property**, and there is only one. -/
theorem nearest?_eq_some_iff : m.nearest? p id = some a ↔ m.IsNearest p id a := by
  refine ⟨hm.isNearest_of_nearest?, fun h => ?_⟩
  cases hfound : m.nearest? p id with
  | none => exact absurd h.satisfies (hm.not_satisfies_of_nearest? hfound h.within)
  | some b =>
    have hb := hm.isNearest_of_nearest? hfound
    have hab := hm.le_of_within (h.first b hb.within hb.satisfies)
    have hba := hm.le_of_within (hb.first a h.within h.satisfies)
    rw [Nat.le_antisymm hba hab]

end Forest

/-! ## Roots -/

/-- In a table that operations build, only logical devices have no parent. -/
theorem Built.isDevice_of_parent_eq_none (h : m.Built) {n : Node} (hn : m.node? id = some n)
    (hp : n.parent = none) : n.kind.isDevice := by
  induction h generalizing id n with
  | empty name => exact absurd (lt_size_of_node? hn) (Nat.not_lt_zero _)
  | withName _ name ih => exact ih hn hp
  | addDevice _ name inst ih =>
    rw [node?_addDevice] at hn
    split at hn
    · cases hn
      rfl
    · exact ih hn hp
  | @addChild m _ parent name kind ih =>
    cases hup : m.node? parent with
    | none => exact ih (by rwa [addChild_of_node?_eq_none name kind hup] at hn) hp
    | some up =>
      rw [node?_addChild hup] at hn
      split at hn
      · cases hn
        exact nomatch hp
      · split at hn
        · cases hn
          have hdevice := ih hup hp
          exact hdevice
        · exact ih hn hp
  | @rename m _ target name ih =>
    rw [node?_rename] at hn
    split at hn
    · obtain ⟨n', hn', rfl⟩ := Option.map_eq_some_iff.mp hn
      have hdevice := ih hn' hp
      exact hdevice
    · exact ih hn hp
  | @setSpace m _ target space ih =>
    rw [node?_setSpace] at hn
    split at hn
    · obtain ⟨n', hn', rfl⟩ := Option.map_eq_some_iff.mp hn
      have hdevice := ih hn' hp
      obtain ⟨inst, old, hkind⟩ := NodeKind.exists_of_isDevice hdevice
      rw [hkind]
      rfl
    · exact ih hn hp
  | @rollback m _ mark ih =>
    rw [node?_rollback] at hn
    split at hn
    · obtain ⟨n', hn', rfl⟩ := Option.map_eq_some_iff.mp hn
      have hdevice := ih hn' hp
      exact hdevice
    · exact nomatch hn

/-- Every node belongs to a logical device. -/
theorem Built.exists_enclosingDevice? (h : m.Built) (hid : id < m.size) :
    ∃ a, m.enclosingDevice? id = some a := by
  obtain ⟨d, hd, hwithin⟩ := h.forest.exists_device hid
  obtain ⟨hlt, hparent⟩ := (h.forest.mem_devices d).mp hd
  obtain ⟨n, hn⟩ := exists_node? hlt
  rw [parent?_eq hn] at hparent
  have hdevice : m.satisfies (·.kind.isDevice) d := by
    rw [satisfies_eq hn, h.isDevice_of_parent_eq_none hn hparent]
  refine Option.ne_none_iff_exists'.mp fun hnone => ?_
  exact h.forest.not_satisfies_of_nearest? hnone hwithin hdevice

/-! ## Data objects below logical nodes -/

section Lawful

variable (hm : m.Lawful)
include hm

/-- Neither a logical device nor a logical node stands in a data object. -/
theorem Lawful.isLogicalNode_eq_false_of_within {d : Nat} (hd : m.satisfies (·.kind.isObject) d)
    (hx : m.Within x d) {n : Node} (hn : m.node? x = some n) :
    n.kind.isDevice = false ∧ n.kind.isLogicalNode = false := by
  induction hx using Relation.ReflTransGen.head_induction_on generalizing n with
  | refl =>
    rw [satisfies_eq hn] at hd
    cases hkind : n.kind with
    | object => exact ⟨rfl, rfl⟩
    | _ =>
      rw [hkind] at hd
      exact nomatch hd
  | @head x up hup _ ih =>
    have hparent : n.parent = some up := by rwa [IsChild, parent?_eq hn] at hup
    obtain ⟨u, hu, hadmits, -⟩ := hm.of_parent_eq_some hn hparent
    exact ⟨hadmits.isDevice_eq_false, hadmits.isLogicalNode_eq_false (ih hu).1⟩

/-- **`topObject?` finds the data object below a logical node that a node lies in.** -/
theorem Lawful.topObject?_eq_some_iff {d : Nat} : m.topObject? x = some d ↔
    m.satisfies (·.kind.isObject) d ∧
      (∃ ln, m.parent? d = some ln ∧ m.satisfies (·.kind.isLogicalNode) ln) ∧ m.Within x d := by
  induction x using Nat.strongRecOn with
  | ind x ih =>
    cases hn : m.node? x with
    | none =>
      rw [topObject?_of_node?_eq_none hn]
      refine ⟨fun h => (nomatch h), fun ⟨hd, _, hx⟩ => ?_⟩
      rcases within_iff.mp hx with rfl | hx
      · obtain ⟨n, hn', -⟩ := exists_of_satisfies hd
        exact nomatch hn.symm.trans hn'
      · exact absurd (node?_eq_none_iff.mp hn) (Nat.not_le_of_lt hx.lt_size)
    | some n =>
      cases hp : n.parent with
      | none =>
        rw [topObject?_of_parent_eq_none hn hp]
        refine ⟨fun h => (nomatch h), fun ⟨_, ⟨ln, hln, _⟩, hx⟩ => ?_⟩
        obtain rfl := (within_iff_of_parent_eq_none hn hp).mp hx
        rw [parent?_eq hn, hp] at hln
        exact nomatch hln
      | some up =>
        have hparent : m.parent? x = some up := by rw [parent?_eq hn, hp]
        obtain ⟨u, hu, hadmits, -⟩ := hm.of_parent_eq_some hn hp
        rw [hm.forest.topObject?_eq hn hp, within_iff_of_parent hn hp, satisfies_eq hu]
        by_cases hk : u.kind.isLogicalNode
        · -- directly below the logical node the climb is at its end
          rw [if_pos hk, if_pos (hadmits.isObject_of_isLogicalNode hk)]
          constructor
          · rintro h
            cases h
            exact ⟨by rw [satisfies_eq hn, hadmits.isObject_of_isLogicalNode hk],
              ⟨up, hparent, by rw [satisfies_eq hu, hk]⟩, .inl rfl⟩
          · rintro ⟨hd, -, rfl | hx⟩
            · rfl
            · rw [(hm.isLogicalNode_eq_false_of_within hd hx hu).2] at hk
              exact Bool.noConfusion hk
        · -- elsewhere what the parent lies in is what the node lies in
          rw [if_neg hk, ih up (hm.forest.lt_of_parent hn hp)]
          refine and_congr_right fun _ => and_congr_right fun ⟨ln, hln, hlnk⟩ => ?_
          refine ⟨.inr, fun h => h.resolve_left ?_⟩
          rintro rfl
          rw [hparent] at hln
          cases hln
          rw [satisfies_eq hu] at hlnk
          exact hk hlnk

end Lawful

end Substation.Model.IedModel

namespace Substation

open Substation.Model

/-- **Going down and going up agree.** In every table that operations build, the walk below a node
ends and visits it in preorder, each node that has it as a proper ancestor once; the climbs to the
logical device and to the logical node end and find the nearest one, and there always is a logical
device. In a resolved model, the climb to a data object finds the one that stands directly below a
logical node and in which the node lies. -/
theorem navigation_agrees :
    (∀ m : IedModel, m.Built → ∀ id < m.size,
      (Walk.Visits m id (m.descendants id) ∧
        m.descendants id = ((m.children id).flatMap fun c => c :: m.descendants c) ∧
        (m.descendants id).Nodup ∧ ∀ x, x ∈ m.descendants id ↔ m.Below x id) ∧
      (Climb.Finds (m.seek (·.kind.isDevice)) id (m.enclosingDevice? id) ∧
        ∃ a, m.enclosingDevice? id = some a ∧ m.IsNearest (·.kind.isDevice) id a) ∧
      (Climb.Finds (m.seek (·.kind.isLogicalNode)) id (m.enclosingNode? id) ∧
        (∀ a, m.enclosingNode? id = some a ↔ m.IsNearest (·.kind.isLogicalNode) id a) ∧
        (m.enclosingNode? id = none ↔
          ∀ a, m.Within id a → ¬ m.satisfies (·.kind.isLogicalNode) a)) ∧
      Climb.Finds m.seekObject id (m.topObject? id)) ∧
    ∀ (d : Document) (ied : String) (ap : Option String) (o : ResolveOptions) (res : Resolution),
      resolve d ied ap o = .ok res → ∀ x top, res.model.topObject? x = some top ↔
        res.model.satisfies (·.kind.isObject) top ∧
          (∃ ln, res.model.parent? top = some ln ∧
            res.model.satisfies (·.kind.isLogicalNode) ln) ∧
          (x = top ∨ x ∈ res.model.descendants top) := by
  refine ⟨fun m hbuilt id hid => ?_, fun d ied ap o res h x top => ?_⟩
  · have hm := hbuilt.forest
    obtain ⟨device, hdevice⟩ := hbuilt.exists_enclosingDevice? hid
    refine ⟨⟨hm.visits_descendants id, hm.descendants_eq id, hm.nodup_descendants id, fun x =>
      hm.mem_descendants_iff⟩, ⟨hm.finds_nearest? _ id, device, hdevice, ?_⟩,
      ⟨hm.finds_nearest? _ id, fun a => hm.nearest?_eq_some_iff, hm.nearest?_eq_none_iff⟩,
      hm.finds_topObject? id⟩
    exact hm.isNearest_of_nearest? hdevice
  · obtain ⟨_, _, -, -, hstage⟩ := Resolution.stage_of_resolve h
    have hm := hstage.lawful
    rw [hm.topObject?_eq_some_iff, hm.forest.mem_descendants_iff, IedModel.within_iff]

/-- Two logical devices whose nodes were added in turns, and a data object below the first one that
was taken back. -/
def interleaved : IedModel :=
  let object : NodeKind := .object 0 ⟨"T", "", [], []⟩ false
  let node : NodeKind := .logicalNode circularNode none
  .run { name := "E" } [.addDevice "LD" "LD", .addChild 0 "LLN0" node, .addChild 1 "Mod" object,
    .addDevice "AUX" "AUX", .addChild 1 "Beh" object, .addChild 4 "q" object, .rollback 5,
    .addChild 3 "LLN0" node, .addChild 2 "sub" object, .rename 1 "LLN1"]

/-- Below node 1 stand the nodes 2, 6 and 4, and node 6 lies in it. In the model of the document
with types in a circle, the attribute lies in the data object. -/
theorem navigation_agrees_interleaved :
    (interleaved.Built ∧ 1 < interleaved.size ∧ Walk.Visits interleaved 1 [2, 6, 4] ∧
      interleaved.Below 6 1 ∧ ¬ interleaved.Below 5 1) ∧
    (6 < interleaved.size ∧ interleaved.IsNearest (·.kind.isDevice) 6 0 ∧
      interleaved.IsNearest (·.kind.isLogicalNode) 6 1) ∧
    ∃ res,
      resolve circularDocument "E" none { maxDepth := 3, checkNamespaces := false } = .ok res ∧
      res.model.topObject? 3 = some 2 := by
  have hbuilt : interleaved.Built := (IedModel.Built.empty "E").run _
  obtain ⟨⟨hvisits, -, -, hbelow⟩, -⟩ :=
    navigation_agrees.1 interleaved hbuilt 1 (by decide +kernel)
  have hdown : interleaved.descendants 1 = [2, 6, 4] := by decide +kernel
  obtain ⟨-, ⟨-, device, hdevice, hnearest⟩, ⟨-, hnode, -⟩, -⟩ :=
    navigation_agrees.1 interleaved hbuilt 6 (by decide +kernel)
  have hup : interleaved.enclosingDevice? 6 = some 0 := by decide +kernel
  obtain rfl := Option.some.inj (hdevice.symm.trans hup)
  rw [hdown] at hvisits hbelow
  refine ⟨⟨hbuilt, by decide +kernel, hvisits, (hbelow 6).mp (by decide),
    fun h => absurd ((hbelow 5).mpr h) (by decide)⟩,
    ⟨by decide +kernel, hnearest, (hnode 1).mp (by decide +kernel)⟩, ?_⟩
  let res := Resolution.ofAccessPoint circularDocument { maxDepth := 3, checkNamespaces := false }
    ⟨"E", none, none, none, [circularPoint]⟩ circularPoint
  have h : resolve circularDocument "E" none { maxDepth := 3, checkNamespaces := false } =
      .ok res := rfl
  refine ⟨res, h, (navigation_agrees.2 _ _ _ _ res h 3 2).mpr
    ⟨by decide +kernel, ⟨1, by decide +kernel, by decide +kernel⟩, .inr (by decide +kernel)⟩⟩

end Substation
