import Mathlib.Data.List.Find
import Mathlib.Order.Bounds.Basic
import Mathlib.Tactic.Common
import Substation.Proofs.BoundReferences
import Substation.Proofs.Contiguity
import Substation.Proofs.Walks

/-!
# Numbers in preorder

A resolution adds a logical device and then its logical nodes one after the other, each with all
that belongs below it, so its table is contiguous (`contiguous_of_resolve`). Hence numbers are given
in preorder (`numbered_in_preorder`), and a search through a subtree in preorder meets the nodes in
the order in which a search through the whole table does: of several nodes of one reference both
find the one of least number.

Results:
* `contiguous_of_resolve` (`resolve_ied`): a table is built block by block;
* `numbered_in_preorder` (`descendants`, `find`): numbers and searches follow the preorder.
-/

namespace Substation.Model

variable {m : IedModel} {x id : Nat}

/-! ## Searching -/

/-- In a list in ascending order, the first element with a property is the least one. -/
theorem find?_eq_some_iff_isLeast {l : List Nat} (hl : l.Pairwise (· < ·)) {p : Nat → Bool} :
    l.find? p = some x ↔ IsLeast {x | x ∈ l ∧ p x} x := by
  have hleast : ∀ y, l.find? p = some y → IsLeast {x | x ∈ l ∧ p x} y := by
    intro y hy
    obtain ⟨hpy, front, back, rfl, hfront⟩ := List.find?_eq_some_iff_append.mp hy
    obtain ⟨-, hback, -⟩ := List.pairwise_append.mp hl
    refine ⟨⟨by simp, hpy⟩, fun z ⟨hz, hpz⟩ => ?_⟩
    rcases List.mem_append.mp hz with hz | hz
    · have hnot := hfront z hz
      rw [hpz] at hnot
      exact Bool.noConfusion hnot
    · rcases List.mem_cons.mp hz with rfl | hz
      · exact Nat.le_refl _
      · exact Nat.le_of_lt ((List.pairwise_cons.mp hback).1 z hz)
  refine ⟨hleast x, fun h => ?_⟩
  obtain ⟨y, hy⟩ : ∃ y, l.find? p = some y :=
    Option.isSome_iff_exists.mp (List.find?_isSome.mpr ⟨x, h.1.1, h.1.2⟩)
  rw [hy, (hleast y hy).unique h]

/-- `find?` finds the first node of a reference. -/
theorem IedModel.find?_eq_some_iff_first {ref : String} : m.find? ref = some x ↔
    (x < m.size ∧ m.ref x = ref) ∧ ∀ y < x, m.ref y ≠ ref := by
  have href : ∀ {i} (hi : i < m.nodes.size), m.ref i = m.nodes[i].ref := fun hi =>
    ref_eq (Array.getElem?_eq_getElem hi)
  rw [find?, Array.findIdx?_eq_some_iff_getElem]
  simp only [decide_eq_true_eq]
  constructor
  · rintro ⟨hlt, hx, hfirst⟩
    refine ⟨⟨hlt, (href hlt).trans hx⟩, fun y hyx hyref => ?_⟩
    exact hfirst y hyx ((href (Nat.lt_trans hyx hlt)).symm.trans hyref)
  · rintro ⟨⟨hlt, hx⟩, hfirst⟩
    refine ⟨hlt, (href hlt).symm.trans hx, fun y hyx hyref => ?_⟩
    exact hfirst y hyx ((href (Nat.lt_trans hyx hlt)).trans hyref)

/-- It is the node of least number. -/
theorem IedModel.find?_eq_some_iff_isLeast {ref : String} :
    m.find? ref = some x ↔ IsLeast {x | x < m.size ∧ m.ref x = ref} x := by
  rw [find?_eq_some_iff_first]
  refine and_congr_right fun ⟨hlt, _⟩ => ?_
  constructor
  · intro hfirst y ⟨_, hyref⟩
    exact Nat.le_of_not_lt fun hyx => hfirst y hyx hyref
  · intro hleast y hyx hyref
    exact Nat.not_le_of_lt hyx (hleast ⟨Nat.lt_trans hyx hlt, hyref⟩)

/-- In a contiguous table a path below a branch is for the attribute of least number that has the
reference of the path. -/
theorem bind?_eq_some_iff_isLeast (hm : m.Lawful) (hcontiguous : m.Contiguous) {b : Branch}
    (hb : b.Stands m) (hdevice : b.node.kind.isDevice = false) (hleaf : b.node.kind.isLeaf = false)
    (names : List String) : (bind? b names).map Branch.id = some x ↔
      IsLeast {x | x ∈ m.descendants b.id ∧ m.satisfies (·.kind.isLeaf) x ∧
        m.ref x = refBelow b names} x := by
  let p : Nat → Bool := fun x => m.satisfies (·.kind.isLeaf) x ∧ m.ref x = refBelow b names
  have hp : ∀ c ∈ b.descendants, decide (b.HasPath names c) = (p ∘ Branch.id) c := by
    intro c hc
    have hn := (hb.of_mem_descendants hc).1.node?
    rw [Function.comp_apply, decide_eq_decide, IedModel.ref_eq hn, IedModel.satisfies, hn]
    exact and_comm
  rw [bind?_eq_find? hm hb hdevice hleaf, List.find?_congr hp, ← List.find?_map,
    ← IedModel.descendants_eq_map hb,
    find?_eq_some_iff_isLeast (hcontiguous.pairwise_descendants hm.forest b.id)]
  simp only [p, decide_eq_true_eq]

end Substation.Model

/-! ## Resolution -/

namespace Substation.Resolution

open Substation.Config
open Substation.Journal
open Substation.Model
open Substation.Template

variable {r : Registry} {names : List String}

theorem Respaced.size {m m' : IedModel} (h : Respaced m m') : m'.size = m.size := by
  induction h with
  | refl => rfl
  | step _ target space ih => rw [IedModel.size_setSpace, ih]

theorem Respaced.parent? {m m' : IedModel} (h : Respaced m m') (id : Nat) :
    m'.parent? id = m.parent? id := by
  induction h with
  | refl => rfl
  | step _ target space ih => rw [(IedModel.links_setSpace target space id).2, ih]

/-- Adding a logical node to the last logical device keeps the table contiguous. -/
theorem contiguous_addNode (o : ResolveOptions) (subject : Subject) (inst : String) {g : Growth}
    (hm : g.model.Forest) {device : Nat} {d : Node} (hd : g.model.node? device = some d)
    (config : LogicalNode) (h : g.model.Contiguous ∧ g.model.Open device) :
    (addNode r o subject inst device g config).model.Contiguous ∧
      (addNode r o subject inst device g config).model.Open device := by
  have hgrown := h.1.plant (IedModel.lt_size_of_node? hd) h.2 (nodeSprout r o.maxDepth o.maxDepth
    (d.ref ++ d.kind.separator ++ config.name) config)
  have hrespaced := respaced_addNode (r := r) o subject inst hm hd config
  exact ⟨hgrown.contiguous.congr hrespaced.parent?,
    hgrown.stillOpen.congr hrespaced.size hrespaced.parent?⟩

theorem contiguous_addDevices (o : ResolveOptions) (subject : Subject)
    (devices : List LogicalDevice) {g : Growth} (hstage : Stage r o.maxDepth names g.model)
    (h : g.model.Contiguous) : (devices.foldl (addDevice r o subject) g).model.Contiguous := by
  induction devices generalizing names g with
  | nil => exact h
  | cons d devices ih =>
    let name := deviceName subject.ied d
    -- the new logical device is open until the next one
    have hstart : (g.model.addDevice name d.inst).Contiguous ∧
        (g.model.addDevice name d.inst).Open g.model.size :=
      ⟨h.addDevice name d.inst, IedModel.open_addDevice name d.inst⟩
    obtain ⟨hbuilt, -, hnext, -⟩ := addNodes_induction o subject d.inst rfl
      (Q := fun g' => g'.model.Contiguous ∧ g'.model.Open g.model.size)
      (fun g' up config hm hup _ hg => contiguous_addNode o subject d.inst hm.forest hup config hg)
      d.logicalNodes (g := g.onModel (·.addDevice name d.inst))
      (face?_addDevice_size g.model name d.inst) (hstage.device name d.inst) hstart
    exact ih hbuilt hnext

/-- **The table of a resolution is contiguous.** -/
theorem contiguous_of_resolve {d : Document} {ied : String} {ap : Option String}
    {o : ResolveOptions} {res : Resolution} (h : resolve d ied ap o = .ok res) :
    res.model.Contiguous := by
  obtain ⟨i, a, -, -, rfl⟩ := exists_of_resolve h
  rw [model_ofAccessPoint]
  exact contiguous_addDevices o ⟨i.name, a.name⟩ a.devices (.empty i.name) (.empty i.name)

end Substation.Resolution

namespace Substation

open Substation.Config
open Substation.Model
open Substation.Resolution
open Substation.Template

/-- **Numbers are given in preorder.** In a resolved model, whatever was taken back on the way, the
walk below a node visits the numbers behind its own, one by one; each logical device with what
stands below it is a block of the table, and the blocks follow one another. So of several nodes of
one reference the search through the table and the search below a logical node find the one of least
number, and what the former finds among the attributes there is what the latter finds. -/
theorem numbered_in_preorder {d : Document} {ied : String} {ap : Option String}
    {o : ResolveOptions} {res : Resolution} (h : resolve d ied ap o = .ok res) :
    (∀ id < res.model.size, ∃ k, res.model.descendants id = List.range' (id + 1) k ∧
      Walk.Visits res.model id (List.range' (id + 1) k)) ∧
    (res.model.devices.flatMap fun d => d :: res.model.descendants d) =
      List.range res.model.size ∧
    (∀ ref x, res.model.find? ref = some x ↔
      IsLeast {x | x < res.model.size ∧ res.model.ref x = ref} x) ∧
    ∀ id ln, res.model.branch? id = some ln → ln.node.kind.isLogicalNode → ∀ names,
      (∀ x, (bind? ln names).map Branch.id = some x ↔
        IsLeast {x | x ∈ res.model.descendants id ∧ res.model.satisfies (·.kind.isLeaf) x ∧
          res.model.ref x = refBelow ln names} x) ∧
      ∀ x ∈ res.model.descendants id, res.model.satisfies (·.kind.isLeaf) x →
        res.model.find? (refBelow ln names) = some x →
          (bind? ln names).map Branch.id = some x := by
  obtain ⟨_, _, -, -, hstage⟩ := stage_of_resolve h
  have hm := hstage.lawful
  have hcontiguous := contiguous_of_resolve h
  refine ⟨fun id _ => ⟨_, hcontiguous.descendants_eq_range' hm.forest id, ?_⟩,
    hcontiguous.flatMap_devices hm.forest, fun ref x => IedModel.find?_eq_some_iff_isLeast, ?_⟩
  · rw [← hcontiguous.descendants_eq_range' hm.forest id]
    exact hm.forest.visits_descendants id
  · intro id ln hln hk names
    obtain ⟨hstands, rfl⟩ := (Branch.branch?_eq_some_iff hm.forest).mp hln
    have hleaf : ln.node.kind.isLeaf = false := by
      obtain ⟨config, space, hkind⟩ := NodeKind.exists_of_isLogicalNode hk
      rw [hkind]
      rfl
    have hbind := fun x => bind?_eq_some_iff_isLeast (x := x) hm hcontiguous hstands
      (NodeKind.isDevice_eq_false hk) hleaf names
    refine ⟨hbind, fun x hx hxleaf hfind => ?_⟩
    -- the least one of all is the least one below the logical node
    obtain ⟨⟨-, href⟩, hleast⟩ := IedModel.find?_eq_some_iff_isLeast.mp hfind
    refine (hbind x).mpr ⟨⟨hx, hxleaf, href⟩, fun y ⟨hy, _, hyref⟩ => hleast ⟨?_, hyref⟩⟩
    exact (hm.forest.mem_descendants_iff.mp hy).lt_size

/-- The types of `dottedTypes`, and a data object whose type refers to itself. -/
def dottedCircle : Registry :=
  { dottedTypes with
    nodeTypes := ⟨[("L", ⟨"L", "LLN0", [⟨"Loop", "C", 0, false⟩, ⟨"Mod", "M", 0, false⟩]⟩)]⟩
    objectTypes := ⟨("C", ⟨"C", "WYE", [⟨"sub", "C", 0, false⟩], []⟩) ::
      dottedTypes.objectTypes.entries⟩ }

/-- An access point with two logical devices that have a logical node of these types each. -/
def twoDevicePoint : AccessPoint :=
  ⟨"A", some ⟨[⟨"LD", none, none, some nestedNode, []⟩, ⟨"AUX", none, none, some nestedNode, []⟩]⟩⟩

/-- A document with that access point. -/
def twoDeviceDocument : Document :=
  ⟨⟨none, none, none, none, none, [⟨"E", none, none, none, [twoDevicePoint]⟩], none⟩,
    dottedCircle, []⟩

/-- The data object `Loop` is taken back twice. Behind the second logical node, 7, come 8 to 11, of
which 9 and 11 have one reference. -/
theorem numbered_in_preorder_twice : ∃ res ln,
    resolve twoDeviceDocument "E" none { maxDepth := 3, checkNamespaces := false } = .ok res ∧
      Walk.Visits res.model 7 [8, 9, 10, 11] ∧
      (res.model.devices.flatMap fun d => d :: res.model.descendants d) = List.range 12 ∧
      res.model.branch? 7 = some ln ∧ ln.node.kind.isLogicalNode ∧
      res.model.ref 9 = res.model.ref 11 ∧ res.model.find? (res.model.ref 11) = some 9 ∧
      (bind? ln ["Mod", "origin", "q"]).map Branch.id = some 9 := by
  let res := ofAccessPoint twoDeviceDocument { maxDepth := 3, checkNamespaces := false }
    ⟨"E", none, none, none, [twoDevicePoint]⟩ twoDevicePoint
  have h : resolve twoDeviceDocument "E" none { maxDepth := 3, checkNamespaces := false } =
      .ok res := rfl
  obtain ⟨hdescendants, hblocks, -, hbind⟩ := numbered_in_preorder h
  have hsize : res.model.size = 12 := by decide +kernel
  obtain ⟨k, hk, hvisits⟩ := hdescendants 7 (by rw [hsize]; decide)
  have hlength : k = 4 := by
    have hcount : (List.range' 8 k).length = k := List.length_range'
    rw [← hcount, ← hk]
    decide +kernel
  subst hlength
  rw [hsize] at hblocks
  have hcheck : (res.model.branch? 7).any fun ln => ln.node.kind.isLogicalNode ∧
      res.model.ref 11 = refBelow ln ["Mod", "origin", "q"] := by
    decide +kernel
  obtain ⟨ln, hln, hcheck⟩ := (Option.any_eq_true _ _).mp hcheck
  obtain ⟨hkind, href⟩ := of_decide_eq_true hcheck
  have hfind : res.model.find? (res.model.ref 11) = some 9 := by decide +kernel
  refine ⟨res, ln, h, hvisits, hblocks, hln, hkind, by decide +kernel, hfind, ?_⟩
  exact (hbind 7 ln hln hkind _).2 9 (by rw [hk]; decide) (by decide +kernel) (href ▸ hfind)

end Substation
