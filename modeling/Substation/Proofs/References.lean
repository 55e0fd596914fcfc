import Mathlib.Data.List.Nodup
import Mathlib.Tactic.Common
import Substation.Proofs.Names
import Substation.Proofs.Stages

/-!
# References

In a resolved model the reference of a node follows from the names above it. If names tell siblings
apart and do not hold the separators (`Distinct`), a reference leads back to its node.

Results:
* `Lawful.ref_inj`: two nodes of one reference are the same;
* `resolve_refs` (`resolve_ied`, `find`): the references of a resolved model, and what `find?`
  answers to them.
-/

namespace Substation.Model

theorem NodeKind.separator_of_isDevice {kind : NodeKind} (h : kind.isDevice = true) :
    kind.separator = "/" := by
  cases kind with
  | device => rfl
  | _ => exact absurd h (by simp [isDevice])

theorem NodeKind.separator_of_not_isDevice {kind : NodeKind} (h : kind.isDevice = false) :
    kind.separator = "." := by
  cases kind with
  | device => exact absurd h (by simp [isDevice])
  | _ => rfl

namespace IedModel

/-- The name of a node. -/
def nameOf (m : IedModel) (id : Nat) : String := ((m.node? id).map Node.name).getD ""

/-- Names that tell the nodes apart: the logical devices have names of their own, without a slash;
nodes below one node have names of their own; and no name below a logical device holds a dot. -/
structure Distinct (m : IedModel) : Prop where
  devices : (m.devices.map m.nameOf).Nodup
  slash : ∀ d ∈ m.devices, '/' ∉ (m.nameOf d).toList
  siblings : ∀ p, ((m.children p).map m.nameOf).Nodup
  dot : ∀ id, m.parent? id ≠ none → '.' ∉ (m.nameOf id).toList

variable {m : IedModel}

/-- Only numbers of nodes matter. -/
theorem distinct_iff : m.Distinct ↔ (m.devices.map m.nameOf).Nodup ∧
    (∀ d ∈ m.devices, '/' ∉ (m.nameOf d).toList) ∧
    (∀ p < m.size, ((m.children p).map m.nameOf).Nodup) ∧
    ∀ id < m.size, m.parent? id ≠ none → '.' ∉ (m.nameOf id).toList := by
  constructor
  · exact fun h => ⟨h.devices, h.slash, fun p _ => h.siblings p, fun id _ => h.dot id⟩
  · rintro ⟨hdevices, hslash, hsiblings, hdot⟩
    refine ⟨hdevices, hslash, fun p => ?_, fun id => ?_⟩
    · by_cases hp : p < m.size
      · exact hsiblings p hp
      · rw [children_of_size_le (Nat.le_of_not_lt hp)]
        exact List.nodup_nil
    · by_cases hid : id < m.size
      · exact hdot id hid
      · exact fun hne => absurd (parent?_of_size_le (Nat.le_of_not_lt hid)) hne

instance : Decidable m.Distinct := decidable_of_iff _ distinct_iff.symm

theorem nameOf_eq {id : Nat} {n : Node} (h : m.node? id = some n) : m.nameOf id = n.name := by
  rw [nameOf, h]
  rfl

theorem parent?_eq {id : Nat} {n : Node} (h : m.node? id = some n) : m.parent? id = n.parent := by
  rw [parent?, h]
  rfl

namespace Lawful

variable (h : m.Lawful)
include h

/-- A node without a parent is a logical device, and its reference is its name. -/
theorem of_parent_eq_none {id : Nat} {n : Node} (hn : m.node? id = some n)
    (hp : n.parent = none) : id ∈ m.devices ∧ n.kind.isDevice ∧ n.ref = n.name := by
  obtain ⟨hk, href⟩ := h.top (face?_of_node? hn) hp
  refine ⟨(h.forest.mem_devices id).mpr ⟨lt_size_of_node? hn, by rw [parent?_eq hn, hp]⟩, ?_, href⟩
  simpa [Node.face] using hk

/-- Any other node has a parent that admits it, whose reference its own one continues. -/
theorem of_parent_eq_some {id p : Nat} {n : Node} (hn : m.node? id = some n)
    (hp : n.parent = some p) : ∃ up, m.node? p = some up ∧ up.kind.Admits n.kind ∧
      n.ref = up.ref ++ up.kind.separator ++ n.name := by
  obtain ⟨f, hf, hk, href⟩ := h.below (face?_of_node? hn) hp
  obtain ⟨up, hup, rfl⟩ := node?_of_face? hf
  refine ⟨up, hup, NodeKind.admits_bare.mp hk, ?_⟩
  simpa [Node.face] using href

theorem parent_eq_none_iff {id : Nat} {n : Node} (hn : m.node? id = some n) :
    n.parent = none ↔ n.kind.isDevice := by
  cases hp : n.parent with
  | none => simp [(h.of_parent_eq_none hn hp).2.1]
  | some p =>
    obtain ⟨up, -, hk, -⟩ := h.of_parent_eq_some hn hp
    simp [hk.isDevice_eq_false]

variable (hd : m.Distinct)
include hd

theorem slash_not_mem_ref {id : Nat} {n : Node} (hn : m.node? id = some n)
    (hp : n.parent = none) : '/' ∉ n.ref.toList := by
  obtain ⟨hmem, -, href⟩ := h.of_parent_eq_none hn hp
  rw [href, ← nameOf_eq hn]
  exact hd.slash id hmem

/-- The reference of a node below a logical device holds a slash. -/
theorem exists_slash {id p : Nat} {n : Node} (hn : m.node? id = some n) (hp : n.parent = some p) :
    ∃ d rest, '/' ∉ d ∧ n.ref.toList = d ++ '/' :: rest := by
  induction id using Nat.strongRecOn generalizing n p with
  | ind id ih =>
    obtain ⟨up, hup, -, href⟩ := h.of_parent_eq_some hn hp
    cases hpp : up.parent with
    | none =>
      have hk := (h.parent_eq_none_iff hup).mp hpp
      refine ⟨up.ref.toList, n.name.toList, h.slash_not_mem_ref hd hup hpp, ?_⟩
      rw [href, NodeKind.separator_of_isDevice hk]
      simp
    | some q =>
      have hlt : p < id := h.forest.parent_lt (by rw [parent?_eq hn, hp])
      obtain ⟨d, rest, hslash, hrest⟩ := ih p hlt hup hpp
      refine ⟨d, rest ++ up.kind.separator.toList ++ n.name.toList, hslash, ?_⟩
      rw [href]
      simp [hrest]

theorem ref_ne_of_parent {i j q : Nat} {n n' : Node} (hn : m.node? i = some n)
    (hn' : m.node? j = some n') (hp : n.parent = none) (hp' : n'.parent = some q) :
    n.ref ≠ n'.ref := by
  intro href
  obtain ⟨d, rest, -, hrest⟩ := h.exists_slash hd hn' hp'
  apply h.slash_not_mem_ref hd hn hp
  rw [href, hrest]
  exact List.mem_append_right d List.mem_cons_self

/-- A logical node and a node further down do not have one reference: only the latter has a dot
behind the first slash. -/
theorem ref_ne_of_isDevice {up up' n n' : Node} {p q : Nat} (hup : m.node? p = some up)
    (hup' : m.node? q = some up') (hk : up.kind.isDevice = true) (hk' : up'.kind.isDevice = false)
    (href : n.ref = up.ref ++ up.kind.separator ++ n.name)
    (href' : n'.ref = up'.ref ++ up'.kind.separator ++ n'.name) (hdot : '.' ∉ n.name.toList) :
    n.ref ≠ n'.ref := by
  intro heq
  cases hp : up'.parent with
  | none => exact absurd ((h.parent_eq_none_iff hup').mp hp) (by simp [hk'])
  | some o =>
    obtain ⟨d, rest, hslash, hrest⟩ := h.exists_slash hd hup' hp
    have htop := (h.parent_eq_none_iff hup).mpr hk
    rw [href, href', NodeKind.separator_of_isDevice hk, NodeKind.separator_of_not_isDevice hk',
      ← String.toList_inj] at heq
    simp only [String.toList_append, hrest, List.append_assoc, List.cons_append] at heq
    obtain ⟨-, hname⟩ := Text.append_cons_inj_left (h.slash_not_mem_ref hd hup htop) hslash heq
    apply hdot
    rw [show n.name.toList = _ from hname]
    simp

/-- Two nodes of one reference have parents of one reference and have one name. -/
theorem parts_of_ref_eq {i j p q : Nat} {n n' up up' : Node} (hn : m.node? i = some n)
    (hn' : m.node? j = some n') (hp : n.parent = some p) (hp' : n'.parent = some q)
    (hup : m.node? p = some up) (hup' : m.node? q = some up') (heq : n.ref = n'.ref) :
    up.ref = up'.ref ∧ n.name = n'.name := by
  obtain ⟨_, hup₁, -, href⟩ := h.of_parent_eq_some hn hp
  obtain ⟨_, hup₂, -, href'⟩ := h.of_parent_eq_some hn' hp'
  rw [hup] at hup₁
  rw [hup'] at hup₂
  cases hup₁
  cases hup₂
  have hdot : '.' ∉ n.name.toList :=
    nameOf_eq hn ▸ hd.dot i (by rw [parent?_eq hn, hp]; exact Option.some_ne_none p)
  have hdot' : '.' ∉ n'.name.toList :=
    nameOf_eq hn' ▸ hd.dot j (by rw [parent?_eq hn', hp']; exact Option.some_ne_none q)
  cases hk : up.kind.isDevice with
  | true =>
    cases hk' : up'.kind.isDevice with
    | false => exact absurd heq (h.ref_ne_of_isDevice hd hup hup' hk hk' href href' hdot)
    | true =>
      have htop := (h.parent_eq_none_iff hup).mpr hk
      have htop' := (h.parent_eq_none_iff hup').mpr hk'
      rw [href, href', NodeKind.separator_of_isDevice hk, NodeKind.separator_of_isDevice hk',
        ← String.toList_inj] at heq
      simp only [String.toList_append, List.append_assoc] at heq
      obtain ⟨hpar, hname⟩ := Text.append_cons_inj_left (h.slash_not_mem_ref hd hup htop)
        (h.slash_not_mem_ref hd hup' htop') heq
      exact ⟨String.toList_inj.mp hpar, String.toList_inj.mp hname⟩
  | false =>
    cases hk' : up'.kind.isDevice with
    | true => exact absurd heq.symm (h.ref_ne_of_isDevice hd hup' hup hk' hk href' href hdot')
    | false =>
      rw [href, href', NodeKind.separator_of_not_isDevice hk,
        NodeKind.separator_of_not_isDevice hk', ← String.toList_inj] at heq
      simp only [String.toList_append, List.append_assoc] at heq
      obtain ⟨hpar, hname⟩ := Text.append_cons_inj_right hdot hdot' heq
      exact ⟨String.toList_inj.mp hpar, String.toList_inj.mp hname⟩

/-- **References tell the nodes apart.** -/
theorem ref_inj {i j : Nat} {n n' : Node} (hn : m.node? i = some n) (hn' : m.node? j = some n')
    (heq : n.ref = n'.ref) : i = j := by
  induction i using Nat.strongRecOn generalizing j n n' with
  | ind i ih =>
    cases hp : n.parent with
    | none =>
      cases hp' : n'.parent with
      | some q => exact absurd heq (h.ref_ne_of_parent hd hn hn' hp hp')
      | none =>
        obtain ⟨hi, -, href⟩ := h.of_parent_eq_none hn hp
        obtain ⟨hj, -, href'⟩ := h.of_parent_eq_none hn' hp'
        refine List.inj_on_of_nodup_map hd.devices hi hj ?_
        rw [nameOf_eq hn, nameOf_eq hn', ← href, ← href', heq]
    | some p =>
      cases hp' : n'.parent with
      | none => exact absurd heq.symm (h.ref_ne_of_parent hd hn' hn hp' hp)
      | some q =>
        obtain ⟨up, hup, -, -⟩ := h.of_parent_eq_some hn hp
        obtain ⟨up', hup', -, -⟩ := h.of_parent_eq_some hn' hp'
        obtain ⟨hpar, hname⟩ := h.parts_of_ref_eq hd hn hn' hp hp' hup hup' heq
        have hi : m.parent? i = some p := by rw [parent?_eq hn, hp]
        have hj : m.parent? j = some q := by rw [parent?_eq hn', hp']
        obtain rfl := ih p (h.forest.parent_lt hi) hup hup' hpar
        refine List.inj_on_of_nodup_map (hd.siblings p) ((h.forest.mem_children p i).mpr hi)
          ((h.forest.mem_children p j).mpr hj) ?_
        rw [nameOf_eq hn, nameOf_eq hn', hname]

/-- A reference leads back to its node. -/
theorem find?_ref {id : Nat} {n : Node} (hn : m.node? id = some n) : m.find? n.ref = some id := by
  obtain ⟨hlt, hget⟩ := Array.getElem?_eq_some_iff.mp hn
  rw [find?, Array.findIdx?_eq_some_iff_getElem]
  refine ⟨hlt, by simp [hget], fun j hj heq => ?_⟩
  have hsize : j < m.size := Nat.lt_trans hj hlt
  obtain ⟨n', hn'⟩ := exists_node? hsize
  obtain ⟨_, hget'⟩ := Array.getElem?_eq_some_iff.mp hn'
  rw [hget'] at heq
  exact Nat.ne_of_lt hj (h.ref_inj hd hn' hn (of_decide_eq_true heq))

end Lawful

end IedModel

/-! ## Branches of a lawful table -/

namespace Branch

variable {m : IedModel} {b c : Branch}

theorem Stands.parent_of_mem (hm : m.Lawful) (hb : b.Stands m) (hc : c ∈ b.branches) :
    c.node.parent = some b.id := by
  have hmem : c.id ∈ m.children b.id := by
    rw [IedModel.children_eq hb.node?, hb.children]
    exact List.mem_map_of_mem hc
  rw [← IedModel.parent?_eq (hb.of_mem hc).node?]
  exact (hm.forest.mem_children b.id c.id).mp hmem

/-- Whatever is no logical device stands directly below another branch. -/
theorem Stands.exists_above (hm : m.Lawful) (hb : b.Stands m) (hk : b.node.kind.isDevice = false) :
    ∃ up : Branch, up.Stands m ∧ b ∈ up.branches := by
  cases hp : b.node.parent with
  | none =>
    rw [(hm.parent_eq_none_iff hb.node?).mp hp] at hk
    exact Bool.noConfusion hk
  | some p =>
    have hparent : m.parent? b.id = some p := by rw [IedModel.parent?_eq hb.node?, hp]
    have hchild := (hm.forest.mem_children p b.id).mpr hparent
    obtain ⟨up, hup, rfl⟩ := exists_stands hm.forest
      (Nat.lt_trans (hm.forest.parent_lt hparent) (IedModel.lt_size_of_node? hb.node?))
    rw [IedModel.children_eq hup.node?, hup.children] at hchild
    obtain ⟨c, hc, hid⟩ := List.mem_map.mp hchild
    obtain rfl := (hup.of_mem hc).unique hb hid
    exact ⟨up, hup, hc⟩

theorem Stands.law_of_mem (hm : m.Lawful) (hb : b.Stands m) (hc : c ∈ b.branches) :
    b.node.kind.Admits c.node.kind ∧ c.ref = b.ref ++ b.node.kind.separator ++ c.name := by
  obtain ⟨up, hup, hk, href⟩ :=
    hm.of_parent_eq_some (hb.of_mem hc).node? (hb.parent_of_mem hm hc)
  rw [hb.node?] at hup
  cases hup
  exact ⟨hk, href⟩

end Branch

end Substation.Model

namespace Substation

open Substation.Config
open Substation.Model
open Substation.Resolution

/-- **References of a resolved model.** The logical devices are those of the access point, in order,
and their references are their names; any other node continues the reference of its parent. If
names tell the nodes apart, so do the references, and `find?` leads from each one to its node. -/
theorem resolve_refs {d : Document} {ied : String} {ap : Option String} {o : ResolveOptions}
    {res : Resolution} (h : resolve d ied ap o = .ok res) :
    (∃ i a, d.ied? ied = some i ∧ accessPoint? i ap = some a ∧
      res.model.devices.map res.model.ref = a.devices.map (deviceName i.name)) ∧
    (∀ id n, res.model.node? id = some n → match n.parent with
      | none => id ∈ res.model.devices ∧ n.ref = n.name
      | some p => ∃ up, res.model.node? p = some up ∧
        n.ref = up.ref ++ (if up.kind.isDevice then "/" else ".") ++ n.name) ∧
    (res.model.Distinct →
      (∀ i j n n', res.model.node? i = some n → res.model.node? j = some n' → i ≠ j →
        n.ref ≠ n'.ref) ∧
      ∀ id n, res.model.node? id = some n → res.model.find? n.ref = some id) := by
  obtain ⟨i, a, hi, ha, hstage⟩ := stage_of_resolve h
  have hlaw := hstage.lawful
  refine ⟨⟨i, a, hi, ha, hstage.devices_map_ref⟩, fun id n hn => ?_, fun hd => ⟨?_, ?_⟩⟩
  · cases hp : n.parent with
    | none =>
      obtain ⟨hmem, -, href⟩ := hlaw.of_parent_eq_none hn hp
      exact ⟨hmem, href⟩
    | some p =>
      obtain ⟨up, hup, -, href⟩ := hlaw.of_parent_eq_some hn hp
      refine ⟨up, hup, ?_⟩
      cases hk : up.kind.isDevice with
      | true => rwa [NodeKind.separator_of_isDevice hk] at href
      | false => rwa [NodeKind.separator_of_not_isDevice hk] at href
  · exact fun i j n n' hn hn' hne heq => hne (hlaw.ref_inj hd hn hn' heq)
  · exact fun id n hn => hlaw.find?_ref hd hn

/-- An access point with the logical node of `circular` types. -/
def circularPoint : AccessPoint := ⟨"A", some ⟨[⟨"LD", none, none, some circularNode, []⟩]⟩⟩

/-- A document with that access point. -/
def circularDocument : Document :=
  ⟨⟨none, none, none, none, none, [⟨"E", none, none, none, [circularPoint]⟩], none⟩, circular, []⟩

/-- In its model, the reference of the attribute leads to node 3. -/
theorem resolve_refs_circular : ∃ res,
    resolve circularDocument "E" none { maxDepth := 3, checkNamespaces := false } = .ok res ∧
      res.model.Distinct ∧ res.model.devices.map res.model.ref = ["ELD"] ∧
      res.model.find? "ELD/LLN0.Mod.q" = some 3 := by
  let res := ofAccessPoint circularDocument { maxDepth := 3, checkNamespaces := false }
    ⟨"E", none, none, none, [circularPoint]⟩ circularPoint
  have h : resolve circularDocument "E" none { maxDepth := 3, checkNamespaces := false } =
      .ok res := rfl
  have hd : res.model.Distinct := by decide +kernel
  obtain ⟨⟨i, a, hi, ha, hdevices⟩, -, hrefs⟩ := resolve_refs h
  obtain ⟨n, hn⟩ := IedModel.exists_node? (show 3 < res.model.size by decide +kernel)
  have href : n.ref = "ELD/LLN0.Mod.q" :=
    (IedModel.ref_eq hn).symm.trans (show res.model.ref 3 = _ by decide +kernel)
  cases hi
  cases ha
  exact ⟨res, h, hd, hdevices, href ▸ (hrefs hd).2 3 n hn⟩

end Substation
