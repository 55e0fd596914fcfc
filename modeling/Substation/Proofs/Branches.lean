import Mathlib.Data.List.Basic
import Mathlib.Tactic.Common
import Substation.Model.Branch
import Substation.Proofs.Names
import Substation.Proofs.Table

/-!
# Branches and the table

A branch stands in a table (`Branch.Stands`) when every node of it is found under its number and
lists the nodes below it. That is what `branch?` cuts out: in a forest `branch?` finds exactly the
branches that stand in the table (`branch?_eq_some_iff`).

`Branch.Reaches b names c` says that the names lead from `b` down to `c`. Everything in a branch is
reached by some names (`mem_preorder_iff`), and `walk?` follows names where siblings differ in
theirs (`walk?_eq_some_iff`).
-/

namespace Substation.Model

/-- Every node of the branch stands in the table, with the links to the nodes below it. -/
inductive Branch.Stands (m : IedModel) : Branch → Prop
  | mk {id : Nat} {node : Node} {branches : List Branch} (hn : m.node? id = some node)
      (hc : node.children = branches.map Branch.id) (hlt : ∀ b ∈ branches, id < b.id)
      (hb : ∀ b ∈ branches, b.Stands m) : Stands m (.mk id node branches)

namespace Branch

variable {m m' : IedModel} {b c : Branch}

theorem mem_preorder : c ∈ b.preorder ↔ c = b ∨ c ∈ b.descendants := by
  cases b
  rw [preorder, List.mem_cons]
  rfl

theorem mem_preorderAll {bs : List Branch} : c ∈ preorderAll bs ↔ ∃ b ∈ bs, c ∈ b.preorder := by
  induction bs with
  | nil => simp [preorderAll]
  | cons b bs ih => simp [preorderAll, ih]

theorem mem_descendants : c ∈ b.descendants ↔ ∃ d ∈ b.branches, c ∈ d.preorder :=
  mem_preorderAll

theorem self_mem_preorder (b : Branch) : b ∈ b.preorder := mem_preorder.mpr (Or.inl rfl)

theorem mem_preorder_of_mem_branches {d : Branch} (hd : d ∈ b.branches) (hc : c ∈ d.preorder) :
    c ∈ b.preorder :=
  mem_preorder.mpr (Or.inr (mem_descendants.mpr ⟨d, hd, hc⟩))

namespace Stands

theorem node? (h : b.Stands m) : m.node? b.id = some b.node := by
  cases h with
  | mk hn => exact hn

theorem children (h : b.Stands m) : b.node.children = b.branches.map Branch.id := by
  cases h with
  | mk _ hc => exact hc

theorem id_lt (h : b.Stands m) (hc : c ∈ b.branches) : b.id < c.id := by
  cases h with
  | mk _ _ hlt => exact hlt c hc

theorem nodup_branches (h : b.Stands m) (hm : m.Forest) : b.branches.Nodup := by
  have hsorted := hm.children_sorted b.id
  rw [IedModel.children_eq h.node?, h.children] at hsorted
  exact List.Nodup.of_map Branch.id (hsorted.imp Nat.ne_of_lt)

theorem of_mem (h : b.Stands m) (hc : c ∈ b.branches) : c.Stands m := by
  cases h with
  | mk _ _ _ hb => exact hb c hc

/-- A branch still stands after a change that leaves the nodes from its number on alone. -/
theorem frame (h : b.Stands m)
    (hm : ∀ id, b.id ≤ id → id < m.size → m'.node? id = m.node? id) : b.Stands m' := by
  induction h with
  | @mk id node branches hn hc hlt hb ih =>
    refine .mk ?_ hc hlt fun d hd => ih d hd fun i hi => hm i ?_
    · rw [hm id (Nat.le_refl _) (IedModel.lt_size_of_node? hn), hn]
    · exact Nat.le_of_lt (Nat.lt_of_lt_of_le (hlt d hd) hi)

/-- `branch?` cuts a standing branch out of the table. -/
theorem branch? (h : b.Stands m) : m.branch? b.id = some b := by
  induction h with
  | @mk id node branches hn hc hlt hb ih =>
    show m.branch? id = _
    rw [IedModel.branch?]
    split
    · rename_i hnone
      rw [hn] at hnone
      exact absurd hnone (by simp)
    · rename_i n hsome
      rw [hn] at hsome
      cases hsome
      have hfilter : node.children.filter (id < ·) = branches.map Branch.id := by
        rw [hc, List.filter_eq_self]
        intro c hc
        obtain ⟨d, hd, rfl⟩ := List.mem_map.mp hc
        exact decide_eq_true (hlt d hd)
      have hbranches : (branches.map Branch.id).filterMap m.branch? = branches := by
        rw [List.filterMap_map, List.filterMap_congr (f := m.branch? ∘ Branch.id) (g := some) ih,
          List.filterMap_some]
      rw [List.filterMap_subtype (g := m.branch?) (fun _ _ => rfl), List.unattach_attach, hfilter,
        hbranches]

/-- A table has at most one standing branch of a number. -/
theorem unique (h : b.Stands m) (h' : c.Stands m) (hid : b.id = c.id) : b = c := by
  have hb := h.branch?
  rw [hid, h'.branch?] at hb
  exact (Option.some.inj hb).symm

/-- Everything in a standing branch stands, and is numbered after its top. -/
theorem of_mem_preorder (h : b.Stands m) : ∀ c ∈ b.preorder, c.Stands m ∧ b.id ≤ c.id := by
  induction h with
  | @mk id node branches hn hc hlt hb ih =>
    intro c hmem
    rw [preorder] at hmem
    rcases List.mem_cons.mp hmem with rfl | hmem
    · exact ⟨.mk hn hc hlt hb, Nat.le_refl _⟩
    · obtain ⟨d, hd, hcd⟩ := mem_preorderAll.mp hmem
      obtain ⟨hs, hle⟩ := ih d hd c hcd
      exact ⟨hs, Nat.le_trans (Nat.le_of_lt (hlt d hd)) hle⟩

/-- Everything below a standing branch stands, and is numbered after its top. -/
theorem of_mem_descendants (h : b.Stands m) (hc : c ∈ b.descendants) :
    c.Stands m ∧ b.id < c.id := by
  obtain ⟨d, hd, hc⟩ := mem_descendants.mp hc
  obtain ⟨hcs, hle⟩ := (h.of_mem hd).of_mem_preorder c hc
  exact ⟨hcs, Nat.lt_of_lt_of_le (h.id_lt hd) hle⟩

end Stands

/-! ## Branches of a forest -/

/-- Every node of a forest is the top of a standing branch. -/
theorem exists_stands (hm : m.Forest) {id : Nat} (hid : id < m.size) :
    ∃ b : Branch, b.Stands m ∧ b.id = id := by
  -- the nodes below have greater numbers, so the induction is on how many numbers are left
  induction hk : m.size - id using Nat.strongRecOn generalizing id with
  | ind k ih =>
    obtain ⟨n, hn⟩ := IedModel.exists_node? hid
    have hlt : ∀ c ∈ n.children, id < c ∧ c < m.size := by
      intro c hc
      rw [← IedModel.children_eq hn] at hc
      exact ⟨hm.lt_of_mem_children hc, hm.lt_size_of_mem_children hc⟩
    have hbelow : ∀ c ∈ n.children, ∃ b : Branch, b.Stands m ∧ b.id = c := by
      intro c hc
      obtain ⟨hic, hcm⟩ := hlt c hc
      exact ih (m.size - c) (by omega) hcm rfl
    have : Nonempty Branch := ⟨.mk id n []⟩
    choose! branchOf hstands hids using hbelow
    refine ⟨.mk id n (n.children.map branchOf), .mk hn ?_ ?_ ?_, rfl⟩
    · rw [List.map_map, List.map_congr_left (f := Branch.id ∘ branchOf) (g := fun c => c) hids]
      exact (List.map_id' n.children).symm
    · intro b hb
      obtain ⟨c, hc, rfl⟩ := List.mem_map.mp hb
      rw [hids c hc]
      exact (hlt c hc).1
    · intro b hb
      obtain ⟨c, hc, rfl⟩ := List.mem_map.mp hb
      exact hstands c hc

/-- **`branch?` finds the branches that stand in the table.** -/
theorem branch?_eq_some_iff (hm : m.Forest) {id : Nat} :
    m.branch? id = some b ↔ b.Stands m ∧ b.id = id := by
  constructor
  · intro h
    have hid : id < m.size := by
      by_contra hge
      rw [IedModel.branch?] at h
      split at h
      · exact absurd h (by simp)
      · rename_i hsome
        exact hge (IedModel.lt_size_of_node? hsome)
    obtain ⟨c, hc, rfl⟩ := exists_stands hm hid
    rw [hc.branch?] at h
    cases h
    exact ⟨hc, rfl⟩
  · rintro ⟨h, rfl⟩
    exact h.branch?

/-- The node at the top of a branch is the one of its number. -/
theorem node_of_branch? (hm : m.Forest) {id : Nat} (hb : m.branch? id = some b) {n : Node}
    (hn : m.node? id = some n) : b.node = n := by
  obtain ⟨hstands, rfl⟩ := (branch?_eq_some_iff hm).mp hb
  exact Option.some.inj (hstands.node?.symm.trans hn)

/-! ## Following names -/

/-- The names lead from the first branch down to the second one. -/
inductive Reaches : Branch → List String → Branch → Prop
  | refl (b : Branch) : Reaches b [] b
  | step {b c d : Branch} {names : List String} (hc : c ∈ b.branches) (h : Reaches c names d) :
      Reaches b (c.name :: names) d

mutual

theorem exists_reaches {c : Branch} : ∀ b : Branch, c ∈ b.preorder → ∃ names, b.Reaches names c
  | mk id node branches, h => by
    rw [preorder] at h
    rcases List.mem_cons.mp h with rfl | h
    · exact ⟨[], .refl _⟩
    · obtain ⟨d, hd, names, hr⟩ := exists_reaches_of_mem branches h
      exact ⟨d.name :: names, .step hd hr⟩

theorem exists_reaches_of_mem {c : Branch} : ∀ bs : List Branch, c ∈ preorderAll bs →
    ∃ b ∈ bs, ∃ names, b.Reaches names c
  | [], h => absurd h (by simp [preorderAll])
  | b :: bs, h => by
    rw [preorderAll] at h
    rcases List.mem_append.mp h with h | h
    · exact ⟨b, List.mem_cons_self, exists_reaches b h⟩
    · obtain ⟨d, hd, hr⟩ := exists_reaches_of_mem bs h
      exact ⟨d, List.mem_cons_of_mem b hd, hr⟩

end

theorem Reaches.mem_preorder {names : List String} (h : b.Reaches names c) : c ∈ b.preorder := by
  induction h with
  | refl b => exact b.self_mem_preorder
  | step hc _ ih => exact mem_preorder_of_mem_branches hc ih

theorem mem_preorder_iff : c ∈ b.preorder ↔ ∃ names, b.Reaches names c :=
  ⟨exists_reaches b, fun ⟨_, h⟩ => h.mem_preorder⟩

theorem mem_preorder_of_mem {d : Branch} (hc : c ∈ b.preorder) (hd : d ∈ c.branches) :
    d ∈ b.preorder := by
  obtain ⟨names, hr⟩ := mem_preorder_iff.mp hc
  induction hr with
  | refl b => exact mem_preorder_of_mem_branches hd d.self_mem_preorder
  | step he hr ih => exact mem_preorder_of_mem_branches he (ih hr.mem_preorder hd)

/-- Wherever in the branch, siblings have different names. -/
def Distinct (b : Branch) : Prop := ∀ c ∈ b.preorder, (c.branches.map name).Nodup

theorem Distinct.of_mem (h : b.Distinct) (hc : c ∈ b.branches) : c.Distinct := by
  intro d hd
  exact h d (mem_preorder_of_mem_branches hc hd)

/-- Walking leads to what the names lead to. -/
theorem reaches_of_walk? {names : List String} (h : walk? names b = some c) :
    b.Reaches names c := by
  induction names generalizing b with
  | nil => exact Option.some.inj h ▸ .refl b
  | cons n names ih =>
    obtain ⟨d, hfound, hw⟩ := Option.bind_eq_some_iff.mp h
    obtain ⟨hd, rfl⟩ := mem_of_find?_name hfound
    exact .step hd (ih hw)

/-- **Walking is following names** where siblings have different names. -/
theorem walk?_eq_some_iff (h : b.Distinct) {names : List String} :
    walk? names b = some c ↔ b.Reaches names c := by
  refine ⟨reaches_of_walk?, fun hr => ?_⟩
  induction hr with
  | refl b => rfl
  | @step b d c names hd _ ih =>
    have hchild : b.child? d.name = some d :=
      (find?_name_eq_some_iff (h b (self_mem_preorder _))).mpr ⟨hd, rfl⟩
    rw [walk?, hchild]
    exact ih (h.of_mem hd)

/-- Names lead to one branch only. -/
theorem Reaches.unique (h : b.Distinct) {names : List String} {d : Branch}
    (hc : b.Reaches names c) (hd : b.Reaches names d) : c = d :=
  Option.some.inj (((walk?_eq_some_iff h).mpr hc).symm.trans ((walk?_eq_some_iff h).mpr hd))

end Branch

end Substation.Model
