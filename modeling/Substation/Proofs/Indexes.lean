import Mathlib.Data.List.Nodup
import Mathlib.Data.List.Perm.Basic
import Mathlib.Tactic.Common
import Substation.Index

/-!
# Indexes as finite maps

Among ascending entries, the search that stops at the first key that is not less finds every entry
(`find?_eq_some_iff`). An insertion changes what is found under its own key only (`find?_insert`),
and two indexes in which the same is found are the same (`ext_find?`), in whatever order their
values were put there.
-/

namespace Substation.Index

variable {κ ν : Type} [Ord κ] {es : List (κ × ν)} {key : κ} {value : ν}

variable [Std.LawfulEqOrd κ]

/-! ## Ascending entries -/

theorem ne_of_lt {a b : κ} (h : compare a b = .lt) : a ≠ b :=
  fun heq => nomatch h.symm.trans (Std.LawfulEqCmp.compare_eq_iff_eq.mpr heq)

theorem ne_of_gt {a b : κ} (h : compare a b = .gt) : a ≠ b :=
  fun heq => nomatch h.symm.trans (Std.LawfulEqCmp.compare_eq_iff_eq.mpr heq)

theorem Ascending.ne_of_mem {e e' : κ × ν} (h : Ascending (e :: es)) (he : e' ∈ es) :
    e.1 ≠ e'.1 :=
  ne_of_lt ((List.pairwise_cons.mp h).1 e' he)

theorem Ascending.nodup (h : Ascending es) : es.Nodup :=
  List.Pairwise.imp (S := (· ≠ ·)) (fun hlt heq => ne_of_lt hlt (congrArg Prod.fst heq)) h

variable [Std.TransOrd κ]

/-- A key that is less than the first one is not there. -/
theorem Ascending.ne_of_lt_first {first e : κ × ν} (h : Ascending (first :: es))
    (hlt : compare key first.1 = .lt) (he : e ∈ first :: es) : e.1 ≠ key := by
  obtain rfl | hmem := List.mem_cons.mp he
  · exact (ne_of_lt hlt).symm
  · exact (ne_of_lt (Std.TransCmp.lt_trans hlt ((List.pairwise_cons.mp h).1 e hmem))).symm

/-- The search finds exactly the entries. -/
theorem seek_eq_some_iff (h : Ascending es) : seek key es = some value ↔ (key, value) ∈ es := by
  induction es with
  | nil => exact ⟨nofun, nofun⟩
  | cons first es ih =>
    rw [seek]
    split
    · next hlt => exact ⟨nofun, fun hmem => absurd rfl (h.ne_of_lt_first hlt hmem)⟩
    · next heq =>
      obtain ⟨k, v⟩ := first
      obtain rfl := Std.LawfulEqCmp.eq_of_compare heq
      rw [List.mem_cons]
      refine ⟨fun hvalue => .inl (Option.some.inj hvalue ▸ rfl), ?_⟩
      rintro (⟨⟨⟩⟩ | hmem)
      · rfl
      · exact (h.ne_of_mem hmem rfl).elim
    · next hgt =>
      rw [ih (List.pairwise_cons.mp h).2, List.mem_cons]
      exact (or_iff_right fun heq => ne_of_gt hgt (congrArg Prod.fst heq)).symm

theorem seek_eq_none (h : Ascending es) (hes : ∀ e ∈ es, e.1 ≠ key) : seek key es = none :=
  Option.eq_none_iff_forall_ne_some.mpr fun _ hvalue => hes _ ((seek_eq_some_iff h).mp hvalue) rfl

/-- Placing adds one entry and drops the one of its key. -/
theorem mem_place (h : Ascending es) {e : κ × ν} :
    e ∈ place key value es ↔ e = (key, value) ∨ e ∈ es ∧ e.1 ≠ key := by
  induction es with
  | nil => simp [place]
  | cons first es ih =>
    rw [place]
    split
    · next hlt =>
      rw [List.mem_cons]
      exact or_congr_right ⟨fun he => ⟨he, h.ne_of_lt_first hlt he⟩, And.left⟩
    · next heq =>
      obtain rfl := Std.LawfulEqCmp.eq_of_compare heq
      rw [List.mem_cons, List.mem_cons]
      refine or_congr_right ⟨fun he => ⟨.inr he, (h.ne_of_mem he).symm⟩, ?_⟩
      rintro ⟨rfl | he, hne⟩
      · exact absurd rfl hne
      · exact he
    · next hgt =>
      have hfirst : e = first → e.1 ≠ key := fun heq => heq ▸ (ne_of_gt hgt).symm
      rw [List.mem_cons, ih (List.pairwise_cons.mp h).2, List.mem_cons, or_left_comm,
        or_and_right, and_iff_left_of_imp hfirst]

/-! ## Looking up -/

variable {x y : Index κ ν}

theorem find?_eq_some_iff : x.find? key = some value ↔ (key, value) ∈ x.entries :=
  seek_eq_some_iff x.ascending

/-- **An insertion changes what is found under its own key only.** -/
theorem find?_insert [DecidableEq κ] (x : Index κ ν) (key other : κ) (value : ν) :
    (x.insert key value).find? other = if other = key then some value else x.find? other := by
  ext v
  rw [find?_eq_some_iff, insert, mem_place x.ascending]
  split
  · next heq => simp [heq, eq_comm]
  · next hne => simp [hne, find?_eq_some_iff]

theorem contains_insert [DecidableEq κ] (x : Index κ ν) (key other : κ) (value : ν) :
    (x.insert key value).contains other = (decide (other = key) || x.contains other) := by
  rw [contains, find?_insert, contains]
  split
  · next heq => simp [heq]
  · next hne => simp [hne]

/-- **Indexes in which the same is found are the same.** -/
theorem ext_find? (h : ∀ key, x.find? key = y.find? key) : x = y := by
  have hperm : x.entries.Perm y.entries := by
    refine (List.perm_ext_iff_of_nodup x.ascending.nodup y.ascending.nodup).mpr fun e => ?_
    rw [← find?_eq_some_iff, ← find?_eq_some_iff, h]
  have hentries : x.entries = y.entries := by
    refine hperm.eq_of_pairwise (fun e e' _ _ hlt hgt => ?_) x.ascending y.ascending
    exact absurd hgt (Std.OrientedCmp.not_lt_of_lt hlt)
  cases x
  cases y
  congr

/-- What the entries of a key give is what its value gives. -/
theorem flatMap_entries [DecidableEq κ] {β : Type} (x : Index κ ν) (key : κ) (f : ν → List β) :
    (x.entries.flatMap fun e => if e.1 = key then f e.2 else []) = (x.find? key).elim [] f := by
  rw [find?]
  have h := x.ascending
  generalize x.entries = es at h ⊢
  induction es with
  | nil => rfl
  | cons first es ih =>
    have hrest := (List.pairwise_cons.mp h).2
    rw [List.flatMap_cons, ih hrest, seek]
    cases hcmp : compare key first.1 with
    | lt =>
      have hne : ∀ e ∈ first :: es, e.1 ≠ key := fun e he => h.ne_of_lt_first hcmp he
      rw [if_neg (hne first List.mem_cons_self),
        seek_eq_none hrest fun e he => hne e (List.mem_cons_of_mem _ he)]
      rfl
    | eq =>
      obtain rfl := Std.LawfulEqCmp.eq_of_compare hcmp
      rw [if_pos rfl, seek_eq_none hrest fun e he => (h.ne_of_mem he).symm]
      exact List.append_nil _
    | gt => rw [if_neg (ne_of_gt hcmp).symm, List.nil_append]

end Substation.Index
