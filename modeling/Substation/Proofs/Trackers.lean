import Substation.Proofs.Indexes
import Substation.Proofs.Ledgers
import Substation.Proofs.UsedTemplates
import Substation.Template.Tracker

/-!
# Trackers of several passes

What a tracker holds for a template are the first occurrences of those who marked it, and nothing if
there are none (`Tracker.Tracks`). Therefore the order in which passes are merged matters to the
order of the users only.

Results:
* `Tracker.tracks_run` (`mark_used`): what trackers hold after a history;
* `Tracker.Tracks.usersOf_merge`, `Tracker.Tracks.isUsed_merge`, `Tracker.Tracks.merge_assoc`
  (`UsageTracker::merge`): the laws of merging, one by one;
* `trackers_merge_in_any_order` (`used_on`, `is_used`, `unused_templates`): all of them, for every
  history.
-/

namespace Substation.Template

/-! ## The order of templates -/

theorem Kind.rank_injective {kind kind' : Kind} (h : kind.rank = kind'.rank) : kind = kind' := by
  cases kind <;> cases kind' <;> first | rfl | exact absurd h nofun

instance : Std.LawfulEqOrd Kind where
  eq_of_compare {a b} h := by
    have hrank : compare a.rank b.rank = .eq := h
    exact Kind.rank_injective (Std.LawfulEqCmp.eq_of_compare hrank)

instance : Std.LawfulEqOrd (Kind × String) :=
  inferInstanceAs (@Std.LawfulEqOrd (Kind × String) lexOrd)

namespace Tracker

/-- Trackers and what is done with them. -/
def ledger : Ledger Tracker Mark where
  blank := {}
  enter := mark
  merge := merge

/-- What is held for a template with some users. -/
def held (users : List String) : Option (List String) := if users = [] then none else some users

theorem getD_held (users : List String) : (held users).getD [] = users := by
  unfold held
  split
  · next h => exact h.symm
  · rfl

theorem isSome_held (users : List String) : (held users).isSome ↔ users ≠ [] := by
  unfold held
  split <;> simp_all

theorem enlist_eraseDups (users : List String) (user : String) :
    enlist users.eraseDups user = (users ++ [user]).eraseDups := by
  rw [enlist, eraseDups_concat]
  simp

/-- The users of every template are the first occurrences of those in some marks. -/
def Tracks (t : Tracker) (ms : List Mark) : Prop :=
  ∀ kind id, t.users.find? (kind, id) = held (ms.filterMap (·.userOf? kind id)).eraseDups

theorem tracks_blank : Tracks {} [] := fun _ _ => rfl

variable {t : Tracker} {ms : List Mark}

theorem Tracks.mark (h : Tracks t ms) (m : Mark) : Tracks (t.mark m) (ms ++ [m]) := by
  intro kind id
  rw [Tracker.mark, Index.find?_insert, List.filterMap_append]
  by_cases heq : m.kind = kind ∧ m.id = id
  · obtain ⟨rfl, rfl⟩ := heq
    have huser : [m].filterMap (·.userOf? m.kind m.id) = [m.user] := by simp [Mark.userOf?]
    have hne : (ms.filterMap (·.userOf? m.kind m.id) ++ [m.user]).eraseDups ≠ [] :=
      List.ne_nil_of_mem (List.mem_eraseDups.mpr (List.mem_append_right _ List.mem_cons_self))
    rw [if_pos rfl, h, getD_held, huser, enlist_eraseDups, held, if_neg hne]
  · have hnone : [m].filterMap (·.userOf? kind id) = [] := by simp [Mark.userOf?, heq]
    have hkey : (kind, id) ≠ (m.kind, m.id) := by
      rintro ⟨⟩
      exact heq ⟨rfl, rfl⟩
    rw [if_neg hkey, h, hnone, List.append_nil]

theorem Tracks.marks (h : Tracks t ms) (others : List Mark) :
    Tracks (others.foldl Tracker.mark t) (ms ++ others) := by
  induction others generalizing t ms with
  | nil => rwa [List.append_nil]
  | cons m others ih => rw [List.append_cons]; exact ih (h.mark m)

/-! ## Merging -/

/-- The marks that a tracker makes when it is merged into another one. -/
def marks (t : Tracker) : List Mark := t.users.entries.flatMap marksOf

theorem merge_eq (t other : Tracker) : t.merge other = other.marks.foldl Tracker.mark t := by
  rw [merge, marks, List.foldl_flatMap]

theorem userOf?_marksOf (kind : Kind) (id : String) (e : (Kind × String) × List String) :
    (marksOf e).filterMap (·.userOf? kind id) = if e.1 = (kind, id) then e.2 else [] := by
  obtain ⟨⟨kind', id'⟩, users⟩ := e
  rw [marksOf, List.filterMap_map]
  split
  · next heq =>
    obtain ⟨rfl, rfl⟩ := Prod.mk.inj heq
    simp [Function.comp_def, Mark.userOf?]
  · next hne =>
    refine List.filterMap_eq_nil_iff.mpr fun user _ => if_neg ?_
    rintro ⟨rfl, rfl⟩
    exact hne rfl

theorem users_marks (t : Tracker) (kind : Kind) (id : String) :
    t.marks.filterMap (·.userOf? kind id) = t.usersOf kind id := by
  rw [marks, List.filterMap_flatMap]
  simp only [userOf?_marksOf]
  refine (Index.flatMap_entries t.users (kind, id) fun users => users).trans ?_
  rw [usersOf]
  cases t.users.find? (kind, id) <;> rfl

theorem Tracks.usersOf (h : Tracks t ms) (kind : Kind) (id : String) :
    t.usersOf kind id = (ms.filterMap (·.userOf? kind id)).eraseDups := by
  rw [Tracker.usersOf, h, getD_held]

theorem Tracks.isUsed (h : Tracks t ms) (kind : Kind) (id : String) :
    t.isUsed kind id ↔ ms.filterMap (·.userOf? kind id) ≠ [] := by
  have hnil : (ms.filterMap (·.userOf? kind id)).eraseDups = [] ↔
      ms.filterMap (·.userOf? kind id) = [] := by
    simp only [List.eq_nil_iff_forall_not_mem, List.mem_eraseDups]
  rw [Tracker.isUsed, Index.contains, h, isSome_held, Ne, hnil]

/-- A tracker that takes in another one holds what both would if their marks were made in turn. -/
theorem Tracks.merge {other : Tracker} {others : List Mark} (h : Tracks t ms)
    (hother : Tracks other others) : Tracks (t.merge other) (ms ++ others) := by
  intro kind id
  rw [merge_eq, h.marks other.marks kind id, List.filterMap_append, List.filterMap_append,
    users_marks, hother.usersOf, eraseDups_append_right]

/-- After every history, the trackers hold what was marked in them. -/
theorem tracks_run (steps : List (Ledger.Step Mark)) (k : Nat) :
    Tracks (ledger.run steps k) ((Ledger.whole id).run steps k) :=
  Ledger.run_related tracks_blank (fun _ _ m h => h.mark m) (fun _ _ _ _ => .merge) steps k

/-- Trackers are the same if each template has the same first users. -/
theorem Tracks.unique {t' : Tracker} {ms' : List Mark} (h : Tracks t ms) (h' : Tracks t' ms')
    (hsame : ∀ kind id, (ms.filterMap (·.userOf? kind id)).eraseDups =
      (ms'.filterMap (·.userOf? kind id)).eraseDups) : t = t' := by
  have husers : t.users = t'.users := Index.ext_find? fun ⟨kind, id⟩ => by
    rw [h, h', hsame]
  cases t
  cases t'
  congr

/-! ## Laws -/

section Laws

variable {a b c : Tracker} {as bs cs : List Mark}

theorem Tracks.users_of_entry (h : Tracks a as) {e : (Kind × String) × List String}
    (he : e ∈ a.users.entries) : e.2 ≠ [] ∧ e.2.Nodup := by
  obtain ⟨⟨kind, id⟩, users⟩ := e
  have hfind := h kind id
  rw [Index.find?_eq_some_iff.mpr he, held] at hfind
  split at hfind
  · exact nomatch hfind
  · next hne =>
    obtain rfl := Option.some.inj hfind
    exact ⟨hne, nodup_eraseDups _⟩

theorem Tracks.usersOf_merge (ha : Tracks a as) (hb : Tracks b bs) (kind : Kind) (id : String) :
    (a.merge b).usersOf kind id = a.usersOf kind id ++
      (b.usersOf kind id).filter fun user => !(a.usersOf kind id).contains user := by
  rw [(ha.merge hb).usersOf, ha.usersOf, hb.usersOf, List.filterMap_append,
    eraseDups_append_filter]

theorem Tracks.isUsed_merge (ha : Tracks a as) (hb : Tracks b bs) (kind : Kind) (id : String) :
    (a.merge b).isUsed kind id = (a.isUsed kind id || b.isUsed kind id) := by
  rw [Bool.eq_iff_iff, Bool.or_eq_true, (ha.merge hb).isUsed, ha.isUsed, hb.isUsed,
    List.filterMap_append, Ne, List.append_eq_nil_iff, not_and_or]

theorem Tracks.isUsed_merge_comm (ha : Tracks a as) (hb : Tracks b bs) (kind : Kind) (id : String) :
    (a.merge b).isUsed kind id = (b.merge a).isUsed kind id := by
  rw [ha.isUsed_merge hb, hb.isUsed_merge ha, Bool.or_comm]

theorem Tracks.mem_usersOf_merge_comm (ha : Tracks a as) (hb : Tracks b bs) (kind : Kind)
    (id user : String) :
    user ∈ (a.merge b).usersOf kind id ↔ user ∈ (b.merge a).usersOf kind id := by
  simp only [(ha.merge hb).usersOf, (hb.merge ha).usersOf, List.mem_eraseDups,
    List.filterMap_append, List.mem_append]
  exact or_comm

theorem Tracks.merge_assoc (ha : Tracks a as) (hb : Tracks b bs) (hc : Tracks c cs) :
    (a.merge b).merge c = a.merge (b.merge c) :=
  ((ha.merge hb).merge hc).unique (ha.merge (hb.merge hc)) fun kind id => by
    rw [List.append_assoc]

theorem Tracks.merge_self (ha : Tracks a as) : a.merge a = a :=
  (ha.merge ha).unique ha fun kind id => by
    rw [List.filterMap_append, eraseDups_append_filter]
    simp

theorem mem_unused {r : Registry} {kind : Kind} {id : String} (h : (kind, id) ∈ r.ids) :
    (kind, id) ∈ a.unused r ↔ a.isUsed kind id = false := by
  simp [unused, h]

theorem unused_congr (h : ∀ kind id, a.isUsed kind id = b.isUsed kind id) (r : Registry) :
    a.unused r = b.unused r :=
  List.filter_congr fun ⟨kind, id⟩ _ => congrArg not (h kind id)

theorem Tracks.unused_merge (ha : Tracks a as) (hb : Tracks b bs) (r : Registry) :
    (a.merge b).unused r = r.ids.filter fun t => t ∈ a.unused r ∧ t ∈ b.unused r := by
  refine List.filter_congr fun ⟨kind, id⟩ hid => ?_
  change (!(a.merge b).isUsed kind id) = _
  rw [ha.isUsed_merge hb, Bool.not_or, Bool.eq_iff_iff, decide_eq_true_iff, mem_unused hid,
    mem_unused hid, Bool.and_eq_true, Bool.not_eq_true', Bool.not_eq_true']

end Laws

/-- A tracker and the use of templates agree when the same marks are made. -/
theorem usage_run (steps : List (Ledger.Step Mark)) (k : Nat) :
    let t := ledger.run steps k
    let u := Usage.ofList ((Ledger.whole id).run steps k)
    (∀ kind id, t.usersOf kind id = u.usersOf kind id) ∧
    (∀ kind id, t.isUsed kind id = u.isUsed kind id) ∧ ∀ r, t.unused r = u.unused r := by
  intro t u
  have h := tracks_run steps k
  have hused : ∀ kind id, t.isUsed kind id = u.isUsed kind id := fun kind id => by
    rw [Bool.eq_iff_iff, h.isUsed, Usage.isUsed_ofList]
  refine ⟨fun kind id => (h.usersOf kind id).trans Usage.usersOf_ofList.symm, hused, fun r => ?_⟩
  exact List.filter_congr fun ⟨kind, id⟩ _ => congrArg not (hused kind id)

end Tracker

/-- **Passes can be merged in any order.** After any histories of any number of trackers, the users
of a used template are listed, each once. Merging puts the users of the second tracker who are not
there yet behind those of the first one, so that a template is used iff one of the two uses it. It
is associative and idempotent, and commutative but for the order of the users; a registered template
is unused after a merge, in either order, iff neither of the two uses it. A tracker says the same of
every template as the use that is made up of all marks of its history. -/
theorem trackers_merge_in_any_order (p q s : List (Ledger.Step Mark)) (i j k : Nat) :
    let a := Tracker.ledger.run p i
    let b := Tracker.ledger.run q j
    let c := Tracker.ledger.run s k
    (∀ e ∈ a.users.entries, e.2 ≠ [] ∧ e.2.Nodup) ∧
    (∀ kind id, (a.merge b).usersOf kind id = a.usersOf kind id ++
      (b.usersOf kind id).filter fun user => !(a.usersOf kind id).contains user) ∧
    (∀ kind id, (a.merge b).isUsed kind id = (a.isUsed kind id || b.isUsed kind id)) ∧
    (a.merge b).merge c = a.merge (b.merge c) ∧
    a.merge a = a ∧
    (∀ kind id, (a.merge b).isUsed kind id = (b.merge a).isUsed kind id) ∧
    (∀ kind id user, user ∈ (a.merge b).usersOf kind id ↔ user ∈ (b.merge a).usersOf kind id) ∧
    (∀ r : Registry,
      (a.merge b).unused r = r.ids.filter (fun t => t ∈ a.unused r ∧ t ∈ b.unused r) ∧
      (b.merge a).unused r = (a.merge b).unused r) ∧
    let u := Usage.ofList ((Ledger.whole id).run p i)
    (∀ kind id, a.usersOf kind id = u.usersOf kind id) ∧
      (∀ kind id, a.isUsed kind id = u.isUsed kind id) ∧ ∀ r, a.unused r = u.unused r := by
  have ha := Tracker.tracks_run p i
  have hb := Tracker.tracks_run q j
  have hc := Tracker.tracks_run s k
  exact ⟨fun e he => ha.users_of_entry he, ha.usersOf_merge hb, ha.isUsed_merge hb,
    ha.merge_assoc hb hc, ha.merge_self, ha.isUsed_merge_comm hb, ha.mem_usersOf_merge_comm hb,
    fun r => ⟨ha.unused_merge hb r, Tracker.unused_congr (hb.isUsed_merge_comm ha) r⟩,
    Tracker.usage_run p i⟩

end Substation.Template
