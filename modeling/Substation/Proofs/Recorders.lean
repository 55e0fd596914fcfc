import Substation.Journal.Recorder
import Substation.Proofs.Indexes
import Substation.Proofs.Ledgers
import Substation.Proofs.Repetitions

/-!
# Recorders keep first occurrences

The index of a recorder has the issues of its list, so that the list holds the first occurrences of
everything that has been recorded (`Recorder.Records`), whatever was merged into it and however that
came about. A recorder thus builds the log of all that was recorded (`log_run`).

Results:
* `Recorder.records_run`: what recorders hold after a history;
* `recorder_keeps_first_occurrences` (`push`, `error`, `warning`, `merge`): they are sets that keep
  their order.
-/

namespace Substation.Journal

/-! ## The order of issues -/

theorem Severity.rank_injective {s s' : Severity} (h : s.rank = s'.rank) : s = s' := by
  cases s <;> cases s' <;> first | rfl | exact absurd h nofun

instance : Std.LawfulEqOrd Issue where
  eq_of_compare {a b} h := by
    change Issue.order a b = .eq at h
    simp only [Issue.order, Ordering.then_eq_eq, Std.LawfulEqCmp.compare_eq_iff_eq] at h
    obtain ⟨hseverity, hcategory, hmessage, hobject⟩ := h
    cases a
    cases b
    congr
    exact Severity.rank_injective hseverity

/-! ## Recording -/

/-- A way to record an issue. -/
inductive Recording where
  | push (i : Issue)
  | error (object message : String)
  | warning (object message : String)

/-- The issue that is recorded. -/
def Recording.issue : Recording → Issue
  | push i => i
  | error object message => { severity := .error, message, object }
  | warning object message => { severity := .warning, message, object }

namespace Recorder

/-- Records an issue and tells whether it was new. -/
def record (r : Recorder) : Recording → Bool × Recorder
  | .push i => r.push i
  | .error object message => r.error object message
  | .warning object message => r.warning object message

theorem record_eq_push (r : Recorder) (a : Recording) : r.record a = r.push a.issue := by
  cases a <;> rfl

/-- Recorders and what is done with them. -/
def ledger : Ledger Recorder Recording where
  blank := {}
  enter r a := (r.record a).2
  merge := merge

theorem push_of_seen {r : Recorder} {i : Issue} (h : r.seen.contains i) : r.push i = (false, r) :=
  if_pos h

theorem fst_push (r : Recorder) (i : Issue) : (r.push i).1 = !r.seen.contains i := by
  cases h : r.seen.contains i <;> simp [push, h]

theorem seen_push (r : Recorder) (i j : Issue) :
    (r.push i).2.seen.contains j = (decide (j = i) || r.seen.contains j) := by
  rw [push]
  split
  · next h =>
    by_cases heq : j = i
    · rw [heq, h, Bool.or_true]
    · rw [decide_eq_false heq, Bool.false_or]
  · exact Index.contains_insert r.seen i j ()

/-- The list has the first occurrences of some issues, and the index has all of them. -/
structure Records (r : Recorder) (is : List Issue) : Prop where
  issues : r.issues = is.eraseDups
  seen : ∀ i, r.seen.contains i ↔ i ∈ is

theorem records_blank : Records {} [] := ⟨rfl, fun _ => ⟨nofun, nofun⟩⟩

variable {r : Recorder} {is : List Issue}

theorem Records.seen_iff (h : Records r is) (i : Issue) : r.seen.contains i ↔ i ∈ r.issues := by
  rw [h.seen, h.issues, List.mem_eraseDups]

theorem Records.push (h : Records r is) (i : Issue) : Records (r.push i).2 (is ++ [i]) where
  issues := by
    rw [eraseDups_concat, Recorder.push]
    split
    · next hseen =>
      rw [if_pos (List.contains_iff_mem.mpr ((h.seen i).mp hseen))]
      exact h.issues
    · next hnew =>
      rw [if_neg fun hin => hnew ((h.seen i).mpr (List.contains_iff_mem.mp hin)), ← h.issues]
  seen j := by
    rw [seen_push, Bool.or_eq_true, decide_eq_true_iff, h.seen, List.mem_append,
      List.mem_singleton, or_comm]

theorem Records.pushes (h : Records r is) (js : List Issue) :
    Records (js.foldl (fun r i => (r.push i).2) r) (is ++ js) := by
  induction js generalizing r is with
  | nil => rwa [List.append_nil]
  | cons j js ih => rw [List.append_cons]; exact ih (h.push j)

/-- Where the list of first occurrences is recorded, everything might as well have been. -/
theorem Records.congr {is' : List Issue} (h : Records r is) (heq : is.eraseDups = is'.eraseDups) :
    Records r is' where
  issues := h.issues.trans heq
  seen i := by rw [h.seen, ← List.mem_eraseDups, heq, List.mem_eraseDups]

theorem Records.merge {other : Recorder} {others : List Issue} (h : Records r is)
    (hother : Records other others) : Records (r.merge other) (is ++ others) := by
  have hpushed : Records (r.merge other) (is ++ others.eraseDups) :=
    hother.issues ▸ h.pushes other.issues
  exact hpushed.congr (eraseDups_append_right is others)

/-- After every history, the recorders hold what was recorded in them. -/
theorem records_run (steps : List (Ledger.Step Recording)) (k : Nat) :
    Records (ledger.run steps k) ((Ledger.whole Recording.issue).run steps k) := by
  refine Ledger.run_related records_blank (fun r is a h => ?_) (fun _ _ _ _ => .merge) steps k
  change Records (r.record a).2 (is ++ [a.issue])
  rw [record_eq_push]
  exact h.push a.issue

/-- A recorder that has seen all issues of another one takes in nothing. -/
theorem merge_of_seen {other : Recorder} (h : ∀ i ∈ other.issues, r.seen.contains i) :
    r.merge other = r := by
  rw [merge]
  generalize other.issues = is at h ⊢
  induction is with
  | nil => rfl
  | cons i is ih =>
    rw [List.foldl_cons, push_of_seen (h i List.mem_cons_self)]
    exact ih fun j hj => h j (List.mem_cons_of_mem _ hj)

theorem Records.merge_merge (h : Records r is) (other : Recorder) :
    (r.merge other).merge other = r.merge other :=
  merge_of_seen fun i hi => ((h.pushes other.issues).seen i).mpr (List.mem_append_right _ hi)

/-- A recorder builds the log of all that is recorded in it. -/
theorem log_run (steps : List (Ledger.Step Recording)) (k : Nat) :
    (ledger.run steps k).log = .ofList ((Ledger.whole Recording.issue).run steps k) := by
  have hissues := (records_run steps k).issues
  rw [← IssueLog.issues_ofList] at hissues
  exact congrArg IssueLog.mk hissues

end Recorder

/-- **A recorder is a set that keeps its order.** After every history of any number of recorders,
the list of each holds the first occurrences of all that was recorded in it or merged into it. An
issue is reported as new iff it is not in the list yet, and the index has exactly the issues of the
list. Merging any recorder a second time changes nothing, and neither does merging the empty one.
The log that the recorder builds is that of all that was recorded. -/
theorem recorder_keeps_first_occurrences (steps : List (Ledger.Step Recording)) (k : Nat) :
    let r := Recorder.ledger.run steps k
    r.issues = ((Ledger.whole Recording.issue).run steps k).eraseDups ∧
    (∀ a : Recording, (r.record a).1 ↔ a.issue ∉ r.issues) ∧
    (∀ i, r.seen.contains i ↔ i ∈ r.issues) ∧
    (∀ other : Recorder, (r.merge other).merge other = r.merge other) ∧
    r.merge {} = r ∧
    r.log = .ofList ((Ledger.whole Recording.issue).run steps k) := by
  intro r
  have h := Recorder.records_run steps k
  refine ⟨h.issues, fun a => ?_, h.seen_iff, h.merge_merge, rfl,
    Recorder.log_run steps k⟩
  rw [Recorder.record_eq_push, Recorder.fst_push, Bool.not_eq_true', ← h.seen_iff,
    Bool.not_eq_true]

end Substation.Journal
