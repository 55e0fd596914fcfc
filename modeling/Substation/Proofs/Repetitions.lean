import Mathlib.Data.List.Induction
import Mathlib.Tactic.Common
import Substation.Journal.IssueLog
import Substation.Template.Usage

/-!
# Repetitions

Issues and marks are recorded one after the other, and one that has been recorded before is passed
over. What is kept is the first occurrence of each, in order (`issues_ofList`, `marks_ofList`). So a
log that takes in another one holds the first occurrences among the issues of both
(`issues_merge`).
-/

namespace Substation

variable {α β : Type} [BEq α] [LawfulBEq α] [BEq β] [LawfulBEq β]

/-! ## First occurrences -/

theorem eraseDups_concat (l : List α) (a : α) :
    (l ++ [a]).eraseDups = if l.contains a then l.eraseDups else l.eraseDups ++ [a] := by
  rw [List.eraseDups_append, List.removeAll]
  by_cases h : l.contains a
  · rw [List.filter_cons_of_neg (by simpa using h), if_pos h]
    exact List.append_nil _
  · rw [List.filter_cons_of_pos (by simpa using h), if_neg h, List.filter_nil, List.eraseDups_cons]
    rfl

/-- Of first occurrences, each is the only one. -/
theorem eraseDups_eraseDups (l : List α) : l.eraseDups.eraseDups = l.eraseDups := by
  induction l using List.reverseRecOn with
  | nil => rfl
  | append_singleton l a ih =>
    rw [eraseDups_concat]
    split
    · exact ih
    · next h =>
      have hnot : ¬ l.eraseDups.contains a := by simpa using h
      rw [eraseDups_concat, if_neg hnot, ih]

theorem nodup_eraseDups (l : List α) : l.eraseDups.Nodup := by
  induction l using List.reverseRecOn with
  | nil => exact List.nodup_nil
  | append_singleton l a ih =>
    rw [eraseDups_concat]
    split
    · exact ih
    · next h =>
      have hnot : a ∉ l.eraseDups := by simpa using h
      refine List.nodup_append.mpr ⟨ih, List.pairwise_singleton _ _, fun b hb c hc heq => ?_⟩
      exact hnot (List.mem_singleton.mp hc ▸ heq ▸ hb)

/-- What comes first in the list comes first when the list is continued. -/
theorem eraseDups_append_left (l as : List α) : (l.eraseDups ++ as).eraseDups =
    (l ++ as).eraseDups := by
  have hsame : as.removeAll l.eraseDups = as.removeAll l := by
    simp [List.removeAll]
  rw [List.eraseDups_append, List.eraseDups_append, eraseDups_eraseDups, hsame]

theorem eraseDups_append_right (l as : List α) : (l ++ as.eraseDups).eraseDups =
    (l ++ as).eraseDups := by
  induction as using List.reverseRecOn with
  | nil => rfl
  | append_singleton as a ih =>
    rw [eraseDups_concat, ← List.append_assoc, eraseDups_concat (l ++ as), ← ih]
    split
    · next h =>
      have hin : (l ++ as).contains a := by simp [List.contains_iff_mem.mp h]
      rw [if_pos hin]
    · rw [← List.append_assoc, eraseDups_concat]
      simp only [List.contains_eq_mem, List.mem_append, List.mem_eraseDups]

/-- First occurrences stay first under a map that tells apart what it keeps. -/
theorem eraseDups_filterMap {g : α → Option β}
    (hg : ∀ a a' b, g a = some b → g a' = some b → a = a') (l : List α) :
    (l.filterMap g).eraseDups = l.eraseDups.filterMap g := by
  induction l using List.reverseRecOn with
  | nil => rfl
  | append_singleton l a ih =>
    rw [List.filterMap_append, eraseDups_concat]
    cases hb : g a with
    | none =>
      rw [show [a].filterMap g = [] by simp [hb], List.append_nil, ih]
      split
      · rfl
      · simp [hb]
    | some b =>
      have hcontains : (l.filterMap g).contains b = l.contains a := by
        rw [Bool.eq_iff_iff, List.contains_iff_mem, List.contains_iff_mem, List.mem_filterMap]
        exact ⟨fun ⟨a', ha', hb'⟩ => hg a' a b hb' hb ▸ ha', fun ha => ⟨a, ha, hb⟩⟩
      rw [show [a].filterMap g = [b] by simp [hb], eraseDups_concat, hcontains, ih]
      split
      · rfl
      · simp [hb]

theorem eraseDups_filter (p : α → Bool) (l : List α) :
    (l.filter p).eraseDups = l.eraseDups.filter p := by
  rw [← List.filterMap_eq_filter, eraseDups_filterMap]
  intro a a' b ha ha'
  exact (Option.guard_eq_some_iff.mp ha).1.trans (Option.guard_eq_some_iff.mp ha').1.symm

/-- Behind a list, only what is not in it comes first. -/
theorem eraseDups_append_filter (l as : List α) : (l ++ as).eraseDups =
    l.eraseDups ++ as.eraseDups.filter fun a => !l.eraseDups.contains a := by
  rw [List.eraseDups_append, List.removeAll, eraseDups_filter]
  simp

/-! ## Recording -/

/-- Recording one after the other what has not been recorded yet keeps the first occurrences. -/
theorem foldl_eraseDups {step : List α → α → List α}
    (hstep : ∀ l a, step l a = if l.contains a then l else l ++ [a]) (l as : List α) :
    as.foldl step l.eraseDups = (l ++ as).eraseDups := by
  induction as generalizing l with
  | nil => rw [List.foldl_nil, List.append_nil]
  | cons a as ih =>
    have hnext : step l.eraseDups a = (l ++ [a]).eraseDups := by
      rw [hstep, eraseDups_concat]
      simp only [List.contains_eq_mem, List.mem_eraseDups]
    rw [List.foldl_cons, hnext, ih, List.append_assoc, List.singleton_append]

namespace Journal.IssueLog

/-- The issues after recording some more, as a fold over lists. -/
theorem issues_pushAll_eq_foldl (log : IssueLog) (is : List Issue) :
    (log.pushAll is).issues =
      is.foldl (fun l i => if l.contains i then l else l ++ [i]) log.issues := by
  refine (List.foldl_hom issues fun log i => ?_).symm
  unfold push contains
  split <;> rfl

/-- **A log keeps the first occurrences** of the issues that are recorded. -/
theorem issues_ofList (is : List Issue) : (ofList is).issues = is.eraseDups := by
  rw [ofList, issues_pushAll_eq_foldl]
  exact foldl_eraseDups (fun _ _ => rfl) [] is

/-- A log that takes in another one keeps the first occurrences of both. -/
theorem issues_merge {log : IssueLog} {is : List Issue} (h : log.issues = is.eraseDups)
    (other : IssueLog) : (log.merge other).issues = (is ++ other.issues).eraseDups := by
  rw [merge, issues_pushAll_eq_foldl, h]
  exact foldl_eraseDups (fun _ _ => rfl) is other.issues

end Journal.IssueLog

namespace Template.Usage

/-- **The use of templates keeps the first occurrences** of the marks that are made. -/
theorem marks_ofList (ms : List Mark) : (ofList ms).marks = ms.eraseDups := by
  have hfold : (ofList ms).marks =
      ms.foldl (fun l m => if l.contains m then l else l ++ [m]) [] := by
    refine (List.foldl_hom marks fun u m => ?_).symm
    unfold mark
    split <;> rfl
  rw [hfold]
  exact foldl_eraseDups (fun _ _ => rfl) [] ms

end Template.Usage

end Substation
