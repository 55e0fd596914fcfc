import Mathlib.Data.List.Basic
import Mathlib.Tactic.Common
import Substation.Proofs.Stages

/-!
# The journal of a resolution

The journal of a resolution only grows, and once a logical node is planted it grows by remarks
only, that is by findings and notes: while the node is checked (`remarked_checkNode`) and after the
model is built (`remarked_ofAccessPoint`). The log of issues holds whatever the journal does
(`mem_issueLog`).
-/

namespace Substation

open Substation.Config
open Substation.Journal
open Substation.Model
open Substation.Template

/-! ## From the journal to the log -/

namespace Journal

theorem IssueLog.mem_pushAll {log : IssueLog} {is : List Issue} {i : Issue} :
    i ∈ (log.pushAll is).issues ↔ i ∈ log.issues ∨ i ∈ is := by
  induction is generalizing log with
  | nil => simp [pushAll]
  | cons j is ih =>
    have hpush : i ∈ (log.push j).issues ↔ i ∈ log.issues ∨ i = j := by
      unfold push
      split
      · rename_i hj
        have hmem : j ∈ log.issues := List.contains_iff_mem.mp hj
        exact ⟨Or.inl, fun h => h.elim id fun h => h ▸ hmem⟩
      · rw [List.mem_append, List.mem_singleton]
    rw [show log.pushAll (j :: is) = (log.push j).pushAll is from rfl, ih, hpush, List.mem_cons,
      or_assoc]

/-- An issue is in the log if and only if it is in the part for its severity. -/
theorem IssueLog.mem_ofSeverity_iff {log : IssueLog} {i : Issue} {s : Severity}
    (h : i.severity = s) : i ∈ log.ofSeverity s ↔ i ∈ log.issues := by
  simp [ofSeverity, h]

theorem mem_issuesOf {es : List Entry} {i : Issue} :
    i ∈ issuesOf es ↔ ∃ f, .finding f ∈ es ∧ f.issue = i := by
  rw [issuesOf, List.mem_filterMap]
  constructor
  · rintro ⟨e, he, hissue⟩
    cases e with
    | finding f => exact ⟨f, he, Option.some.inj hissue⟩
    | _ => cases hissue
  · rintro ⟨f, hf, rfl⟩
    exact ⟨_, hf, rfl⟩

/-- A log holds the issues of its journal. -/
theorem mem_issueLog {entries : List Entry} {i : Issue} :
    i ∈ (issueLog entries).issues ↔ i ∈ issuesOf entries := by
  rw [issueLog, IssueLog.ofList, IssueLog.mem_pushAll]
  exact or_iff_right List.not_mem_nil

theorem mem_issueLog_of_finding {entries : List Entry} {f : Finding}
    (h : .finding f ∈ entries) : f.issue ∈ (issueLog entries).issues :=
  mem_issueLog.mpr (mem_issuesOf.mpr ⟨f, h, rfl⟩)

/-- A finding that is an error is among the errors of the log. -/
theorem mem_errors_of_finding {entries : List Entry} {f : Finding} (h : .finding f ∈ entries)
    (hf : f.issue.severity = .error) : f.issue ∈ (issueLog entries).errors :=
  (IssueLog.mem_ofSeverity_iff hf).mpr (mem_issueLog_of_finding h)

end Journal

/-! ## Checks only remark -/

namespace Resolution

variable {r : Registry} {e : Entry} {g g' g'' : Growth}

theorem mem_appendList {es : Array Entry} {es' : List Entry} :
    e ∈ es ++ es' ↔ e ∈ es ∨ e ∈ es' := by
  rw [← Array.mem_toList_iff, Array.toList_appendList, List.mem_append, Array.mem_toList_iff]

theorem mem_report_iff {fs : List Finding} :
    e ∈ (g.report fs).journal ↔ e ∈ g.journal ∨ ∃ f ∈ fs, .finding f = e := by
  rw [Growth.report, mem_appendList, List.mem_map]

theorem filterMap_mark?_findings (fs : List Finding) :
    (fs.map Entry.finding).filterMap Entry.mark? = [] := by
  rw [List.filterMap_map]
  exact List.filterMap_eq_nil_iff.mpr fun _ _ => rfl

/-- The journal has grown, but by no mark. -/
def Remarked (g g' : Growth) : Prop :=
  ∃ es : List Entry, g'.journal.toList = g.journal.toList ++ es ∧ es.filterMap Entry.mark? = []

namespace Remarked

theorem refl (g : Growth) : Remarked g g := ⟨[], (List.append_nil _).symm, rfl⟩

theorem trans (h : Remarked g g') (h' : Remarked g' g'') : Remarked g g'' := by
  obtain ⟨es, hes, hmarks⟩ := h
  obtain ⟨es', hes', hmarks'⟩ := h'
  exact ⟨es ++ es', by rw [hes', hes, List.append_assoc],
    by rw [List.filterMap_append, hmarks, hmarks', List.append_nil]⟩

theorem report (g : Growth) (fs : List Finding) : Remarked g (g.report fs) :=
  ⟨fs.map .finding, Array.toList_appendList, filterMap_mark?_findings fs⟩

theorem isPrefix (h : Remarked g g') : g.journal.toList <+: g'.journal.toList := by
  obtain ⟨es, hes, -⟩ := h
  exact ⟨es, hes.symm⟩

theorem mem (h : Remarked g g') (he : e ∈ g.journal) : e ∈ g'.journal :=
  Array.mem_toList_iff.mp (h.isPrefix.subset (Array.mem_toList_iff.mpr he))

end Remarked

theorem remarked_checkSpace (device ln target : Nat) (name : String) (g : Growth) :
    Remarked g (checkSpace device ln target name g) := by
  unfold checkSpace
  split
  · exact .refl g
  · split
    · exact .refl g
    · simp only
      split
      · exact .report g _
      · exact .report g _

theorem remarked_checkSpaces (device ln : Nat) (config : LogicalNode) (g : Growth) :
    Remarked g (checkSpaces device ln config g) := by
  unfold checkSpaces
  split
  · exact (remarked_checkSpace device ln device "ldNs" g).trans (remarked_checkSpace ..)
  · exact remarked_checkSpace ..

/-- A check of a logical node begins with its instance values and adds remarks to that. -/
theorem remarked_checkNode (o : ResolveOptions) (inst : String) (device ln : Nat)
    (config : LogicalNode) (g : Growth) :
    Remarked (g.report ((g.model.branch? ln).toList.flatMap (instanceFindings r)))
      (checkNode r o inst device ln config g) := by
  unfold checkNode
  simp only
  split
  · split
    · exact (Remarked.report _ _).trans (remarked_checkSpaces ..)
    · exact remarked_checkSpaces ..
  · split
    · exact .report _ _
    · exact .refl _

/-! ## The end of a resolution -/

/-- What follows the building of the model adds remarks to the journal. -/
theorem remarked_ofAccessPoint (d : Document) (o : ResolveOptions) (i : Ied) (a : AccessPoint) :
    ∃ es, (ofAccessPoint d o i a).journal = (built d o i a).journal.toList ++ es ∧
      es.filterMap Entry.mark? = [] := by
  obtain ⟨n, hjournal⟩ := exists_journal_ofAccessPoint d o i a
  have hmembers : (memberEntries d o (built d o i a).model).filterMap Entry.mark? = [] := by
    unfold memberEntries
    split
    · exact filterMap_mark?_findings _
    · rfl
  have hconnection : ∀ cap?, (connectionEntries ⟨i.name, a.name⟩ cap?).filterMap Entry.mark? = []
    | none => rfl
    | some cap => filterMap_mark?_findings _
  refine ⟨_, hjournal, ?_⟩
  rw [List.filterMap_append, List.filterMap_append, hmembers, hconnection]
  rfl

end Resolution

end Substation
