import Mathlib.Tactic.Common
import Substation.Proofs.LimitedSinks
import Substation.Proofs.Repetitions

/-!
# A generation by its parts

A generation resolves an access point, collects the use of its templates and writes its static
model. The collection in between leaves no trace in the static model (`emit_trackUsage`), and the
issues of reading, resolving and writing come together in this order, each once
(`issues_gathered`). So a generation is no more than its parts (`generate_by_parts`).

Results:
* `emit_trackUsage` (`track_usage`): the collection of uses does not show in the text;
* `issues_gathered` (`IssueLog::merge`): the issues come together in order;
* `generate_by_parts` (`generate_static_model`): a generation is no more than its parts.
-/

namespace Substation

open Substation.Journal

/-- The use of templates is not written. -/
theorem emit_trackUsage (d : Document) (ro : ResolveOptions) (res : Resolution) (eo : EmitOptions)
    (limit : Option Nat) : emit d (res.trackUsage d ro) eo limit = emit d res eo limit := rfl

/-- The issues that come together are the first occurrences of all. -/
theorem issues_gathered (d : Document) (res : Resolution) (found : IssueLog) :
    (res.gathered d found).issues =
      (d.issues.issues ++ res.issues.issues ++ found.issues).eraseDups := by
  have hread : d.issues.issues = (issuesOf d.journal).eraseDups := IssueLog.issues_ofList _
  have hresolved : (d.issues.merge res.issues).issues =
      (issuesOf d.journal ++ res.issues.issues).eraseDups := IssueLog.issues_merge hread _
  calc (res.gathered d found).issues
      = (issuesOf d.journal ++ res.issues.issues ++ found.issues).eraseDups :=
        IssueLog.issues_merge hresolved _
    _ = ((issuesOf d.journal ++ res.issues.issues).eraseDups ++ found.issues).eraseDups :=
        (eraseDups_append_left _ _).symm
    _ = ((d.issues.issues ++ res.issues.issues).eraseDups ++ found.issues).eraseDups := by
        rw [hread, eraseDups_append_left (issuesOf d.journal)]
    _ = (d.issues.issues ++ res.issues.issues ++ found.issues).eraseDups :=
        eraseDups_append_left _ _

variable {d : Document} {ied : String} {ap : Option String} {ro : ResolveOptions} {eo : EmitOptions}

/-- A resolution fails only if there is no such IED or no such access point. -/
theorem failure_of_resolve {failure : Failure} (h : resolve d ied ap ro = .error failure) :
    failure = .noIed ied ∨ failure = .noAccessPoint ied (ap.getD "") := by
  unfold resolve at h
  split at h
  · exact Or.inl (Except.error.inj h).symm
  · split at h
    · exact Or.inr (Except.error.inj h).symm
    · exact nomatch h

theorem generate_of_error {failure : Failure} (h : resolve d ied ap ro = .error failure)
    (limit : Option Nat) : generate d ied ap ro eo limit =
      { outcome := .error failure, text := "", log := [] } := by
  rw [generate, h]

/-- The only failure of a writing is a sink that is full. -/
theorem failure_of_emit {res : Resolution} {limit : Option Nat} {failure : Failure}
    (h : (emit d res eo limit).outcome = .error failure) : failure = .sinkFull := by
  unfold Output.outcome at h
  split at h
  · exact nomatch h
  · exact (Except.error.inj h).symm

/-- **A generation is the composition of its parts.** It fails for want of the IED or of the access
point exactly if the resolution does, and then writes nothing. Otherwise it writes, into whatever
sink, what the writing of the resolution does, fails exactly if that fails, and else gives the
issues of the document, of the resolution and of the writing in this order, each once. Into a sink
without a limit the writing does not fail. -/
theorem generate_by_parts (d : Document) (ied : String) (ap : Option String) (ro : ResolveOptions)
    (eo : EmitOptions) (limit : Option Nat) :
    (∀ failure, failure ≠ .sinkFull →
      ((generate d ied ap ro eo limit).outcome = .error failure ↔
        resolve d ied ap ro = .error failure)) ∧
    (∀ failure, resolve d ied ap ro = .error failure →
      (failure = .noIed ied ∨ failure = .noAccessPoint ied (ap.getD "")) ∧
      (generate d ied ap ro eo limit).text = "") ∧
    ∀ res, resolve d ied ap ro = .ok res →
      (generate d ied ap ro eo limit).text = (emit d res eo limit).text ∧
      ((generate d ied ap ro eo limit).outcome = (emit d res eo limit).outcome.map fun found =>
        ⟨(d.issues.issues ++ res.issues.issues ++ found.issues).eraseDups⟩) ∧
      ∃ found, (emit d res eo none).outcome = .ok found := by
  refine ⟨fun failure hne => ?_, fun failure h => ?_, fun res h => ?_⟩
  · cases hres : resolve d ied ap ro with
    | error failure' =>
      rw [generate_of_error hres, Except.error.injEq, Except.error.injEq]
    | ok res =>
      refine ⟨fun h => absurd ?_ hne, fun h => nomatch h⟩
      rw [outcome_generate hres, emit_trackUsage] at h
      cases hout : (emit d res eo limit).outcome with
      | ok found =>
        rw [hout] at h
        exact nomatch h
      | error failure' =>
        rw [hout] at h
        exact Except.error.inj h ▸ failure_of_emit hout
  · exact ⟨failure_of_resolve h, by rw [generate_of_error h]⟩
  · refine ⟨by rw [text_generate h, emit_trackUsage], ?_, _, outcome_emit_none d res eo⟩
    rw [outcome_generate h, emit_trackUsage]
    have hgathered : res.gathered d = fun found =>
        ⟨(d.issues.issues ++ res.issues.issues ++ found.issues).eraseDups⟩ :=
      funext fun found => congrArg IssueLog.mk (issues_gathered d res found)
    rw [hgathered]

/-- There is one access point in `arrayDocument`, and it is the one of the IED `E`. -/
theorem generate_by_parts_array :
    (generate arrayDocument "F" none {} {} none).outcome = .error (.noIed "F") ∧
      (generate arrayDocument "F" none {} {} none).text = "" ∧
      ∃ res, resolve arrayDocument "E" none {} = .ok res ∧
        (generate arrayDocument "E" none {} {} none).text =
          (emit arrayDocument res {} none).text := by
  have hnone : resolve arrayDocument "F" none {} = .error (.noIed "F") := rfl
  have hsome : ∃ res, resolve arrayDocument "E" none {} = .ok res := ⟨_, rfl⟩
  obtain ⟨res, hok⟩ := hsome
  obtain ⟨hfails, hempty, -⟩ := generate_by_parts arrayDocument "F" none {} {} none
  obtain ⟨-, -, hwrites⟩ := generate_by_parts arrayDocument "E" none {} {} none
  exact ⟨(hfails _ (by decide)).2 hnone, (hempty _ hnone).2, res, hok, (hwrites res hok).1⟩

end Substation
