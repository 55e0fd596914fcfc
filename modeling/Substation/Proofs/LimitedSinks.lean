import Mathlib.Data.List.Basic
import Mathlib.Tactic.Common
import Substation.Generation
import Substation.Proofs.StaticText

/-!
# Writing into a sink with a limit

A sink that takes `limit` characters gets the first `limit` characters of the text that a sink
without a limit gets, and the writing fails exactly if there are more of them
(`writing_cut_at_limit`). A failure is never passed over: after the first piece that does not fit,
nothing else is written. `Took` says how one piece ends, and `took_run` that a whole script ends
like one piece.

Results:
* `took_run`: a script ends like one piece;
* `writing_cut_at_limit` (`emit_static_model`, `generate_static_model`): what is written into a sink
  that is too small.
-/

namespace Substation

open Substation.Config
open Substation.Emission
open Substation.Journal

namespace Emission

/-! ## One piece of text -/

/-- A sink that has counted its characters and kept its limit. -/
structure Sink.Sound (s : Sink) : Prop where
  size_eq : s.size = s.text.length
  size_le : ∀ limit, s.limit = some limit → s.size ≤ limit

namespace Script

/-- How a sink ends up when it is given a text along with entries of the journal: with all of it, or
filled up to its limit by the beginning of a text that is too long. -/
inductive Took (s : Sink) (text : List Char) (entries : List Entry) : Except Sink Sink → Prop
  | all {t : Sink} (adds : Adds text s t) (sound : t.Sound)
      (journal : t.journal.toList = s.journal.toList ++ entries) : Took s text entries (.ok t)
  | cut {t : Sink} {limit : Nat} (limited : s.limit = some limit)
      (exceeded : limit < s.text.length + text.length)
      (kept : t.text.toList = (s.text.toList ++ text).take limit) : Took s text entries (.error t)

variable {s : Sink}

theorem took_nothing (h : s.Sound) : Took s [] [] (.ok s) :=
  .all (.nil rfl rfl) h (List.append_nil _).symm

theorem took_enter (h : s.Sound) (e : Entry) : Took s [] [e] (.ok (s.enter e)) :=
  .all (.nil rfl rfl) ⟨h.size_eq, h.size_le⟩ Array.toList_push

theorem took_write (h : s.Sound) (text : String) : Took s text.toList [] (s.write text) := by
  have hsize : s.size + text.length = (s.text ++ text).length := by
    rw [h.size_eq, String.length_append]
  unfold Sink.write
  cases hlimit : s.limit with
  | none =>
    refine .all ⟨hlimit.symm, by simp⟩ ⟨hsize, ?_⟩ (List.append_nil _).symm
    intro limit hsome
    cases (hsome : none = some limit)
  | some limit =>
    by_cases hfits : s.size + text.length ≤ limit
    · simp only [hfits, if_true]
      refine .all ⟨hlimit.symm, by simp⟩ ⟨hsize, ?_⟩ (List.append_nil _).symm
      intro limit' hsome
      cases (hsome : some limit = some limit')
      exact hfits
    · simp only [hfits, if_false]
      have hle : s.text.length ≤ limit := h.size_eq ▸ h.size_le limit hlimit
      refine .cut hlimit (by rw [← h.size_eq, String.length_toList]; omega) ?_
      have hall : s.text.toList.take limit = s.text.toList :=
        List.take_of_length_le (by rwa [String.length_toList])
      rw [String.toList_append, String.toList_ofList, List.take_append, hall, h.size_eq,
        String.length_toList]

/-! ## One piece after another -/

section Sequence

variable {text text' : List Char} {entries entries' : List Entry}

/-- The second text comes after the first one if that has fitted. -/
theorem Took.andThen {r : Except Sink Sink} {next : Sink → Except Sink Sink}
    (h : Took s text entries r) (hnext : ∀ t, t.Sound → Took t text' entries' (next t)) :
    Took s (text ++ text') (entries ++ entries')
      (r.bind next) := by
  cases h with
  | cut limited exceeded kept =>
    rename_i t limit
    refine .cut limited (by rw [List.length_append]; omega) ?_
    rw [← List.append_assoc, List.take_append_of_le_length, kept]
    rw [List.length_append, String.length_toList]
    omega
  | all adds sound journal =>
    rename_i t
    show Took s _ _ (next t)
    obtain ⟨hlimit, htext⟩ := adds
    have hlist : t.text.toList = s.text.toList ++ text := by
      rw [htext, String.toList_append, String.toList_ofList]
    cases hr : next t with
    | ok u =>
      obtain ⟨adds', sound', journal'⟩ := hr ▸ hnext t sound
      exact .all (Adds.append ⟨hlimit, htext⟩ adds') sound' (by
        rw [journal', journal, List.append_assoc])
    | error u =>
      have hcut := hr ▸ hnext t sound
      cases hcut with
      | cut limited exceeded kept =>
        refine .cut (hlimit ▸ limited) ?_ (by rw [kept, hlist, List.append_assoc])
        rw [← String.length_toList, hlist] at exceeded
        rw [List.length_append] at exceeded ⊢
        rw [String.length_toList] at exceeded
        omega

theorem forEachFrom_succ (step : Nat → Sink → Except Sink Sink) (i n : Nat) (s : Sink) :
    forEachFrom step i (n + 1) s = (step i s).bind (forEachFrom step (i + 1) n) := by
  rw [forEachFrom]
  cases step i s <;> rfl

theorem run_append (first second : Script) (s : Sink) :
    (append first second).run s = (first.run s).bind second.run := by
  rw [run]
  cases first.run s <;> rfl

theorem took_forEachFrom {step : Nat → Sink → Except Sink Sink} {texts : Nat → List Char}
    {marks : Nat → List Entry} (hstep : ∀ i t, t.Sound → Took t (texts i) (marks i) (step i t))
    (n : Nat) : ∀ i s, s.Sound →
      Took s ((List.range' i n).flatMap texts) ((List.range' i n).flatMap marks)
        (forEachFrom step i n s) := by
  induction n with
  | zero => exact fun i s h => took_nothing h
  | succ n ih =>
    intro i s h
    rw [forEachFrom_succ, List.range'_succ, List.flatMap_cons, List.flatMap_cons]
    exact (hstep i s h).andThen (ih (i + 1))

end Sequence

/-- A script ends like one piece of text. -/
theorem took_run (script : Script) : ∀ s : Sink, s.Sound →
    Took s script.text script.entries (script.run s) := by
  induction script with
  | nil => exact fun s h => took_nothing h
  | line l =>
    intro s h
    have htext : (line l).text = (l ++ "\n").toList := by
      rw [String.toList_append]
      exact List.append_nil _
    rw [htext]
    exact took_write h (l ++ "\n")
  | remark e => exact fun s h => took_enter h e
  | append first second ih₁ ih₂ =>
    intro s h
    rw [text_append, run_append]
    exact (ih₁ s h).andThen ih₂
  | each count block ih =>
    intro s h
    rw [text_each, entries, List.range_eq_range']
    exact took_forEachFrom (fun i => ih i) count 0 s h

end Script

end Emission

/-! ## A static model -/

open Script (Took took_run)

variable (d : Document) (res : Resolution) (eo : EmitOptions)

/-- What a sink for `limit` characters makes of a writing whose issues and whose text are known: it
fails exactly if the text is longer than that, and keeps the beginning of the text. -/
structure CutAt (limit : Nat) (issues : IssueLog) (text : String)
    (outcome : Except Failure IssueLog) (kept : String) : Prop where
  outcome_eq : outcome = if text.length ≤ limit then .ok issues else .error .sinkFull
  kept_eq : kept.toList = text.toList.take limit

/-- The sink with which a writing starts. -/
def Resolution.sink (limit : Option Nat) : Sink :=
  { limit, journal := #[.note (.writing res.subject)] }

theorem sound_sink (limit : Option Nat) : (res.sink limit).Sound :=
  ⟨rfl, fun _ _ => Nat.zero_le _⟩

/-- The journal of a writing that was not stopped. -/
def Resolution.writtenJournal : List Entry :=
  let entries := .note (.writing res.subject) :: (res.statement d eo).script.entries
  entries ++ [.note (.written res.subject (issueLog entries).size)]

variable {d res eo}

theorem emit_of_run_ok {limit : Option Nat} {s : Sink}
    (h : (res.statement d eo).script.run (res.sink limit) = .ok s)
    (hjournal : s.journal.toList =
      (res.sink limit).journal.toList ++ (res.statement d eo).script.entries) :
    emit d res eo limit =
      { text := s.text, journal := res.writtenJournal d eo, isComplete := true } := by
  have hentries : s.journal.toList =
      .note (.writing res.subject) :: (res.statement d eo).script.entries := hjournal
  unfold Resolution.sink at h
  rw [emit, h, Resolution.writtenJournal, ← hentries]

theorem emit_of_run_error {limit : Option Nat} {s : Sink}
    (h : (res.statement d eo).script.run (res.sink limit) = .error s) :
    emit d res eo limit =
      { text := s.text, journal := s.journal.toList, isComplete := false } := by
  unfold Resolution.sink at h
  rw [emit, h]

variable (d res eo)

theorem outcome_emit_none :
    (emit d res eo none).outcome = .ok (issueLog (res.writtenJournal d eo)) := by
  cases hrun : (res.statement d eo).script.run (res.sink none) with
  | error s =>
    cases hrun ▸ took_run (res.statement d eo).script _ (sound_sink res none) with
    | cut limited => cases (limited : none = some _)
  | ok s =>
    cases hrun ▸ took_run (res.statement d eo).script _ (sound_sink res none) with
    | all adds sound journal =>
      rw [emit_of_run_ok hrun journal]
      rfl

theorem cutAt_emit (limit : Nat) :
    CutAt limit (issueLog (res.writtenJournal d eo)) (emit d res eo none).text
      (emit d res eo (some limit)).outcome (emit d res eo (some limit)).text := by
  have hfull : (emit d res eo none).text.toList = (res.statement d eo).script.text := by
    rw [text_emit isComplete_emit, String.toList_ofList]
  have hlength : (emit d res eo none).text.length = (res.statement d eo).script.text.length := by
    rw [← String.length_toList, hfull]
  cases hrun : (res.statement d eo).script.run (res.sink (some limit)) with
  | error s =>
    cases hrun ▸ took_run (res.statement d eo).script _ (sound_sink res (some limit)) with
    | cut limited exceeded kept =>
      rename_i limit'
      cases (limited : some limit = some limit')
      have hover : limit < 0 + (res.statement d eo).script.text.length := exceeded
      rw [emit_of_run_error hrun]
      refine ⟨?_, ?_⟩
      · rw [hlength, if_neg (by omega)]
        rfl
      · rw [hfull]
        exact kept
  | ok s =>
    cases hrun ▸ took_run (res.statement d eo).script _ (sound_sink res (some limit)) with
    | all adds sound journal =>
      have htext : s.text.toList = (res.statement d eo).script.text := by
        rw [adds.2]
        simp [Resolution.sink]
      have hle : s.text.length ≤ limit := sound.size_eq ▸ sound.size_le limit adds.1
      rw [← String.length_toList, htext] at hle
      rw [emit_of_run_ok hrun journal]
      refine ⟨?_, ?_⟩
      · rw [hlength, if_pos hle]
        rfl
      · rw [hfull, List.take_of_length_le hle]
        exact htext

/-! ## A generation -/

variable {d res eo}

/-- The issues that come together when a writing has found some. -/
def Resolution.gathered (res : Resolution) (d : Document) (found : IssueLog) : IssueLog :=
  (d.issues.merge res.issues).merge found

theorem CutAt.map {limit : Nat} {issues : IssueLog} {text kept : String}
    {outcome : Except Failure IssueLog} (h : CutAt limit issues text outcome kept)
    (f : IssueLog → IssueLog) : CutAt limit (f issues) text (outcome.map f) kept := by
  refine ⟨?_, h.kept_eq⟩
  rw [h.outcome_eq]
  split <;> rfl

section Generate

variable {ied : String} {ap : Option String} {ro : ResolveOptions}

theorem text_generate (h : resolve d ied ap ro = .ok res) (limit : Option Nat) :
    (generate d ied ap ro eo limit).text = (emit d (res.trackUsage d ro) eo limit).text := by
  simp only [generate, h]
  cases (emit d (res.trackUsage d ro) eo limit).outcome <;> rfl

theorem outcome_generate (h : resolve d ied ap ro = .ok res) (limit : Option Nat) :
    (generate d ied ap ro eo limit).outcome =
      (emit d (res.trackUsage d ro) eo limit).outcome.map (res.gathered d) := by
  simp only [generate, h]
  cases (emit d (res.trackUsage d ro) eo limit).outcome <;> rfl

end Generate

/-- **A sink that is too small gets the beginning of the static model.** Into a sink without a limit
a static model is always written; into a sink for `limit` characters exactly the first `limit`
characters of that text are, and the writing fails, as a sink that is full, exactly if there are
more. So it is for a generation once the access point is found. -/
theorem writing_cut_at_limit (d : Document) (eo : EmitOptions) (limit : Nat) :
    (∀ res : Resolution, ∃ issues, (emit d res eo none).outcome = .ok issues ∧
      CutAt limit issues (emit d res eo none).text
        (emit d res eo (some limit)).outcome (emit d res eo (some limit)).text) ∧
    ∀ (ied : String) (ap : Option String) (ro : ResolveOptions) (res : Resolution),
      resolve d ied ap ro = .ok res → ∃ issues,
        (generate d ied ap ro eo none).outcome = .ok issues ∧
        CutAt limit issues (generate d ied ap ro eo none).text
          (generate d ied ap ro eo (some limit)).outcome
          (generate d ied ap ro eo (some limit)).text := by
  constructor
  · intro res
    exact ⟨_, outcome_emit_none d res eo, cutAt_emit d res eo limit⟩
  · intro ied ap ro res hres
    let issues := issueLog ((res.trackUsage d ro).writtenJournal d eo)
    refine ⟨res.gathered d issues, ?_, ?_⟩
    · rw [outcome_generate hres, outcome_emit_none]
      rfl
    · rw [outcome_generate hres, text_generate hres, text_generate hres]
      exact (cutAt_emit d (res.trackUsage d ro) eo limit).map (res.gathered d)

/-- A sink for twelve characters, and one that takes all, for the static model of
`arrayDocument`. -/
theorem writing_cut_at_limit_twelve :
    (∃ res, resolve arrayDocument "E" none {} = .ok res) ∧
      (generate arrayDocument "E" none {} {} (some 12)).outcome = .error .sinkFull ∧
      (generate arrayDocument "E" none {} {} (some 12)).text = "MODEL(E)\x7b\nLD" ∧
      ∃ issues, (generate arrayDocument "E" none {} {} none).outcome = .ok issues ∧
        CutAt 12 issues (generate arrayDocument "E" none {} {} none).text
          (generate arrayDocument "E" none {} {} (some 12)).outcome
          (generate arrayDocument "E" none {} {} (some 12)).text := by
  have hres : ∃ res, resolve arrayDocument "E" none {} = .ok res := ⟨_, rfl⟩
  obtain ⟨res, hok⟩ := hres
  obtain ⟨issues, hfull, hcut⟩ :=
    (writing_cut_at_limit arrayDocument {} 12).2 "E" none {} res hok
  exact ⟨⟨res, hok⟩, by decide +kernel, by decide +kernel, issues, hfull, hcut⟩

end Substation
