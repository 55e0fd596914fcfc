import Mathlib.Data.List.Nodup
import Mathlib.Tactic.Common
import Substation.Proofs.Generations
import Substation.Proofs.InstanceIssues
import Substation.Proofs.Topics

/-!
# Issues in the log

An issue is logged when a log of issues records it. A journal logs each of its issues once
(`count_logLines`), and no note looks like an issue (`logLine_note_ne`). But a generation records
its issues in two logs: in that of the resolution or of the writing, and again when these come
together with the log of the document. So each issue gives two lines, unless reading the document
has found it before (`issues_logged_twice`).

Results:
* `count_logLines` (`IssueLog::push`): a log of issues logs each once;
* `issues_logged_twice` (`generate_static_model`, `IssueLog::merge`): the lines of a whole
  generation;
* `missing_type_logged_twice`: a line that is there twice.
-/

namespace Substation

open Substation.Emission
open Substation.Journal

/-! ## Lines -/

namespace Journal

/-- The line of an issue begins with its mark. -/
theorem Issue.mark_isPrefix (i : Issue) : ['[', 'S', 'C', 'L', ']'] <+: i.logLine.text.toList := by
  simp only [logLine, String.append_assoc]
  have hmark : "[SCL] " = String.ofList (['[', 'S', 'C', 'L', ']'] ++ [' ']) := rfl
  exact isPrefix_toList_append hmark _

/-- The line of an issue ends with a parenthesis. -/
theorem Issue.getLast?_logLine (i : Issue) : i.logLine.text.toList.getLast? = some ')' := by
  rw [logLine, String.toList_append]
  exact List.getLast?_concat

/-- What is marked with an access point is not marked as an issue. -/
theorem not_mark_isPrefix_deviceTag (s : Subject) (device : String) (rest : String) :
    ¬ ['[', 'S', 'C', 'L', ']'] <+: (s.deviceTag device ++ rest).toList := by
  intro h
  have htag : ['[', 'i', 'e', 'd', '='] <+: (s.deviceTag device ++ rest).toList := by
    simp only [Subject.deviceTag, String.append_assoc]
    have hopening : "[ied=" = String.ofList (['[', 'i', 'e', 'd', '='] ++ []) := rfl
    exact isPrefix_toList_append hopening _
  exact absurd (List.prefix_of_prefix_length_le h htag (Nat.le_refl _)) (by decide)

/-- **A note does not look like an issue.** Most are not important enough; those that are end in
another way or carry another mark. -/
theorem logLine_note_ne (n : Note) (i : Issue) : n.logLine ≠ i.logLine := by
  intro h
  have hlevel : n.logLine.level = i.severity.level := congrArg LogLine.level h
  have hmark := i.mark_isPrefix
  have hlast := i.getLast?_logLine
  rw [← h] at hmark hlast
  cases n with
  | duplicateTemplate kind id =>
    have hend : "\", keeping the first definition".toList.getLast? = some 'n' := by decide
    rw [Note.logLine, String.toList_append, List.getLast?_append, hend, Option.some_or] at hlast
    exact absurd hlast (by decide)
  | noGse subject device name =>
    simp only [Note.logLine, String.append_assoc] at hmark
    exact not_mark_isPrefix_deviceTag subject device _ hmark
  | noSampled subject device name =>
    simp only [Note.logLine, String.append_assoc] at hmark
    exact not_mark_isPrefix_deviceTag subject device _ hmark
  | _ => cases hs : i.severity <;> rw [hs] at hlevel <;> exact nomatch hlevel

/-- **A journal logs what is new in it**, each issue once. By induction on the journal, for any
issues recorded before. -/
theorem count_logLines (known : IssueLog) (es : List Entry) (i : Issue) :
    (logLines known es).count i.logLine =
      ((known.news (issuesOf es)).map Issue.logLine).count i.logLine := by
  induction es generalizing known with
  | nil => rfl
  | cons e es ih =>
    cases e with
    | mark m => exact ih known
    | note n =>
      rw [logLines, List.count_cons_of_ne (logLine_note_ne n i)]
      exact ih known
    | finding f =>
      have hissues : issuesOf (.finding f :: es) = f.issue :: issuesOf es := rfl
      rw [logLines, hissues, IssueLog.news]
      split
      · exact ih known
      · rw [List.map_cons, List.count_cons, List.count_cons, ih]

/-- From the beginning, a journal logs the issues of its log. -/
theorem count_logLines_empty (es : List Entry) (i : Issue) :
    (logLines {} es).count i.logLine =
      ((issueLog es).issues.map Issue.logLine).count i.logLine := by
  have hnews : ({} : IssueLog).news (issuesOf es) = (issueLog es).issues := by
    rw [issueLog, IssueLog.ofList, IssueLog.issues_pushAll]
    rfl
  rw [count_logLines, hnews]

/-- A log keeps no issue twice. -/
theorem nodup_issueLog (es : List Entry) : (issueLog es).issues.Nodup := by
  rw [issueLog, IssueLog.issues_ofList]
  exact nodup_eraseDups _

/-- Of the issues of a journal, those are new for a log that it does not hold. -/
theorem news_issueLog (log : IssueLog) (es : List Entry) :
    log.news (issueLog es).issues = (issueLog es).issues.filter (· ∉ log.issues) := by
  rw [IssueLog.news_eq, List.removeAll, issueLog, IssueLog.issues_ofList, eraseDups_filter,
    eraseDups_eraseDups]
  exact List.filter_congr fun i _ => by simp

end Journal

/-! ## What a writing finds -/

namespace Emission

variable {ts : List Topic}

namespace Script

theorem about_concat {ss : List Script} (h : ∀ s ∈ ss, About ts s.entries) :
    About ts (concat ss).entries := by
  rw [entries_concat]
  exact about_flatMap.mpr h

theorem about_each {count : Nat} {block : Nat → Script} (h : ∀ i, About ts (block i).entries) :
    About ts (each count block).entries :=
  about_flatMap.mpr fun i _ => h i

theorem about_block {head : String} {body : Script} (h : About ts body.entries) :
    About ts (block head body).entries := by
  rw [block, entries_append, entries_append]
  simpa [entries] using h

end Script

open Script

mutual

theorem about_dataScript : ∀ s : DataStatement, About ts s.script.entries
  | .object name count parts => by
    rw [DataStatement.script]
    refine about_block ?_
    split
    · exact about_dataScripts parts
    · exact about_each fun _ => about_block (about_dataScripts parts)
  | .group f parts => by
    rw [DataStatement.script]
    split
    · exact about_block (about_dataScripts parts)
    · exact about_block (about_each fun _ => about_block (about_dataScripts parts))
  | .value f literal => by
    rw [DataStatement.script]
    split
    · exact about_nil
    · exact about_block (about_each fun _ => about_nil)

theorem about_dataScripts : ∀ ss : List DataStatement,
    About ts (DataStatement.scriptAll ss).entries
  | [] => about_nil
  | s :: ss => by
    rw [DataStatement.scriptAll, entries_append]
    exact about_append.mpr ⟨about_dataScript s, about_dataScripts ss⟩

end

theorem about_remarked {α : Type} {lines : α → Script} {r : Remarked α}
    (hremarks : About ts r.remarks) (hlines : ∀ a, About ts (lines a).entries) :
    About ts (r.script lines).entries := by
  rw [Remarked.script, entries_append, entries_remarks]
  exact about_append.mpr ⟨hremarks, hlines _⟩

theorem about_reportScript (s : ReportStatement) : About ts s.script.entries := by
  unfold ReportStatement.script
  split
  · exact about_nil
  · exact about_each fun _ => about_nil

theorem about_frameScript (head : String) : ∀ f : Option Frame,
    About ts (Frame.script head f).entries
  | none => about_nil
  | some _ => about_nil

section Statements

variable (w : Setting) (device : String) (ln : Model.Branch)

theorem about_dataSetScript (d : Config.DataSet) :
    About [.index] (Setting.dataSetStatement device ln d).script.entries := by
  refine about_block (about_concat (List.forall_mem_map.mpr fun m hm => ?_))
  obtain ⟨f, -, rfl⟩ := List.mem_map.mp hm
  refine about_remarked ?_ fun _ => about_nil
  intro f' hf'
  obtain ⟨text, -, heq⟩ := List.mem_map.mp hf'
  obtain rfl := Entry.finding.inj heq
  exact List.mem_singleton.mpr rfl

theorem about_gseScript (c : Config.GseControl) :
    About [.index] ((w.gseStatement device c).script GseStatement.script).entries := by
  refine about_remarked ?_ fun s => about_frameScript _ _
  unfold Setting.gseStatement
  simp only
  split <;> simp

theorem about_sampledScript (c : Config.SampledControl) :
    About [.index] ((w.sampledStatement device c).script SampledStatement.script).entries := by
  refine about_remarked ?_ fun s => about_frameScript _ _
  unfold Setting.sampledStatement
  simp only
  split <;> simp

/-- Writing a logical node finds array indices only; what is entered beside are notes. -/
theorem about_nodeScript (config : Config.LogicalNode) :
    About [.index] (w.nodeStatement device ln config).script.entries := by
  refine about_block (about_concat ?_)
  simp only [List.forall_mem_cons, Setting.nodeStatement]
  refine ⟨?settings, about_dataScripts _, ?dataSets, ?reports, ?logControls, ?logs, ?gseControls,
    ?sampledControls, ?closing, nofun⟩
  case settings => exact about_concat (List.forall_mem_map.mpr fun _ _ => about_nil)
  case dataSets =>
    exact about_concat <| List.forall_mem_map.mpr <| List.forall_mem_map.mpr
      fun d _ => about_dataSetScript device ln d
  case reports => exact about_concat (List.forall_mem_map.mpr fun s _ => about_reportScript s)
  case logControls => exact about_concat (List.forall_mem_map.mpr fun _ _ => about_nil)
  case logs => exact about_concat (List.forall_mem_map.mpr fun _ _ => about_nil)
  case gseControls =>
    exact about_concat <| List.forall_mem_map.mpr <| List.forall_mem_map.mpr
      fun c _ => about_gseScript w device c
  case sampledControls =>
    exact about_concat <| List.forall_mem_map.mpr <| List.forall_mem_map.mpr
      fun c _ => about_sampledScript w device c
  case closing =>
    rw [entries_remarks]
    simp

/-- **Writing finds array indices only.** -/
theorem about_modelScript : About [.index] w.modelStatement.script.entries := by
  refine about_block (about_concat (List.forall_mem_map.mpr fun s hs => ?_))
  obtain ⟨b, -, hb⟩ := List.mem_filterMap.mp hs
  unfold Setting.deviceStatement? at hb
  split at hb
  · obtain rfl := Option.some.inj hb
    refine about_block (about_concat (List.forall_mem_map.mpr fun s hs => ?_))
    obtain ⟨ln, -, hln⟩ := List.mem_filterMap.mp hs
    obtain ⟨config, -, rfl⟩ := Option.map_eq_some_iff.mp hln
    exact about_nodeScript w _ ln config
  · exact nomatch hb

end Statements

end Emission

variable {d : Document} {res : Resolution} {eo : EmitOptions} {limit : Option Nat}
  {found : IssueLog}

theorem about_writtenJournal : About [.index] (res.writtenJournal d eo) := by
  rw [Resolution.writtenJournal]
  refine about_append.mpr ⟨about_note_cons.mpr ?_, about_note_cons.mpr about_nil⟩
  exact about_modelScript (res.setting d eo)

/-- A writing that succeeds leaves its whole journal. -/
theorem journal_emit (h : (emit d res eo limit).outcome = .ok found) :
    (emit d res eo limit).journal = res.writtenJournal d eo := by
  cases hrun : (res.statement d eo).script.run (res.sink limit) with
  | error s =>
    rw [emit_of_run_error hrun] at h
    exact nomatch h
  | ok s =>
    cases hrun ▸ Script.took_run (res.statement d eo).script _ (sound_sink res limit) with
    | all adds sound journal => rw [emit_of_run_ok hrun journal]

theorem issues_of_outcome (h : (emit d res eo limit).outcome = .ok found) :
    found = issueLog (res.writtenJournal d eo) := by
  rw [← journal_emit h]
  unfold Output.outcome at h
  split at h
  · exact (Except.ok.inj h).symm
  · exact nomatch h

/-- A message about an array index begins like one about a member, but it ends with a quotation
mark. -/
theorem issue_ne_of_topic {f f' : Finding} (h : f.topic ∈ Resolution.resolutionTopics)
    (h' : f'.topic = .index) : f.issue ≠ f'.issue := by
  intro heq
  have hopening : ['F', 'C', 'D'] <+: f.issue.message.toList := by
    cases f' with
    | badIndex set member text => exact heq ▸ (Finding.badIndex set member text).opening_isPrefix
    | _ => cases h'
  have htopic : f.topic = .member :=
    Resolution.topic_eq_of_isPrefix h (by decide) (List.mem_singleton.mpr rfl) hopening
  have hend : ∀ front back : String, (front ++ back).toList.getLast? =
      back.toList.getLast?.or front.toList.getLast? := by
    intro front back
    rw [String.toList_append, List.getLast?_append]
  cases f with
  | unknownMember set member =>
    cases f' with
    | badIndex set' member' text =>
      have hlast := congrArg (fun i => i.message.toList.getLast?) heq
      have htemplates : " not found on data type templates".toList.getLast? = some 's' := by decide
      have hquote : "\"".toList.getLast? = some '"' := by decide
      simp only [Finding.issue, Finding.fail, hend, htemplates, hquote, Option.some_or] at hlast
      exact absurd hlast (by decide)
    | _ => cases h'
  | _ => cases htopic

section Generate

variable {ied : String} {ap : Option String} {ro : ResolveOptions} {i : Issue}

/-- **What a writing finds has not been found by the resolution.** -/
theorem not_mem_found (h : resolve d ied ap ro = .ok res)
    (hfound : (emit d res eo limit).outcome = .ok found) (hi : i ∈ res.issues.issues) :
    i ∉ found.issues := by
  obtain ⟨i', a, -, -, rfl⟩ := Resolution.exists_of_resolve h
  obtain ⟨f, hf, rfl⟩ := mem_issuesOf.mp (mem_issueLog.mp hi)
  rw [issues_of_outcome hfound, mem_issueLog, mem_issuesOf]
  rintro ⟨f', hf', heq⟩
  exact issue_ne_of_topic (Resolution.about_ofAccessPoint d ro i' a f hf)
    (List.mem_singleton.mp (about_writtenJournal f' hf')) heq.symm

/-! ## The log of a generation -/

theorem log_generate (h : resolve d ied ap ro = .ok res)
    (hfound : (emit d res eo limit).outcome = .ok found) :
    (generate d ied ap ro eo limit).log = logLines {} res.journal ++
      logLines {} (usageNotes d ied (res.trackUsage d ro)) ++
      logLines {} (res.writtenJournal d eo) ++
      (d.issues.news res.issues.issues).map Issue.logLine ++
      ((d.issues.merge res.issues).news found.issues).map Issue.logLine := by
  have houtcome : (emit d (res.trackUsage d ro) eo limit).outcome = .ok found := hfound
  rw [← journal_emit hfound]
  simp only [generate, h, houtcome, mergeLogged]
  rfl

/-- The use of templates raises no issues. -/
theorem issuesOf_usageNotes : issuesOf (usageNotes d ied res) = [] := by
  unfold usageNotes
  simp only
  split <;> rfl

/-- The issues that a generation logs, one for each line: all that are found, and then again those
that reading the document has not found. -/
def Resolution.loggedIssues (res : Resolution) (d : Document) (found : IssueLog) : List Issue :=
  res.issues.issues ++ found.issues ++
    (res.issues.issues ++ found.issues).filter (· ∉ d.issues.issues)

theorem count_log (h : resolve d ied ap ro = .ok res)
    (hfound : (emit d res eo limit).outcome = .ok found) (i : Issue) :
    (generate d ied ap ro eo limit).log.count i.logLine =
      ((res.loggedIssues d found).map Issue.logLine).count i.logLine := by
  have husage : (logLines {} (usageNotes d ied (res.trackUsage d ro))).count i.logLine = 0 := by
    rw [count_logLines, issuesOf_usageNotes]
    rfl
  have hresolved : d.issues.news res.issues.issues =
      res.issues.issues.filter (· ∉ d.issues.issues) := news_issueLog d.issues res.journal
  have hwritten : (d.issues.merge res.issues).news found.issues =
      found.issues.filter (· ∉ d.issues.issues) := by
    rw [issues_of_outcome hfound, news_issueLog, ← issues_of_outcome hfound]
    refine List.filter_congr fun j hj => ?_
    have hnot : j ∉ res.issues.issues := fun hres => not_mem_found h hfound hres hj
    simp [IssueLog.merge, IssueLog.mem_pushAll, hnot]
  rw [log_generate h hfound, Resolution.loggedIssues, hresolved, hwritten]
  simp only [List.count_append, List.map_append, List.filter_append, count_logLines_empty, husage,
    ← issues_of_outcome hfound, Resolution.issues]
  omega

theorem count_loggedIssues (h : resolve d ied ap ro = .ok res)
    (hfound : (emit d res eo limit).outcome = .ok found) (i : Issue) :
    (res.loggedIssues d found).count i =
      if i ∈ res.issues.issues ∨ i ∈ found.issues then if i ∈ d.issues.issues then 1 else 2
      else 0 := by
  have hnodup : (res.issues.issues ++ found.issues).Nodup := by
    refine List.nodup_append.mpr ⟨nodup_issueLog _, ?_, ?_⟩
    · rw [issues_of_outcome hfound]
      exact nodup_issueLog _
    · rintro i hi j hj rfl
      exact not_mem_found h hfound hi hj
  rw [Resolution.loggedIssues, List.count_append, hnodup.count, (hnodup.filter _).count]
  simp only [List.mem_filter, List.mem_append, decide_eq_true_eq]
  by_cases hrecorded : i ∈ res.issues.issues ∨ i ∈ found.issues
  · by_cases hread : i ∈ d.issues.issues <;> simp [hrecorded, hread]
  · simp [hrecorded]

/-- **Each issue is logged twice.** The lines of issues that a generation logs are those of
`loggedIssues`, which holds every issue of the resolution and of the writing: once if reading the
document has found it before, and twice else. -/
theorem issues_logged_twice {issues : IssueLog}
    (h : (generate d ied ap ro eo limit).outcome = .ok issues) :
    ∃ res found, resolve d ied ap ro = .ok res ∧
      (emit d res eo limit).outcome = .ok found ∧
      (∀ i : Issue, (generate d ied ap ro eo limit).log.count i.logLine =
        ((res.loggedIssues d found).map Issue.logLine).count i.logLine) ∧
      (∀ i, (res.loggedIssues d found).count i =
        if i ∈ res.issues.issues ∨ i ∈ found.issues then if i ∈ d.issues.issues then 1 else 2
        else 0) ∧
      ∀ i ∈ res.issues.issues, i ∉ d.issues.issues →
        2 ≤ (generate d ied ap ro eo limit).log.count i.logLine := by
  cases hres : resolve d ied ap ro with
  | error failure =>
    rw [generate_of_error hres] at h
    exact nomatch h
  | ok res =>
    rw [outcome_generate hres, emit_trackUsage] at h
    cases hfound : (emit d res eo limit).outcome with
    | error failure =>
      rw [hfound] at h
      exact nomatch h
    | ok found =>
      have hlines := count_log hres hfound
      have hissues := count_loggedIssues hres hfound
      refine ⟨res, found, rfl, hfound, hlines, hissues, fun i hi hread => ?_⟩
      have htwice : (res.loggedIssues d found).count i = 2 := by
        rw [hissues, if_pos (Or.inl hi), if_neg hread]
      rw [hlines, ← htwice]
      exact List.count_le_count_map

end Generate

/-- A logical node without a type. -/
def untypedNode : Config.LogicalNode :=
  ⟨"GGIO", "T", "1", none, none, [], [], [], [], [], [], [], none⟩

/-- A document with that logical node and without templates. -/
def untypedDocument : Document :=
  ⟨⟨none, none, none, none, none,
    [⟨"E", none, none, none, [⟨"A", some ⟨[⟨"LD", none, none, none, [untypedNode]⟩]⟩⟩]⟩], none⟩,
    {}, []⟩

/-- Its static model can be generated. -/
theorem exists_outcome_untyped : ∃ res issues, resolve untypedDocument "E" none {} = .ok res ∧
    (generate untypedDocument "E" none {} {} none).outcome = .ok issues := by
  have hres : ∃ res, resolve untypedDocument "E" none {} = .ok res := ⟨_, rfl⟩
  obtain ⟨res, hres⟩ := hres
  have hissues : (generate untypedDocument "E" none {} {} none).outcome = _ :=
    outcome_generate hres none
  rw [outcome_emit_none] at hissues
  exact ⟨res, _, hres, hissues⟩

/-- The resolution finds that the type is missing. -/
theorem issues_logged_twice_untyped : ∃ issues res,
    (generate untypedDocument "E" none {} {} none).outcome = .ok issues ∧
      resolve untypedDocument "E" none {} = .ok res ∧ untypedDocument.issues.issues = [] ∧
      res.issues.issues.length = 1 ∧ ∀ i ∈ res.issues.issues,
        2 ≤ (generate untypedDocument "E" none {} {} none).log.count i.logLine := by
  obtain ⟨-, issues, -, hissues⟩ := exists_outcome_untyped
  obtain ⟨res, found, hres, -, -, -, htwice⟩ := issues_logged_twice hissues
  have hread : untypedDocument.issues.issues = [] := by decide
  have hlength : res.issues.issues.length = 1 := by
    obtain rfl := Except.ok.inj hres
    decide +kernel
  exact ⟨issues, res, hissues, hres, hread, hlength, fun i hi => htwice i hi (by simp [hread])⟩

/-- The line about the type is there twice. -/
theorem missing_type_logged_twice : ∃ res issues i,
    resolve untypedDocument "E" none {} = .ok res ∧
      (generate untypedDocument "E" none {} {} none).outcome = .ok issues ∧
      i ∈ res.issues.issues ∧ i ∉ untypedDocument.issues.issues ∧
      i.logLine = ⟨.error, "[SCL] LNType \"T\" of LN \"ELD/GGIO1\" is not defined (ELD/GGIO1)"⟩ ∧
      (generate untypedDocument "E" none {} {} none).log.count i.logLine = 2 := by
  obtain ⟨res, issues, hres, hissues⟩ := exists_outcome_untyped
  refine ⟨res, issues, (Finding.noNodeType "ELD/GGIO1" "T").issue, hres, hissues, ?_, ?_, ?_, ?_⟩
  · obtain rfl := Except.ok.inj hres
    decide +kernel
  all_goals decide +kernel

end Substation
