import Substation.Emission

/-!
# Generation

Generation resolves an access point, collects the use of its templates and writes its static model.
The issues of all stages come together in one log, in which an issue that is found again later
counts once.
-/

namespace Substation

open Substation.Journal

/-- The result of a generation. -/
structure Generation where
  /-- The issues, or the reason why there is no static model. -/
  outcome : Except Failure IssueLog
  /-- What the sink holds. -/
  text : String
  /-- The lines that were logged. -/
  log : List LogLine

/-- Merges a log into another one and gives the lines that are logged for it. -/
def mergeLogged (log other : IssueLog) : IssueLog × List LogLine :=
  (log.merge other, (log.news other.issues).map Issue.logLine)

/-- The notes about the use of templates. -/
def usageNotes (d : Document) (ied : String) (res : Resolution) : List Entry :=
  let unused := res.usage.unused d.registry
  .note (.usageCollected res.usage.templates.length) ::
    if unused.isEmpty then [] else [.note (.unused ied unused)]

/-- Generates the static model of an access point into a sink that takes `limit` characters
(`generate_static_model`). -/
def generate (d : Document) (ied : String) (ap : Option String) (ro : ResolveOptions)
    (eo : EmitOptions) (limit : Option Nat) : Generation :=
  match resolve d ied ap ro with
  | .error failure => { outcome := .error failure, text := "", log := [] }
  | .ok res =>
    let tracked := res.trackUsage d ro
    let output := emit d tracked eo limit
    let log := logLines {} res.journal ++ logLines {} (usageNotes d ied tracked) ++
      logLines {} output.journal
    match output.outcome with
    | .error failure => { outcome := .error failure, text := output.text, log }
    | .ok found =>
      let (issues, first) := mergeLogged d.issues res.issues
      let (issues, second) := mergeLogged issues found
      { outcome := .ok issues, text := output.text, log := log ++ first ++ second }

end Substation
