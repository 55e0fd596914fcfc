import Substation.Journal.Finding
import Substation.Journal.IssueLog
import Substation.Journal.Note
import Substation.Template.Usage

/-!
# The journal of a piece of work

Work on a document leaves a list of entries in the order of events: findings, uses of templates and
notes. The issue log, the use of templates and the log lines are views of this list.
-/

namespace Substation.Journal

open Substation.Template (Mark Usage)

/-- An event of the work. -/
inductive Entry where
  /-- Something is wrong with the document. -/
  | finding (f : Finding)
  /-- A template is used. -/
  | mark (m : Mark)
  /-- Something else is worth a line in the log. -/
  | note (n : Note)
deriving DecidableEq, Repr

/-- The issue of an entry that is a finding. -/
def Entry.issue? : Entry → Option Issue
  | finding f => some f.issue
  | _ => none

/-- The mark of an entry that is one. -/
def Entry.mark? : Entry → Option Mark
  | mark m => some m
  | _ => none

/-- The issues in order of events, repetitions included. -/
def issuesOf (entries : List Entry) : List Issue := entries.filterMap Entry.issue?

theorem issuesOf_append (es es' : List Entry) :
    issuesOf (es ++ es') = issuesOf es ++ issuesOf es' :=
  List.filterMap_append

/-- The issue log of a journal. -/
def issueLog (entries : List Entry) : IssueLog := .ofList (issuesOf entries)

/-- The use of templates of a journal. -/
def usageOf (entries : List Entry) : Usage := .ofList (entries.filterMap Entry.mark?)

/-- The log lines of a journal, given the issues that have been recorded before: an issue is logged
when it is recorded for the first time. -/
def logLines (known : IssueLog) : List Entry → List LogLine
  | [] => []
  | .finding f :: es =>
    if known.contains f.issue then logLines known es
    else f.issue.logLine :: logLines (known.push f.issue) es
  | .mark _ :: es => logLines known es
  | .note n :: es => n.logLine :: logLines known es

end Substation.Journal
