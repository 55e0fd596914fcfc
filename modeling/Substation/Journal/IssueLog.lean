import Substation.Journal.Issue

/-!
# Logs of issues

A log keeps every issue once, in the order in which the issues were first recorded. Recording is
described by `news`: the issues of a list that are neither in the log nor earlier in the list.
-/

namespace Substation.Journal

/-- The issues recorded so far. -/
structure IssueLog where
  /-- The issues in order of recording. -/
  issues : List Issue := []
deriving DecidableEq, Repr

namespace IssueLog

/-- Whether an issue has been recorded. -/
def contains (log : IssueLog) (i : Issue) : Bool := log.issues.contains i

/-- Records an issue, unless it has been recorded before (`IssueLog::push`). -/
def push (log : IssueLog) (i : Issue) : IssueLog :=
  if log.contains i then log else ⟨log.issues ++ [i]⟩

/-- Records issues one after the other. -/
def pushAll (log : IssueLog) (is : List Issue) : IssueLog := is.foldl push log

/-- The issues of a list that are new when they are recorded one after the other. -/
def news (log : IssueLog) : List Issue → List Issue
  | [] => []
  | i :: is => if log.contains i then news log is else i :: news (log.push i) is

theorem issues_pushAll (log : IssueLog) (is : List Issue) :
    (log.pushAll is).issues = log.issues ++ log.news is := by
  induction is generalizing log with
  | nil => simp [pushAll, news]
  | cons i is ih =>
    by_cases h : log.contains i
    · simpa [pushAll, news, push, h] using ih log
    · simpa [pushAll, news, push, h] using ih ⟨log.issues ++ [i]⟩

/-- The log of a list of issues. -/
def ofList (is : List Issue) : IssueLog := pushAll {} is

/-- Records the issues of another log (`IssueLog::merge`). -/
def merge (log other : IssueLog) : IssueLog := log.pushAll other.issues

/-- The issues of a severity. -/
def ofSeverity (log : IssueLog) (s : Severity) : List Issue :=
  log.issues.filter (·.severity = s)

/-- The errors. -/
def errors (log : IssueLog) : List Issue := log.ofSeverity .error

/-- The warnings. -/
def warnings (log : IssueLog) : List Issue := log.ofSeverity .warning

/-- Whether there is an error. -/
def hasErrors (log : IssueLog) : Bool := !log.errors.isEmpty

/-- The number of issues. -/
def size (log : IssueLog) : Nat := log.issues.length

/-- Whether nothing has been recorded. -/
def isEmpty (log : IssueLog) : Bool := log.issues.isEmpty

/-- The issues in their order, whatever the order of recording. -/
def sorted (log : IssueLog) : List Issue :=
  log.issues.mergeSort fun a b => (a.order b).isLE

end IssueLog

end Substation.Journal
