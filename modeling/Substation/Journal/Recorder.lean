import Substation.Index
import Substation.Journal.IssueLog

/-!
# Recorders

A recorder builds a log. Beside the log it keeps an index of the issues in it, where it looks up
whether an issue is new.
-/

namespace Substation.Journal

instance : Ord Issue := ⟨Issue.order⟩

/-- The order of issues goes through their parts one after the other. -/
theorem Issue.order_eq : Issue.order =
    compareLex (compareOn (·.severity.rank)) (compareLex (compareOn category)
      (compareLex (compareOn message) (compareOn object))) := rfl

instance : Std.TransOrd Issue := by
  change Std.TransCmp Issue.order
  rw [Issue.order_eq]
  infer_instance

/-- The issues recorded so far, with an index of them. -/
structure Recorder where
  /-- The issues in order of recording. -/
  issues : List Issue := []
  /-- The issues in their own order. -/
  seen : Index Issue Unit := {}

namespace Recorder

/-- Records an issue, unless it has been seen, and tells whether it was new (`IssueLog::push`). -/
def push (r : Recorder) (i : Issue) : Bool × Recorder :=
  if r.seen.contains i then (false, r) else (true, ⟨r.issues ++ [i], r.seen.insert i ()⟩)

/-- Records an error of the model (`IssueLog::error`). -/
def error (r : Recorder) (object message : String) : Bool × Recorder :=
  r.push { severity := .error, message, object }

/-- Records a warning about the model (`IssueLog::warning`). -/
def warning (r : Recorder) (object message : String) : Bool × Recorder :=
  r.push { severity := .warning, message, object }

/-- Records the issues of another recorder (`IssueLog::merge`). -/
def merge (r other : Recorder) : Recorder := other.issues.foldl (fun r i => (r.push i).2) r

/-- The log. -/
def log (r : Recorder) : IssueLog := ⟨r.issues⟩

end Recorder

end Substation.Journal
