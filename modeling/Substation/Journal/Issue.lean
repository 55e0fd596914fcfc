import Substation.Journal.LogLine

/-!
# Issues

A problem of a document that does not stop the work: what is wrong, and where.
-/

namespace Substation.Journal

/-- How bad an issue is. -/
inductive Severity where
  | error
  | warning
deriving DecidableEq, Repr

namespace Severity

/-- The name as it is printed. -/
def name : Severity → String
  | error => "ERROR"
  | warning => "WARNING"

/-- The level at which an issue is logged. -/
def level : Severity → Level
  | error => .error
  | warning => .warn

/-- The place in the order of severities. -/
def rank : Severity → Nat
  | error => 0
  | warning => 1

end Severity

/-- The category of every issue that is found in a model (`MODEL_INTEGRITY`). -/
def modelIntegrity : String := "Model integrity"

/-- A problem of a document. -/
structure Issue where
  /-- How bad it is. -/
  severity : Severity
  /-- The category. -/
  category : String := modelIntegrity
  /-- What is wrong. -/
  message : String
  /-- Where it is wrong. -/
  object : String
deriving DecidableEq, Repr

namespace Issue

/-- The issue in one line. -/
def display (i : Issue) : String :=
  i.severity.name ++ " [" ++ i.category ++ "] " ++ i.message

/-- The line that is logged when the issue is recorded. -/
def logLine (i : Issue) : LogLine :=
  ⟨i.severity.level, "[SCL] " ++ i.message ++ " (" ++ i.object ++ ")"⟩

/-- The order by severity, category, message and object. -/
def order (a b : Issue) : Ordering :=
  (compare a.severity.rank b.severity.rank).then <| (compare a.category b.category).then <|
    (compare a.message b.message).then <| compare a.object b.object

end Issue

end Substation.Journal
