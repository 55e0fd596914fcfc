/-!
# Log lines
-/

namespace Substation.Journal

/-- How important a log line is. -/
inductive Level where
  | error
  | warn
  | info
  | debug
  | trace
deriving DecidableEq, Repr

namespace Level

/-- The name as it is printed. -/
def name : Level → String
  | error => "ERROR"
  | warn => "WARN"
  | info => "INFO"
  | debug => "DEBUG"
  | trace => "TRACE"

/-- The place in the order of importance, the most important level first. -/
def rank : Level → Nat
  | error => 0
  | warn => 1
  | info => 2
  | debug => 3
  | trace => 4

/-- Whether a line of a level is shown when `threshold` is the least important level shown. -/
def isShownAt (threshold level : Level) : Bool := level.rank ≤ threshold.rank

end Level

/-- A line of the log. -/
structure LogLine where
  /-- The importance. -/
  level : Level
  /-- The text. -/
  text : String
deriving DecidableEq, Repr

end Substation.Journal
