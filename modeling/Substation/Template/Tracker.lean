import Substation.Index
import Substation.Template.Usage

/-!
# Trackers

A tracker collects the use of templates in one pass. It keeps the users of a template under its kind
and id; a template that has no users is not there. Trackers of several passes are merged template by
template, in the order of kinds and ids.
-/

namespace Substation.Template

/-- The place in the order of kinds. -/
def Kind.rank : Kind → Nat
  | nodeType => 0
  | objectType => 1
  | attributeType => 2
  | enumType => 3

instance : Ord Kind := ⟨compareOn Kind.rank⟩

instance : Std.TransOrd Kind := inferInstanceAs (Std.TransCmp (compareOn Kind.rank))

instance : Ord (Kind × String) := lexOrd

instance : Std.TransOrd (Kind × String) := inferInstanceAs (@Std.TransOrd (Kind × String) lexOrd)

/-- The use of templates in one pass (`UsageTracker`). -/
structure Tracker where
  /-- The users of each template that is used, in the order in which they first used it. -/
  users : Index (Kind × String) (List String) := {}

namespace Tracker

/-- Adds a user, unless it is there. -/
def enlist (users : List String) (user : String) : List String :=
  if users.contains user then users else users ++ [user]

/-- Makes a mark (`mark_used`). -/
def mark (t : Tracker) (m : Mark) : Tracker :=
  ⟨t.users.insert (m.kind, m.id) (enlist ((t.users.find? (m.kind, m.id)).getD []) m.user)⟩

/-- Whether a template is used (`is_used`). -/
def isUsed (t : Tracker) (kind : Kind) (id : String) : Bool := t.users.contains (kind, id)

/-- The users of a template (`used_on`). -/
def usersOf (t : Tracker) (kind : Kind) (id : String) : List String :=
  (t.users.find? (kind, id)).getD []

/-- The marks of a template for its users. -/
def marksOf : (Kind × String) × List String → List Mark
  | ((kind, id), users) => users.map (⟨kind, id, ·⟩)

/-- Makes the marks of another tracker (`UsageTracker::merge`). -/
def merge (t other : Tracker) : Tracker :=
  other.users.entries.foldl (fun t e => (marksOf e).foldl mark t) t

/-- The templates that are used, in the order of kinds and ids. -/
def templates (t : Tracker) : List (Kind × String) := t.users.entries.map Prod.fst

/-- The registered templates that are not used (`unused_templates`). -/
def unused (t : Tracker) (r : Registry) : List (Kind × String) :=
  r.ids.filter fun (kind, id) => !t.isUsed kind id

end Tracker

end Substation.Template
