import Substation.Template.Registry

/-!
# Use of templates

Which templates are used, and by which nodes of a model. A mark is kept once, so the users of a
template appear in the order in which they first used it.
-/

namespace Substation.Template

/-- A use of a template. -/
structure Mark where
  /-- The kind of the template. -/
  kind : Kind
  /-- The id of the template. -/
  id : String
  /-- The reference of the node that uses it. -/
  user : String
deriving DecidableEq, Repr

/-- The uses of templates (`UsageTracker`). -/
structure Usage where
  /-- The marks in the order in which they were first made. -/
  marks : List Mark := []
deriving DecidableEq, Repr

namespace Usage

/-- Makes a mark, unless it has been made before (`mark_used`). -/
def mark (u : Usage) (m : Mark) : Usage :=
  if u.marks.contains m then u else ⟨u.marks ++ [m]⟩

/-- Makes marks one after the other. -/
def markAll (u : Usage) (ms : List Mark) : Usage := ms.foldl mark u

/-- The usage of a list of marks. -/
def ofList (ms : List Mark) : Usage := markAll {} ms

/-- The users of a template (`used_on`). -/
def usersOf (u : Usage) (kind : Kind) (id : String) : List String :=
  (u.marks.filter fun m => m.kind = kind ∧ m.id = id).map Mark.user

/-- Whether a template is used (`is_used`). -/
def isUsed (u : Usage) (kind : Kind) (id : String) : Bool :=
  u.marks.any fun m => m.kind = kind ∧ m.id = id

/-- Adds the marks of another usage (`UsageTracker::merge`). -/
def merge (u other : Usage) : Usage := u.markAll other.marks

/-- The templates that are used, each once. -/
def templates (u : Usage) : List (Kind × String) :=
  (u.marks.map fun m => (m.kind, m.id)).eraseDups

/-- The registered templates that are used, with their users. -/
def used (u : Usage) (r : Registry) : List (Kind × String × List String) :=
  (r.ids.filter fun (kind, id) => u.isUsed kind id).map fun (kind, id) =>
    (kind, id, u.usersOf kind id)

/-- The registered templates that are not used (`unused_templates`). -/
def unused (u : Usage) (r : Registry) : List (Kind × String) :=
  r.ids.filter fun (kind, id) => !u.isUsed kind id

end Usage

end Substation.Template
