import Substation.Config.Instance
import Substation.Model.Branch
import Substation.Text.Segment

/-!
# Binding of instance values

Configured values and attributes are matched by name, from both sides. `bind?` finds the attribute
that a configured value is for; `configured?` finds the configured value of an attribute.
-/

namespace Substation.Model

open Substation.Config

/-- The reference of a path below a logical node. -/
def refBelow (ln : Branch) (path : List String) : String :=
  path.foldl (fun ref name => ref ++ "." ++ name) ln.ref

/-- The attribute below a logical node that a path of instance names is for (`bind_dai`). The
reference counts first; without a match, the names are followed step by step. -/
def bind? (ln : Branch) (path : List String) : Option Branch :=
  let expected := refBelow ln path
  match ln.descendants.find? fun b => b.ref = expected ∧ b.node.kind.isLeaf with
  | some b => some b
  | none => (Branch.walk? path ln).filter (·.node.kind.isLeaf)

/-- The first attribute of a name at any depth below a data object (`leaf_named`). -/
def leafNamed? (ln : Branch) (object name : String) : Option Branch :=
  (ln.child? object).bind fun b =>
    b.descendants.find? fun b => b.node.kind.isLeaf ∧ b.name = name

/-- The part of the instance values that a sequence of names leads to. -/
def nestedAt? : List String → Sdi → Option Sdi
  | [], s => some s
  | name :: names, s => (s.nested? name).bind (nestedAt? names)

/-- The configured value at a path below a data object: at least one nested part, then the leaf. -/
def leafAt? (doi : Doi) : List String → Option Dai
  | [] => none
  | [_] => none
  | first :: second :: rest =>
    let path := second :: rest
    (doi.nested? first).bind fun s => (nestedAt? path.dropLast s).bind fun s =>
      s.leaf? (path.getLast (by simp [path]))

namespace IedModel

/-- The configured value of an attribute (`dai_for_attribute`). A value directly below the data
object is meant only if the reference of the attribute says so; all others are found by the segments
of the reference. -/
def configured? (m : IedModel) (leaf : Nat) : Option Dai := do
  let object ← m.topObject? leaf
  let ln ← m.parent? object
  let config ← (← m.node? ln).kind.config?
  let doi ← config.instance? (← m.node? object).name
  let node ← m.node? leaf
  match (doi.leaf? node.name).filter fun dai =>
      node.ref = m.ref ln ++ "." ++ doi.name ++ "." ++ dai.name with
  | some dai => some dai
  | none =>
    let (_, path) ← Text.splitFirst? '.' node.ref
    leafAt? doi ((Text.segments '.' path).drop 1)

end IedModel

end Substation.Model
