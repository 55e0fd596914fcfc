import Substation.Text.Quoted

/-!
# Why a document cannot be read

A document is refused either because its markup is malformed, which is not explained further, or
because an element does not have the parts that its kind asks for.
-/

namespace Substation.Markup

/-- The first reason, in reading order, why a document is refused. -/
inductive Fault where
  /-- The markup is malformed, or ends too early. -/
  | malformed
  /-- A part that may be given once is given again. -/
  | duplicate (field : String)
  /-- A part that must be given is missing. -/
  | missing (field : String)
  /-- There is text in place of the outermost element. -/
  | strayText (text : String)
deriving DecidableEq, Repr

/-- The explanation of a refusal; malformed markup has none. -/
def Fault.message? : Fault → Option String
  | .malformed => none
  | .duplicate field => some ("duplicate field `" ++ field ++ "`")
  | .missing field => some ("missing field `" ++ field ++ "`")
  | .strayText text =>
    some ("invalid type: string " ++ Text.quoted text ++ ", expected struct Scl")

end Substation.Markup
