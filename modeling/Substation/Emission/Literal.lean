import Substation.Template.Registry
import Substation.Text.Blank

/-!
# Literals of initial values

How a configured value is written in the static model: the symbol of an enumeration as its number,
numbers as they are, flags as 0 or 1, and texts between quotes. Other types have no literals.
-/

namespace Substation.Emission

open Substation.Template
open Substation.Text (trim)

/-- The literal of a value configured for an attribute, if it has one (`encode_value`). -/
def literal? (r : Registry) (a : AttributeDef) (value : String) : Option String :=
  match a.type with
  | .enumerated =>
    ((a.typeId.bind r.enumType?).bind (·.ordOf? (trim value))).map toString
  | .int8 | .int16 | .int32 | .int64 | .int8u | .int16u | .int24u | .int32u
  | .float32 | .float64 => some value
  | .boolean => some (if trim value = "true" then "1" else "0")
  | .unicodeString255 | .currency | .visibleString32 | .visibleString64 | .visibleString65
  | .visibleString129 | .visibleString255 | .octetString64 => some ("\"" ++ value ++ "\"")
  | _ => none

end Substation.Emission
