import Substation.Template.Registry
import Substation.Text.Base64

/-!
# Checking configured values

A configured value has to be a symbol of the attribute's enumeration, a literal of its numeric
type, or padded base64 where the type asks for that. The values of all other types, and of numbers
of 24 bits, are taken as they are.
-/

namespace Substation.Template

/-- What is wrong with a configured value. -/
inductive ValueFault where
  /-- The attribute is enumerated but names no enumeration. -/
  | noEnum
  /-- The enumeration is not defined. -/
  | unknownEnum (enumId : String)
  /-- The enumeration has no such symbol. -/
  | unknownSymbol (value enumId : String)
  /-- The value is no literal of the type. -/
  | badLiteral (value : String) (type : BasicType)
deriving DecidableEq, Repr

/-- The explanation for an attribute of a given reference. -/
def ValueFault.message (leaf : String) : ValueFault → String
  | noEnum => "Wrong ENUMERATED type in DAI " ++ leaf
  | unknownEnum enumId => "Wrong ENUMERATED type " ++ enumId ++ " in DAI " ++ leaf
  | unknownSymbol value enumId =>
    "Value " ++ value ++ " in DAI " ++ leaf ++ " does not exist in enumerated type " ++ enumId
  | badLiteral value type =>
    "Value " ++ value ++ " in DAI " ++ leaf ++ " wrong for attribute type " ++ type.name

/-- Whether a value has the form that the type asks for; enumerations are not looked at here
(`is_format_checked`). -/
def BasicType.hasForm (value : String) : BasicType → Bool
  | .octetString64 => Text.isBase64 value
  | .int8 => isNumericLiteral .int8 value
  | .int8u => isNumericLiteral .int8u value
  | .int16 => isNumericLiteral .int16 value
  | .int16u => isNumericLiteral .int16u value
  | .int32 => isNumericLiteral .int32 value
  | .int32u => isNumericLiteral .int32u value
  | .int64 => isNumericLiteral .int64 value
  | .float32 => isNumericLiteral .float32 value
  | .float64 => isNumericLiteral .float64 value
  | _ => true

/-- What is wrong with a value configured for an attribute (`check_dai_value`). -/
def valueFault? (r : Registry) (a : AttributeDef) (value : String) : Option ValueFault :=
  if a.type = .enumerated then
    match a.typeId with
    | none => some .noEnum
    | some enumId =>
      match r.enumType? enumId with
      | none => some (.unknownEnum enumId)
      | some e =>
        match e.ordOf? value with
        | none => some (.unknownSymbol value enumId)
        | some _ => none
  else if a.type.hasForm value then none
  else some (.badLiteral value a.type)

end Substation.Template
