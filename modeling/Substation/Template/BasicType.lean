import Substation.Text.Blank
import Substation.Text.Numeral

/-!
# Basic types

The basic type of a data attribute, its number in the static model and its name in messages. A
definition names its basic type by a word of the configuration language; a word that is not known
stands for `other`.

A numeric type has a set of literals: an interval for the integer types, and decimal numbers of any
size for the floating-point types.
-/

namespace Substation.Template

open Substation.Text

/-- The basic type of a data attribute (`AttributeType`). -/
inductive BasicType where
  | boolean
  | int8
  | int16
  | int32
  | int64
  | int128
  | int8u
  | int16u
  | int24u
  | int32u
  | float32
  | float64
  | enumerated
  | octetString64
  | octetString6
  | octetString8
  | visibleString32
  | visibleString64
  | visibleString65
  | visibleString129
  | visibleString255
  | unicodeString255
  | timestamp
  | quality
  | check
  | codedEnum
  | genericBitstring
  | constructed
  | entryTime
  | phyComAddr
  | currency
  | objectReference
  | other
deriving DecidableEq, Repr

namespace BasicType

/-- All types, in the order of their numbers; `other` comes last. -/
def all : List BasicType :=
  [boolean, int8, int16, int32, int64, int128, int8u, int16u, int24u, int32u, float32, float64,
    enumerated, octetString64, octetString6, octetString8, visibleString32, visibleString64,
    visibleString65, visibleString129, visibleString255, unicodeString255, timestamp, quality,
    check, codedEnum, genericBitstring, constructed, entryTime, phyComAddr, currency,
    objectReference, other]

/-- The type that a word of the configuration language stands for (`from_btype`). -/
def ofWord : String → BasicType
  | "BOOLEAN" => boolean
  | "INT8" => int8
  | "INT16" => int16
  | "INT32" => int32
  | "INT64" => int64
  | "INT128" => int128
  | "INT8U" => int8u
  | "INT16U" => int16u
  | "INT24U" => int24u
  | "INT32U" => int32u
  | "FLOAT32" => float32
  | "FLOAT64" => float64
  | "Enum" => enumerated
  | "Dbpos" => codedEnum
  | "Tcmd" => codedEnum
  | "Check" => check
  | "Octet64" => octetString64
  | "Quality" => quality
  | "Timestamp" => timestamp
  | "VisString32" => visibleString32
  | "VisString64" => visibleString64
  | "VisString65" => visibleString65
  | "VisString129" => visibleString129
  | "VisString255" => visibleString255
  | "ObjRef" => objectReference
  | "Unicode255" => unicodeString255
  | "OptFlds" => genericBitstring
  | "TrgOps" => genericBitstring
  | "EntryID" => octetString8
  | "EntryTime" => entryTime
  | "PhyComAddr" => phyComAddr
  | "Currency" => currency
  | "Struct" => constructed
  | _ => other

/-- The number in the static model. -/
def ordinal : BasicType → Int
  | boolean => 0
  | int8 => 1
  | int16 => 2
  | int32 => 3
  | int64 => 4
  | int128 => 5
  | int8u => 6
  | int16u => 7
  | int24u => 8
  | int32u => 9
  | float32 => 10
  | float64 => 11
  | enumerated => 12
  | octetString64 => 13
  | octetString6 => 14
  | octetString8 => 15
  | visibleString32 => 16
  | visibleString64 => 17
  | visibleString65 => 18
  | visibleString129 => 19
  | visibleString255 => 20
  | unicodeString255 => 21
  | timestamp => 22
  | quality => 23
  | check => 24
  | codedEnum => 25
  | genericBitstring => 26
  | constructed => 27
  | entryTime => 28
  | phyComAddr => 29
  | currency => 30
  | objectReference => 31
  | other => -1

/-- The name in messages. -/
def name : BasicType → String
  | boolean => "BOOLEAN"
  | int8 => "INT8"
  | int16 => "INT16"
  | int32 => "INT32"
  | int64 => "INT64"
  | int128 => "INT128"
  | int8u => "INT8U"
  | int16u => "INT16U"
  | int24u => "INT24U"
  | int32u => "INT32U"
  | float32 => "FLOAT32"
  | float64 => "FLOAT64"
  | enumerated => "ENUMERATED"
  | octetString64 => "OCTET_STRING_64"
  | octetString6 => "OCTET_STRING_6"
  | octetString8 => "OCTET_STRING_8"
  | visibleString32 => "VISIBLE_STRING_32"
  | visibleString64 => "VISIBLE_STRING_64"
  | visibleString65 => "VISIBLE_STRING_65"
  | visibleString129 => "VISIBLE_STRING_129"
  | visibleString255 => "VISIBLE_STRING_255"
  | unicodeString255 => "UNICODE_STRING_255"
  | timestamp => "TIMESTAMP"
  | quality => "QUALITY"
  | check => "CHECK"
  | codedEnum => "CODEDENUM"
  | genericBitstring => "GENERIC_BITSTRING"
  | constructed => "CONSTRUCTED"
  | entryTime => "ENTRY_TIME"
  | phyComAddr => "PHYCOMADDR"
  | currency => "CURRENCY"
  | objectReference => "OBJECT_REFERENCE"
  | other => "OTHER"

/-- The type of a name. -/
def ofName? (name : String) : Option BasicType :=
  all.find? (·.name = name)

/-- The interval of an integer type. Types of 128 bits have no literals. -/
def range? : BasicType → Option IntRange
  | int8 => some (.signed 8)
  | int16 => some (.signed 16)
  | int32 => some (.signed 32)
  | int64 => some (.signed 64)
  | int8u => some (.unsigned 8)
  | int16u => some (.unsigned 16)
  | int24u => some (.unsigned 24)
  | int32u => some (.unsigned 32)
  | _ => none

/-- Whether the type is one of floating-point numbers. -/
def isFloat : BasicType → Bool
  | float32 => true
  | float64 => true
  | _ => false

/-- Whether `value`, without the white space at its ends, is a literal of a numeric type
(`validate_numeric`). A type that is not numeric has no literals. -/
def isNumericLiteral (t : BasicType) (value : String) : Bool :=
  match t.range? with
  | some range => (range.parse? (trim value)).isSome
  | none => t.isFloat && isFloatLiteral (trim value)

end BasicType

end Substation.Template
