import Substation.Emission.Script

/-!
# Statements for data

Data objects and data attributes are written as nested statements. An array is written as one block
for each of its elements, numbered from zero. The blocks of an array of data objects or structures
hold the statements of an element; those of an array of plain attributes hold its value.
-/

namespace Substation.Emission

/-- What is written between the parentheses of a data attribute. -/
structure LeafFields where
  /-- The name. -/
  name : String
  /-- The size of an array; 0 for a single attribute. -/
  count : Nat
  /-- The number of the basic type. -/
  type : Int
  /-- The number of the functional constraint. -/
  fc : Int
  /-- The bit mask of the trigger options. -/
  triggers : Nat
  /-- The short address. -/
  sAddr : String
deriving DecidableEq, Repr

/-- The statement without what follows the parentheses. -/
def LeafFields.head (f : LeafFields) : String :=
  "DA(" ++ f.name ++ " " ++ toString f.count ++ " " ++ toString f.type ++ " " ++
    toString f.fc ++ " " ++ toString f.triggers ++ " " ++ f.sAddr ++ ")"

/-- A statement for data. -/
inductive DataStatement where
  /-- A data object. -/
  | object (name : String) (count : Nat) (parts : List DataStatement)
  /-- A structured attribute. -/
  | group (fields : LeafFields) (parts : List DataStatement)
  /-- A plain attribute, with the literal of its value. -/
  | value (fields : LeafFields) (literal : Option String)

/-- The number of an element in front of its block. -/
def elementMark (i : Nat) : String := "[" ++ toString i ++ "]"

/-- A literal as it follows an attribute, up to the end of the statement. -/
def assignment : Option String → String
  | none => ";"
  | some literal => "=" ++ literal ++ ";"

/-- A block between braces. -/
def block (head : String) (body : Script) : Script :=
  .line (head ++ "\x7b") ++ body ++ .line "\x7d"

namespace DataStatement

mutual

/-- The lines of a statement (`write_data_object`, `write_data_attribute`). -/
def script : DataStatement → Script
  | object name count parts =>
    block ("DO(" ++ name ++ " " ++ toString count ++ ")") <|
      if count = 0 then scriptAll parts
      else .each count fun i => block (elementMark i) (scriptAll parts)
  | group f parts =>
    if f.count = 0 then block f.head (scriptAll parts)
    else block f.head (.each f.count fun i => block (elementMark i) (scriptAll parts))
  | value f literal =>
    if f.count = 0 then .line (f.head ++ assignment literal)
    else block f.head (.each f.count fun i => .line (elementMark i ++ assignment literal))

/-- The lines of several statements. -/
def scriptAll : List DataStatement → Script
  | [] => .nil
  | s :: rest => script s ++ scriptAll rest

end

end DataStatement

end Substation.Emission
