import Substation.Config.DataSet
import Substation.Text.Blank
import Substation.Text.Numeral
import Substation.Text.Segment

/-!
# Members of data sets

A member is written as a variable name, whose parts stand between `$` signs. The name may point at
an element of an array, as in `Arr(2)$mag`: then the variable ends before the parenthesis, and the
index and what follows it are written apart. An index that cannot be read is kept as it is.
-/

namespace Substation.Emission

open Substation.Config
open Substation.Text

/-- A member as it is written (`DataSetEntry`). -/
structure Member where
  /-- The variable, with the logical device in front if it is another one. -/
  variableName : String
  /-- The element of an array. -/
  index : Option Nat
  /-- What is meant within the element. -/
  component : Option String
  /-- What stands in place of an index and is none. -/
  badIndex : Option String
deriving DecidableEq, Repr

/-- The whole name, before it is taken apart. -/
def memberPath (f : Fcda) : String :=
  f.lnName ++ "$" ++ f.fc ++ "$" ++ f.doName.getD "" ++
    match f.daName with
    | none => ""
    | some name => "$" ++ replaceChars ['.'] '$' name

/-- The component after an index, without the separator in front of it. -/
def componentOf (rest : List Char) : Option String :=
  let rest := match rest with
    | '$' :: more => more
    | _ => rest
  if rest.isEmpty then none else some (String.ofList rest)

/-- An index: a natural number of 32 bits, possibly with white space around it. -/
def index? (text : String) : Option Nat :=
  ((IntRange.unsigned 32).parse? (trim text)).map Int.toNat

namespace Member

/-- Takes a name apart. -/
def ofPath (path : String) : Member :=
  match splitFirst? '(' path with
  | none => ⟨path, none, none, none⟩
  | some (base, suffix) =>
    match splitFirst? ')' suffix with
    | none => ⟨base, none, none, some suffix⟩
    | some (text, rest) =>
      match index? text with
      | none => ⟨base, none, none, some text⟩
      | some index => ⟨base, some index, componentOf rest.toList, none⟩

/-- The logical device in front of a variable, if it is not the one that the data set lies on. -/
def devicePart (owner : String) : Option String → String
  | none => ""
  | some device => if device = owner then "" else device ++ "/"

/-- The member of a data set on the logical device `owner` (`from_fcda`). -/
def ofFcda (f : Fcda) (owner : String) : Member :=
  let m := ofPath (memberPath f)
  { m with variableName := devicePart owner f.ldInst ++ m.variableName }

/-- The index and the component as they are written. -/
def suffix (m : Member) : String :=
  match m.index, m.component with
  | none, _ => ""
  | some index, none => " " ++ toString index
  | some index, some component => " " ++ toString index ++ " " ++ component

/-- The statement (`DataSetEntry`). -/
def text (m : Member) : String := "DE(" ++ m.variableName ++ m.suffix ++ ");"

end Member

end Substation.Emission
