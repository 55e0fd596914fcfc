import Substation.Text.Blank
import Substation.Text.Numeral

/-!
# Lenient reading of attributes

Numbers and flags are kept as they are written and read only where they are needed. What cannot be
read counts as if it had not been given.
-/

namespace Substation.Config

open Substation.Text

/-- A flag (`parse_bool`): `true`, `1`, `false` or `0`, and `default` for anything else. -/
def flag (value : Option String) (default : Bool) : Bool :=
  match value.map trim with
  | some "true" => true
  | some "1" => true
  | some "false" => false
  | some "0" => false
  | _ => default

/-- An integer of 64 bits (`parse_int`). -/
def integer? (value : Option String) : Option Int :=
  value.bind fun v => (IntRange.signed 64).parse? (trim v)

/-- A number of repetitions (`parse_count`): a natural number of 32 bits, or 0. -/
def count (value : Option String) : Nat :=
  match (integer? value).filter (IntRange.unsigned 32).holds with
  | some n => n.toNat
  | none => 0

/-- An integer that is not negative, or 0 (`count_or_zero`). -/
def countOrZero (value : Option String) : Int :=
  ((integer? value).filter (0 ≤ ·)).getD 0

/-- The value if it is given and not empty, or else `default`. -/
def textOr (default : String) (value : Option String) : String :=
  (value.filter (!·.isEmpty)).getD default

end Substation.Config
