/-!
# Functional constraints

What an attribute is for: status, measurand, setting and so on. Each constraint has a number in the
static model.
-/

namespace Substation.Template

/-- The functional constraint of a data attribute (`FunctionalConstraint`). -/
inductive Constraint where
  | st
  | mx
  | sp
  | sv
  | cf
  | dc
  | sg
  | se
  | sr
  | or
  | bl
  | ex
  | co
  | us
  | ms
  | rp
  | br
  | lg
  /-- Every constraint. -/
  | all
  /-- No constraint of its own. -/
  | none
deriving DecidableEq, Repr

namespace Constraint

/-- The constraint of a two-letter code; the codes are case-sensitive
(`FunctionalConstraint::parse`). -/
def parse? : String → Option Constraint
  | "ST" => some st
  | "MX" => some mx
  | "SP" => some sp
  | "SV" => some sv
  | "CF" => some cf
  | "DC" => some dc
  | "SG" => some sg
  | "SE" => some se
  | "SR" => some sr
  | "OR" => some or
  | "BL" => some bl
  | "EX" => some ex
  | "CO" => some co
  | "US" => some us
  | "MS" => some ms
  | "RP" => some rp
  | "BR" => some br
  | "LG" => some lg
  | "ALL" => some all
  | "NONE" => some none
  | _ => Option.none

/-- The number in the static model. -/
def ordinal : Constraint → Int
  | st => 0
  | mx => 1
  | sp => 2
  | sv => 3
  | cf => 4
  | dc => 5
  | sg => 6
  | se => 7
  | sr => 8
  | or => 9
  | bl => 10
  | ex => 11
  | co => 12
  | us => 13
  | ms => 14
  | rp => 15
  | br => 16
  | lg => 17
  | all => 99
  | none => -1

end Constraint

end Substation.Template
