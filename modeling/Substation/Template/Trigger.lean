/-!
# Trigger options

The events on which a value is reported, and sets of flags as bit masks.
-/

namespace Substation.Template

/-- The bit mask of a list of flags, the first flag being the lowest bit. -/
def bitMask : List Bool → Nat
  | [] => 0
  | b :: bs => b.toNat + 2 * bitMask bs

/-- The events on which a value is reported. -/
structure Triggers where
  /-- The value changes. -/
  dchg : Bool := false
  /-- The quality changes. -/
  qchg : Bool := false
  /-- The value is updated. -/
  dupd : Bool := false
  /-- A period ends. -/
  period : Bool := false
  /-- A client asks for everything. -/
  gi : Bool := true
deriving DecidableEq, Repr

/-- The bit mask in the static model (`TriggerOptions::bits`). -/
def Triggers.bits (t : Triggers) : Nat :=
  bitMask [t.dchg, t.qchg, t.dupd, t.period, t.gi]

end Substation.Template
