/-!
# Literals of numbers

An integer literal is an optional sign and at least one decimal digit. A minus sign belongs to
ranges that reach below zero only, so `-0` is no literal of a range that starts at zero. The value
is computed exactly and then compared with the bounds, so no width is ever exceeded on the way.

A decimal literal is recognised by its shape alone: every exponent is accepted.
-/

namespace Substation.Text

/-- The number that a sequence of decimal digits denotes. -/
def digitsValue (ds : List Char) : Nat :=
  ds.foldl (fun n d => 10 * n + (d.toNat - '0'.toNat)) 0

/-- At least one digit, and nothing but digits. -/
def isDigits (ds : List Char) : Bool :=
  !ds.isEmpty && ds.all Char.isDigit

/-- An interval of integers, bounds included. -/
structure IntRange where
  /-- The least member. -/
  least : Int
  /-- The greatest member. -/
  greatest : Int
deriving DecidableEq, Repr

namespace IntRange

/-- The two's complement numbers of `w` bits. -/
def signed (w : Nat) : IntRange := ⟨-(Nat.pow 2 (w - 1) : Int), (Nat.pow 2 (w - 1) : Int) - 1⟩

/-- The natural numbers of `w` bits. -/
def unsigned (w : Nat) : IntRange := ⟨0, (Nat.pow 2 w : Int) - 1⟩

/-- Membership as a test. -/
def holds (r : IntRange) (n : Int) : Bool := r.least ≤ n && n ≤ r.greatest

/-- The value of a literal before the bounds are looked at. -/
def value? (r : IntRange) : List Char → Option Int
  | '+' :: ds => if isDigits ds then some (digitsValue ds) else none
  | '-' :: ds => if r.least < 0 && isDigits ds then some (-(digitsValue ds : Int)) else none
  | ds => if isDigits ds then some (digitsValue ds) else none

/-- The value of a literal that lies in the range. -/
def parse? (r : IntRange) (s : String) : Option Int :=
  (r.value? s.toList).filter r.holds

end IntRange

/-- Whether `s` consists of digits with an optional point, a digit on at least one side of it, and
an optional exponent. -/
def isDecimal (s : List Char) : Bool :=
  let whole := s.takeWhile Char.isDigit
  let rest := s.dropWhile Char.isDigit
  match rest with
  | '.' :: more =>
    let fraction := more.takeWhile Char.isDigit
    !(whole.isEmpty && fraction.isEmpty) && isExponent (more.dropWhile Char.isDigit)
  | _ => !whole.isEmpty && isExponent rest
where
  /-- Nothing, or the letter `e` in either case, a sign or none, and digits. -/
  isExponent : List Char → Bool
    | [] => true
    | c :: rest =>
      (c == 'e' || c == 'E') && match rest with
        | '+' :: ds => isDigits ds
        | '-' :: ds => isDigits ds
        | ds => isDigits ds

/-- The words for the values that are no finite number, in any letter case. -/
def isSpecialWord (s : List Char) : Bool :=
  let w := s.map Char.toLower
  w == "inf".toList || w == "infinity".toList || w == "nan".toList

/-- Whether the text is a literal of a binary floating-point number. -/
def isFloatLiteral (s : String) : Bool :=
  match s.toList with
  | '+' :: r => isDecimal r || isSpecialWord r
  | '-' :: r => isDecimal r || isSpecialWord r
  | r => isDecimal r || isSpecialWord r

/-- The decimal digits of `n`, with zeros in front up to `width` of them. -/
def padded (width n : Nat) : String :=
  let ds := Nat.toDigits 10 n
  String.ofList (List.replicate (width - ds.length) '0' ++ ds)

end Substation.Text
