/-!
# Character references

A reference stands for one character: either by one of the five predefined names, or by the
character's number in decimal or hexadecimal. No other reference is known.
-/

namespace Substation.Markup

/-- The character of a predefined name. -/
def predefined? (name : List Char) : Option Char :=
  if name = "lt".toList then some '<'
  else if name = "gt".toList then some '>'
  else if name = "amp".toList then some '&'
  else if name = "apos".toList then some '\''
  else if name = "quot".toList then some '"'
  else none

/-- The value of a digit in a base up to sixteen. -/
def digitIn? (base : Nat) (c : Char) : Option Nat :=
  let v :=
    if c.isDigit then some (c.toNat - '0'.toNat)
    else if 'a' ≤ c ∧ c ≤ 'f' then some (c.toNat - 'a'.toNat + 10)
    else if 'A' ≤ c ∧ c ≤ 'F' then some (c.toNat - 'A'.toNat + 10)
    else none
  v.filter (· < base)

/-- The number that a nonempty sequence of digits denotes. -/
def numberIn? (base : Nat) (ds : List Char) : Option Nat :=
  if ds.isEmpty then none
  else ds.foldlM (fun n d => (digitIn? base d).map (base * n + ·)) 0

/-- The character with a given number; NUL is not admitted. -/
def charOfNumber? (n : Nat) : Option Char :=
  if n = 0 then none
  else if h : n.isValidChar then some (Char.ofNatAux n h) else none

/-- The character that a reference stands for, given what is between `&` and `;`. -/
def referenced? : List Char → Option Char
  | '#' :: 'x' :: ds => (numberIn? 16 ds).bind charOfNumber?
  | '#' :: ds => (numberIn? 10 ds).bind charOfNumber?
  | name => predefined? name

theorem length_dropWhile_le {α : Type} (p : α → Bool) (l : List α) :
    (l.dropWhile p).length ≤ l.length :=
  (List.dropWhile_sublist p).length_le

/-- An attribute's value with its references replaced; `none` if one of them is not known. -/
def unescape : List Char → Option (List Char)
  | [] => some []
  | '&' :: rest =>
    match _h : rest.dropWhile (· != ';') with
    | [] => none
    | _ :: after => do
      let c ← referenced? (rest.takeWhile (· != ';'))
      let more ← unescape after
      return c :: more
  | c :: rest => (unescape rest).map (c :: ·)
termination_by s => s.length
decreasing_by
  all_goals
    first
    | (have hle := length_dropWhile_le (· != ';') rest
       rw [_h] at hle
       simp only [List.length_cons] at hle ⊢
       omega)
    | simp

end Substation.Markup
