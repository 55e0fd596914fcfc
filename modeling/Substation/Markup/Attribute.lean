import Substation.Markup.Reference
import Substation.Markup.Token

/-!
# Attributes

The inside of a start tag is a sequence of attributes, each a name, `=` and a value in quotes;
values are kept as written. Where no attribute can be read the search goes on further right, so the
well-formed attributes behind a malformed one are found as well. `attributesOf` lists what is found,
with `none` for each place at which there is something else.

A name may be given once only. If names are held to this, an attribute with an earlier name counts
as malformed.
-/

namespace Substation.Markup

open Substation.Text

/-- An attribute as written. -/
structure Attribute where
  /-- The full name, prefix included. -/
  name : List Char
  /-- What stands between the quotes. -/
  value : List Char
deriving DecidableEq, Repr

/-! ## One place -/

/-- Whether a character ends the name of an attribute. The first character of a name is part of it
whatever it is. -/
def endsName (c : Char) : Bool := c == '=' || isMarkupBlank c

/-- What is left from the next blank on. -/
def fromBlank (s : List Char) : List Char := s.dropWhile (!isMarkupBlank ·)

/-- What is found at a place where an attribute should stand. -/
structure Found where
  /-- The attribute, if it is well formed. -/
  attr : Option Attribute
  /-- Its name, if it is taken from here on. -/
  taken : Option (List Char)
  /-- Where the search goes on. -/
  rest : List Char

/-- Reads the value of an attribute, given what follows `=`. -/
def valueAt (name s : List Char) : Found :=
  match s.dropWhile isMarkupBlank with
  | [] => ⟨none, name, []⟩
  | q :: inside =>
    if q = '"' ∨ q = '\'' then
      match inside.dropWhile (· != q) with
      | [] => ⟨none, name, []⟩
      | _ :: rest => ⟨some ⟨name, inside.takeWhile (· != q)⟩, name, rest⟩
    else ⟨none, name, fromBlank (q :: inside)⟩

/-- Reads an attribute, given its first character and what follows it; `barred` tells which names
are not to be used. A barred attribute is left at the next blank behind `=`, be it inside quotes. -/
def attributeAt (barred : List Char → Bool) (c : Char) (cs : List Char) : Found :=
  let name := c :: cs.takeWhile (!endsName ·)
  match (cs.dropWhile (!endsName ·)).dropWhile isMarkupBlank with
  | [] => ⟨none, none, []⟩
  | d :: ds =>
    if d = '=' then
      if barred name then ⟨none, none, fromBlank (d :: ds)⟩ else valueAt name ds
    else ⟨none, none, d :: ds⟩

theorem length_fromBlank_le (s : List Char) : (fromBlank s).length ≤ s.length :=
  length_dropWhile_le _ s

theorem length_rest_valueAt_le (name s : List Char) :
    (valueAt name s).rest.length ≤ s.length := by
  have h := length_dropWhile_le isMarkupBlank s
  unfold valueAt
  split
  next => simp
  next q inside heq =>
    rw [heq] at h
    split
    · split
      next => simp
      next x rest hin =>
        have h' := length_dropWhile_le (· != q) inside
        rw [hin] at h'
        simp only [List.length_cons] at h h' ⊢
        omega
    · exact Nat.le_trans (length_fromBlank_le _) h

theorem length_rest_attributeAt_le (barred : List Char → Bool) (c : Char) (cs : List Char) :
    (attributeAt barred c cs).rest.length ≤ cs.length := by
  have h1 := length_dropWhile_le (!endsName ·) cs
  have h2 := length_dropWhile_le isMarkupBlank (cs.dropWhile (!endsName ·))
  unfold attributeAt
  simp only
  split
  next => simp
  next d ds heq =>
    rw [heq] at h2
    have h3 := Nat.le_trans h2 h1
    split
    · split
      · exact Nat.le_trans (length_fromBlank_le _) h3
      · exact Nat.le_trans (length_rest_valueAt_le _ ds) (Nat.le_trans (Nat.le_succ _) h3)
    · exact h3

/-! ## A whole tag -/

/-- The attributes in the inside of a start tag, its name removed. With `once` no name may be used
twice; `earlier` holds those that are taken. -/
def attributesFrom (once : Bool) (earlier : List (List Char)) (s : List Char) :
    List (Option Attribute) :=
  match _h : s.dropWhile isMarkupBlank with
  | [] => []
  | c :: cs =>
    let found := attributeAt (fun name => once && earlier.contains name) c cs
    found.attr :: attributesFrom once (found.taken.toList ++ earlier) found.rest
termination_by s.length
decreasing_by
  have h1 := length_dropWhile_le isMarkupBlank s
  have h2 := length_rest_attributeAt_le (fun name => once && earlier.contains name) c cs
  rw [_h] at h1
  simp only [List.length_cons] at h1
  omega

/-- The attributes of a start tag, each name used once. -/
def attributesOf (inside : List Char) : List (Option Attribute) :=
  attributesFrom true [] inside

/-- The attributes of a start tag before the first malformed one, whether or not names are used
more than once. -/
def leadingAttributes (inside : List Char) : List Attribute :=
  ((attributesFrom false [] inside).takeWhile Option.isSome).filterMap id

/-! ## Names -/

/-- The prefix of a name, if it has one: what comes before the first colon. -/
def prefixOf? (name : List Char) : Option (List Char) :=
  if name.contains ':' then some (name.takeWhile (· != ':')) else none

/-- A name without its prefix. -/
def localName (name : List Char) : List Char :=
  if name.contains ':' then (name.dropWhile (· != ':')).drop 1 else name

/-- The prefix that an attribute binds: `some none` for the default namespace. -/
def boundPrefix? (name : List Char) : Option (Option (List Char)) :=
  if name = "xmlns".toList then some none
  else if "xmlns:".toList.isPrefixOf name then some (some (name.drop 6))
  else none

/-- The name by which an attribute is looked up. Attributes that bind prefixes and those of the
reserved prefix `xml` have none. -/
def fieldName? (name : List Char) : Option (List Char) :=
  if (boundPrefix? name).isSome || prefixOf? name == some "xml".toList then none
  else some (localName name)

end Substation.Markup
