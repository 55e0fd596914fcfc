/-!
# Segments of a text

A reference such as `LD/LN.DO.DA` is a sequence of segments between separators. `segments` cuts at
every separator and keeps empty segments, so that joining the segments gives the text back
(`intercalate_split`); `splitFirst?` cuts at the first separator only.
-/

namespace Substation.Text

/-- Cuts at every `sep`; the empty text has one segment, which is empty. -/
def split (sep : Char) : List Char → List (List Char)
  | [] => [[]]
  | c :: cs =>
    if c = sep then [] :: split sep cs
    else match split sep cs with
      | [] => [[c]]
      | s :: ss => (c :: s) :: ss

theorem split_ne_nil (sep : Char) (s : List Char) : split sep s ≠ [] := by
  cases s with
  | nil => simp [split]
  | cons c cs =>
    rw [split]
    split
    · simp
    · cases split sep cs <;> simp

/-- Nothing is lost: the segments with the separator between them are the text. -/
theorem intercalate_split (sep : Char) (s : List Char) :
    [sep].intercalate (split sep s) = s := by
  induction s with
  | nil => simp [split, List.intercalate]
  | cons c cs ih =>
    rw [split]
    cases h : split sep cs with
    | nil => exact absurd h (split_ne_nil sep cs)
    | cons s ss =>
      rw [h] at ih
      by_cases hc : c = sep
      · cases ss <;> simp_all [List.intercalate, List.intersperse]
      · cases ss <;> simp_all [List.intercalate, List.intersperse]

/-- The segments of a text between the separators. -/
def segments (sep : Char) (s : String) : List String :=
  (split sep s.toList).map String.ofList

/-- The parts before and after the first `sep`, if there is one. -/
def splitFirst? (sep : Char) (s : String) : Option (String × String) :=
  match s.toList.dropWhile (· != sep) with
  | [] => none
  | _ :: rest => some (String.ofList (s.toList.takeWhile (· != sep)), String.ofList rest)

/-- Writes `target` for each character in `old`. -/
def replaceChars (old : List Char) (target : Char) (s : String) : String :=
  String.ofList (s.toList.map fun c => if old.contains c then target else c)

/-- Whether the text ends with `tail`. -/
def endsWith (s tail : String) : Bool :=
  tail.toList.isSuffixOf s.toList

end Substation.Text
