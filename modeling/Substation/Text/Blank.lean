/-!
# Blank characters

Two classes of blank characters are told apart. Markup knows four of them; values and addresses
are trimmed by the Unicode property `White_Space`, which is larger (`isWhite_of_isMarkupBlank`).
-/

namespace Substation.Text

/-- Blank in markup: space, tab, line feed and carriage return. -/
def isMarkupBlank (c : Char) : Bool :=
  c == ' ' || c == '\t' || c == '\n' || c == '\r'

/-- The Unicode property `White_Space`. -/
def isWhite (c : Char) : Bool :=
  let n := c.toNat
  (0x09 ≤ n && n ≤ 0x0D) || n == 0x20 || n == 0x85 || n == 0xA0 || n == 0x1680 ||
    (0x2000 ≤ n && n ≤ 0x200A) || n == 0x2028 || n == 0x2029 || n == 0x202F || n == 0x205F ||
    n == 0x3000

theorem isWhite_of_isMarkupBlank {c : Char} (h : isMarkupBlank c = true) : isWhite c = true := by
  simp only [isMarkupBlank, Bool.or_eq_true, beq_iff_eq] at h
  rcases h with ((rfl | rfl) | rfl) | rfl <;> decide

/-- Drops the characters at the end for which `p` holds. -/
def dropWhileEnd (p : Char → Bool) (s : List Char) : List Char :=
  (s.reverse.dropWhile p).reverse

/-- The text without the white space at its two ends. -/
def trimChars (s : List Char) : List Char :=
  dropWhileEnd isWhite (s.dropWhile isWhite)

/-- The text without the white space at its two ends. -/
def trim (s : String) : String :=
  String.ofList (trimChars s.toList)

end Substation.Text
