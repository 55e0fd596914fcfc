import Substation.Text.Printable

/-!
# Quoted text

Texts and characters between quotes, on one line and readable. A backslash, the quote in use, tab,
line feed, carriage return and NUL have short escapes; a character that is not shown as it is
(`isShown`) is written as its number in braces, in lower-case hexadecimal.
-/

namespace Substation.Text

/-- A character as it appears between two `quote` characters. -/
def quotedChar (quote c : Char) : List Char :=
  if c == quote || c == '\\' then ['\\', c]
  else if c == '\t' then ['\\', 't']
  else if c == '\n' then ['\\', 'n']
  else if c == '\r' then ['\\', 'r']
  else if c == '\x00' then ['\\', '0']
  else if isShown c then [c]
  else ['\\', 'u', '\x7b'] ++ Nat.toDigits 16 c.toNat ++ ['\x7d']

/-- The text between double quotes. -/
def quoted (s : String) : String :=
  String.ofList ('"' :: s.toList.flatMap (quotedChar '"') ++ ['"'])

/-- A single character between single quotes. -/
def quotedAlone (c : Char) : String :=
  String.ofList ('\'' :: quotedChar '\'' c ++ ['\''])

end Substation.Text
