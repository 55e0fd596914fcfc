/-!
# The shape of padded base64

A text has the shape when it is not empty, its length is a multiple of four, and it consists of
characters of the alphabet followed by at most two padding characters.
-/

namespace Substation.Text

/-- The base64 alphabet, padding excluded. -/
def isBase64Char (c : Char) : Bool :=
  c.isAlphanum || c == '+' || c == '/'

/-- Drops one padding character from the end of a reversed text, if there is one. -/
def dropPad : List Char → List Char
  | '=' :: rest => rest
  | s => s

/-- Whether a text has the shape of padded base64 (`is_base64`). -/
def isBase64 (s : String) : Bool :=
  let cs := s.toList
  !cs.isEmpty && cs.length % 4 == 0 && (dropPad (dropPad cs.reverse)).all isBase64Char

end Substation.Text
