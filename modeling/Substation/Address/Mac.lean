import Substation.Failure
import Substation.Text.Blank
import Substation.Text.Segment

/-!
# Hardware addresses

A hardware address is written as six groups of two hexadecimal digits with dashes between them, in
either letter case and possibly with white space around it. In the static model it is written in
upper case without dashes. A codec reads and writes the digits.
-/

namespace Substation.Address

open Substation.Text

/-- A hardware address, byte by byte. -/
structure Mac where
  /-- The six bytes. -/
  octets : Vector UInt8 6
deriving DecidableEq, Repr

namespace Mac

/-- The groups between the dashes, without white space around the whole. -/
def groups (text : String) : List String := segments '-' (trim text)

/-- Whether there are six groups of two bytes. -/
def hasShape (groups : List String) : Bool :=
  groups.length == 6 && groups.all (·.utf8ByteSize == 2)

variable (codec : HexCodec)

/-- Reads a hardware address (`parse_mac`). A text of another shape is named as a whole; what the
codec refuses, as it refuses it. -/
def parse (text : String) : Except Failure Mac :=
  let invalid : Except Failure Mac := .error (.badForm "MAC-Address" text)
  if hasShape (groups text) then
    match codec.decode (String.ofList ((groups text).flatMap String.toList)) with
    | .error fault => .error (.badHex fault)
    | .ok bytes => if h : bytes.length = 6 then .ok ⟨⟨bytes.toArray, h⟩⟩ else invalid
  else invalid

/-- The address as it is written in the static model (`mac_hex`). -/
def hex (m : Mac) : HexString := codec.encoded m.octets.toList

end Mac

end Substation.Address
