import Substation.Markup.Fault
import Substation.Text.HexCodec

/-!
# Failures

The reasons why a request cannot be fulfilled at all. Everything else that is wrong with a document
is an issue and does not stop the work.
-/

namespace Substation

open Substation.Text

/-- Why a request fails (`SclError`). -/
inductive Failure where
  /-- The document cannot be read. -/
  | document (fault : Markup.Fault)
  /-- The sink is full. -/
  | sinkFull
  /-- A text does not consist of pairs of hexadecimal digits. -/
  | badHex (fault : HexFault)
  /-- An element is not given. -/
  | missingElement (element : String)
  /-- An attribute of an element is not given. -/
  | missingPart (element part : String)
  /-- An attribute does not have its form. -/
  | badForm (part value : String)
  /-- There is no such IED. -/
  | noIed (ied : String)
  /-- The IED has no such access point. -/
  | noAccessPoint (ied ap : String)
  /-- A part of the document is defective. -/
  | defect (object message : String)
deriving DecidableEq, Repr

/-- The explanation; malformed markup has none. -/
def Failure.message? : Failure → Option String
  | document fault => fault.message?.map ("XML parsing error: " ++ ·)
  | sinkFull => some "Formatting error: an error occurred when formatting an argument"
  | badHex fault => some ("Hex parsing error: " ++ fault.message)
  | missingElement element => some ("Missing required XML element: " ++ element)
  | missingPart element part => some (element ++ " is missing " ++ part ++ " attribute")
  | badForm part value =>
    some ("Invalid format for attribute " ++ part ++ ": \"" ++ value ++ "\"")
  | noIed ied => some ("IED \"" ++ ied ++ "\" not found")
  | noAccessPoint ied ap =>
    some ("AccessPoint \"" ++ ap ++ "\" not found on IED \"" ++ ied ++ "\"")
  | defect object message => some (object ++ ": " ++ message)

end Substation
