import Substation.Text.Segment

/-!
# Namespaces

The name space in which a logical device or logical node is defined, such as
`IEC 61850-7-4:2007B3`: an identifier, a colon, a version of four characters, a revision of one
character and a release. Definition files are known for some of them, under a path that is the
whole text without spaces and colons.
-/

namespace Substation.Model

open Substation.Text

/-- A namespace in its parts. -/
structure Namespace where
  /-- What comes before the first colon. -/
  identifier : String
  /-- Four characters. -/
  version : String
  /-- One character; `A` when there is none. -/
  revision : String
  /-- The rest, if there is any. -/
  release : Option String
  /-- The path of the definition file. -/
  path : String
  /-- Whether there is a definition file. -/
  isKnown : Bool
deriving DecidableEq, Repr

namespace Namespace

/-- The paths of the definition files (`KNOWN_NSD_NAMESPACES`). -/
def knownPaths : List String :=
  ["IEC_61850-7-4", "IEC_61850-7-4_2003", "IEC_61850-7-4_2007", "IEC_61850-7-4_2007A",
    "IEC_61850-7-4_2007B", "IEC_61850-7-2_2007A3", "IEC_61850-7-2_2007B3",
    "IEC_61850-7-3_2007A3", "IEC_61850-7-3_2007B3", "IEC_61850-7-4_2007A3",
    "IEC_61850-7-4_2007B3", "IEC_61850-7-420_2019A4", "IEC_61850-7-420_2019A",
    "IEC_61850-8-1_2003A2"]

/-- The path of a namespace: each space and each colon is written as `_`. -/
def pathOf (text : String) : String := replaceChars [' ', ':'] '_' text

/-- The text of a release, unless it is empty. -/
def releaseOf (rest : List Char) : Option String :=
  if rest.isEmpty then none else some (String.ofList rest)

/-- Reads a namespace; at least four characters have to follow the first colon
(`Namespace::parse`). -/
def parse? (text : String) : Option Namespace :=
  match splitFirst? ':' text with
  | none => none
  | some (identifier, rest) =>
    let version := rest.toList.take 4
    if version.length < 4 then none
    else some {
      identifier
      version := String.ofList version
      revision := match rest.toList.drop 4 with
        | [] => "A"
        | c :: _ => String.singleton c
      release := releaseOf (rest.toList.drop 5)
      path := pathOf text
      isKnown := knownPaths.contains (pathOf text) }

end Namespace

end Substation.Model
