import Substation.Journal.Entry

/-!
# Sinks

A sink takes text up to a limit, counted in characters, and keeps what it has taken. Writing past
the limit fails; the characters up to the limit are kept all the same. Entries of the journal that
are made between two pieces of text go along with the text, so after a failure the journal holds
exactly what came before it.
-/

namespace Substation.Emission

open Substation.Journal

/-- A sink with what it has taken so far. -/
structure Sink where
  /-- How many characters it takes; without a limit it takes all. -/
  limit : Option Nat
  /-- The text taken so far. -/
  text : String := ""
  /-- The number of characters taken so far. -/
  size : Nat := 0
  /-- The entries made so far. -/
  journal : Array Entry := #[]

namespace Sink

/-- Takes a text, or as much of it as is possible. -/
def write (s : Sink) (text : String) : Except Sink Sink :=
  match s.limit with
  | none => .ok { s with text := s.text ++ text, size := s.size + text.length }
  | some limit =>
    if s.size + text.length ≤ limit then
      .ok { s with text := s.text ++ text, size := s.size + text.length }
    else
      .error { s with
        text := s.text ++ String.ofList (text.toList.take (limit - s.size)), size := limit }

/-- Makes an entry. -/
def enter (s : Sink) (e : Entry) : Sink := { s with journal := s.journal.push e }

end Sink

end Substation.Emission
