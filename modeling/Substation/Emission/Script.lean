import Substation.Emission.Sink

/-!
# Scripts

A script says what is to be written, line by line, and which entries are made between the lines. A
repeated block is kept once, so a script is small even where the text is not; `Script.run` writes
it without ever forming more than the sink takes. `Script.lines` is the whole text, `Script.entries`
the whole journal.
-/

namespace Substation.Emission

open Substation.Journal

/-- What is to be written. -/
inductive Script where
  /-- Nothing. -/
  | nil
  /-- A line; the end of the line is not part of the text. -/
  | line (text : String)
  /-- An entry of the journal. -/
  | remark (e : Entry)
  /-- One script after another. -/
  | append (first second : Script)
  /-- A block for each number below `count`. -/
  | each (count : Nat) (block : Nat → Script)

/-- Does a step for each of `n` numbers from `i` on, unless one fails. -/
def forEachFrom {ε σ : Type} (step : Nat → σ → Except ε σ) : Nat → Nat → σ → Except ε σ
  | _, 0, s => .ok s
  | i, n + 1, s =>
    match step i s with
    | .ok s => forEachFrom step (i + 1) n s
    | .error e => .error e

namespace Script

instance : Append Script := ⟨append⟩

/-- Several scripts one after the other. -/
def concat : List Script → Script
  | [] => nil
  | s :: rest => s ++ concat rest

/-- The lines of the whole text. -/
def lines : Script → List String
  | nil => []
  | line text => [text]
  | remark _ => []
  | append first second => first.lines ++ second.lines
  | each count block => (List.range count).flatMap fun i => (block i).lines

/-- The entries of the whole journal. -/
def entries : Script → List Entry
  | nil => []
  | line _ => []
  | remark e => [e]
  | append first second => first.entries ++ second.entries
  | each count block => (List.range count).flatMap fun i => (block i).entries

/-- The whole text; every line ends with a line feed. -/
def text (s : Script) : List Char := s.lines.flatMap fun l => l.toList ++ ['\n']

/-- Writes a script into a sink, up to the first failure. -/
def run : Script → Sink → Except Sink Sink
  | nil, s => .ok s
  | line text, s => s.write (text ++ "\n")
  | remark e, s => .ok (s.enter e)
  | append first second, s =>
    match first.run s with
    | .ok s => second.run s
    | .error s => .error s
  | each count block, s => forEachFrom (fun i => (block i).run) 0 count s

end Script

end Substation.Emission
