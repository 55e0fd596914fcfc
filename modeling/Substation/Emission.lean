import Substation.Emission.Statements
import Substation.Failure
import Substation.Resolution

/-!
# Emission

Emission writes the static model of a resolved access point into a sink. It fails exactly if the
sink is full before the end.
-/

namespace Substation

open Substation.Emission
open Substation.Journal

/-- How to write a static model. -/
structure EmitOptions where
  /-- Whether clients own report control blocks. -/
  hasOwner : Bool := false
  /-- The codec for hardware addresses. -/
  codec : Text.HexCodec := .standard

/-- What a sink holds after the writing. -/
structure Output where
  /-- The text. -/
  text : String
  /-- The journal of the writing. -/
  journal : List Entry
  /-- Whether the whole static model has been written. -/
  isComplete : Bool

/-- The issues that were found. -/
def Output.issues (o : Output) : IssueLog := issueLog o.journal

/-- The issues, or the failure of a sink that was full before the end. -/
def Output.outcome (o : Output) : Except Failure IssueLog :=
  if o.isComplete then .ok o.issues else .error .sinkFull

/-- What the writing depends on. -/
def Resolution.setting (res : Resolution) (d : Document) (o : EmitOptions) : Setting where
  registry := d.registry
  model := res.model
  subject := res.subject
  connection := d.connectedAp? res.subject.ap res.subject.ied
  hasOwner := o.hasOwner
  codec := o.codec

/-- The static model as a tree of statements. -/
def Resolution.statement (res : Resolution) (d : Document) (o : EmitOptions) : ModelStatement :=
  (res.setting d o).modelStatement

/-- Writes the static model into a sink that takes `limit` characters (`emit_static_model`). -/
def emit (d : Document) (res : Resolution) (o : EmitOptions) (limit : Option Nat) : Output :=
  let sink : Sink := { limit, journal := #[.note (.writing res.subject)] }
  match (res.statement d o).script.run sink with
  | .error s => { text := s.text, journal := s.journal.toList, isComplete := false }
  | .ok s =>
    let entries := s.journal.toList
    { text := s.text
      journal := entries ++ [.note (.written res.subject (issueLog entries).size)]
      isComplete := true }

end Substation
