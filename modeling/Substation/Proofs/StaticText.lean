import Mathlib.Tactic.Common
import Substation.Emission
import Substation.Proofs.ModelLayout

/-!
# Reading the static model

A static model can be read from its text (`read?_emit`), if names, identifications, attributes and
addresses are bare and values stay on their lines.

Results:
* `read?_emit` (`emit_static_model`): what was written is read from the text.
-/

namespace Substation

open Substation.Config
open Substation.Emission
open Substation.Template (Registry)

variable {d : Document} {res : Resolution} {o : EmitOptions}

theorem text_emit {limit : Option Nat} (h : (emit d res o limit).isComplete = true) :
    (emit d res o limit).text = String.ofList (res.statement d o).script.text := by
  rw [emit] at h ⊢
  cases hrun : (res.statement d o).script.run
      { limit, journal := #[.note (.writing res.subject)] } with
  | error s =>
    rw [hrun] at h
    exact Bool.noConfusion h
  | ok s =>
    exact (Script.adds_of_run hrun).2.trans String.empty_append

theorem isComplete_emit : (emit d res o none).isComplete = true := by
  obtain ⟨s, hrun⟩ := (res.statement d o).script.exists_run
    { limit := none, journal := #[.note (.writing res.subject)] } rfl
  rw [emit, hrun]

/-- **The text of a static model is decodable.** Writing it into a sink without a limit is complete,
and if it is complete, what was written is read from the text. So models that are written alike are
alike. -/
theorem read?_emit (h : (res.statement d o).Plain) :
    (emit d res o none).isComplete = true ∧
      (∀ limit, (emit d res o limit).isComplete = true →
        ModelStatement.read? (emit d res o limit).text = some (res.statement d o).shown) ∧
      (res.statement d o).shown.script.text = (emit d res o none).text.toList ∧
      ∀ (d' : Document) (res' : Resolution) (o' : EmitOptions), (res'.statement d' o').Plain →
        (emit d' res' o' none).text = (emit d res o none).text →
        (res'.statement d' o').shown = (res.statement d o).shown := by
  refine ⟨isComplete_emit, fun limit hcomplete => ?_, ?_, fun d' res' o' h' heq => ?_⟩
  · rw [text_emit hcomplete, ModelStatement.read?_text h]
  · rw [text_emit isComplete_emit, ModelStatement.text_shown, String.toList_ofList]
  · rw [text_emit isComplete_emit, text_emit isComplete_emit] at heq
    exact ModelStatement.shown_inj h' h (String.ofList_injective heq)

/-- An array of data objects, each with an array of numbers and an array of structures. -/
def arrayTypes : Registry where
  nodeTypes := ⟨[("L", ⟨"L", "LLN0", [⟨"Har", "H", 2, true⟩]⟩)]⟩
  objectTypes := ⟨[("H", ⟨"H", "HMV", [],
    [⟨"num", .st, .int32, none, 2, {}, some "1", []⟩,
      ⟨"val", .mx, .constructed, some "V", 2, {}, none, []⟩]⟩)]⟩
  attributeTypes := ⟨[("V", ⟨"V", [⟨"unit", .none, .visibleString64, none, 0, {}, none, []⟩]⟩)]⟩

/-- Control blocks of all kinds, and a member that is an element of an array. -/
def arrayNode : LogicalNode where
  lnClass := "LLN0"
  lnType := "L"
  inst := ""
  lnPrefix := none
  desc := none
  dataSets := [⟨"Set", [
    { ldInst := some "LD", lnClass := some "LLN0", doName := some "Har",
      daName := some "val(1).unit", fc := "MX" },
    { lnClass := some "LLN0", doName := some "Har", fc := "ST" }]⟩]
  reports := [⟨"Rpt", some "R", some "Set", some "1", some "true", none, none, none, none, none,
    some ⟨some "2"⟩⟩]
  logControls := [⟨"Log", none, none, none, none, none, none, some "Events", none, none, none⟩]
  instances := [⟨"Har", none, [.mk "val" none [] [⟨"unit", none, none, [⟨none, "m / s;"⟩]⟩]],
    [⟨"num", none, none, [⟨none, "3"⟩]⟩]⟩]
  logs := ["Events"]
  gseControls := [⟨"Gse", some "A", some "Set", some "1", none, none⟩]
  sampledControls := [⟨"Smv", some "S", some "Set", some "1", none, some "80", none, none, none⟩]
  settings := some ⟨some "2", some "1", none⟩

/-- An IED with that logical node. -/
def arrayIed : Ied :=
  ⟨"E", none, none, none, [⟨"A", some ⟨[⟨"LD", none, none, some arrayNode, []⟩]⟩⟩]⟩

/-- The address of its event messages. -/
def arrayConnection : ConnectedAp :=
  ⟨"E", "A", none, [⟨some "LD", some "Gse",
    some ⟨[⟨"MAC-Address", "01-0C-CD-01-00-0a"⟩, ⟨"APPID", "3001"⟩]⟩, none, none⟩], []⟩

/-- A document with that IED. -/
def arrayDocument : Document :=
  ⟨⟨none, none, none, none, some ⟨[⟨"N", none, [arrayConnection]⟩]⟩, [arrayIed], none⟩,
    arrayTypes, []⟩

/-- Its static model can be read again. -/
theorem read?_emit_array : ∃ res, resolve arrayDocument "E" none {} = .ok res ∧
    (res.statement arrayDocument {}).Plain ∧ (emit arrayDocument res {} none).isComplete = true ∧
      ModelStatement.read? (emit arrayDocument res {} none).text =
        some (res.statement arrayDocument {}).shown := by
  let res := Resolution.ofAccessPoint arrayDocument {} arrayIed
    ⟨"A", some ⟨[⟨"LD", none, none, some arrayNode, []⟩]⟩⟩
  have hres : resolve arrayDocument "E" none {} = .ok res := rfl
  have htexts : ∀ t ∈ (res.statement arrayDocument {}).texts, Bare t := by decide +kernel
  have hliterals : ∀ v ∈ (res.statement arrayDocument {}).literals, '\n' ∉ v.toList := by
    decide +kernel
  obtain ⟨hcomplete, hread, -⟩ := read?_emit ⟨htexts, hliterals⟩
  exact ⟨res, hres, ⟨htexts, hliterals⟩, hcomplete, hread none hcomplete⟩

end Substation
