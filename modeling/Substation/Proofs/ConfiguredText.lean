import Mathlib.Tactic.Common
import Substation.Proofs.AgreeingModels
import Substation.Proofs.EmittedBlocks
import Substation.Proofs.LineShapes
import Substation.Proofs.StaticText

/-!
# Configured texts in the static model

Values and optional attributes of control blocks are written as they are, without any escapes. Two
documents that differ in nothing else are resolved alike, and the rows of their static models
correspond: same tags, same numbers of fields, and a data attribute differs in its value only. What
the lines of the text look like is another matter. A value with a line feed adds a line, and an
attribute with a blank adds a field; the texts that do neither leave the shapes of all lines as they
are (`configured_text_keeps_shapes`).

Results:
* `configured_text_keeps_shapes` (`emit_static_model`): texts that are harmless leave the shapes of
  the lines;
* `configured_text_breaks_shapes`: others need not.
-/

namespace Substation

open Substation.Config
open Substation.Emission
open Substation.Template (Registry AttributeDef)

/-! ## Harmless texts -/

/-- An optional attribute breaks neither a line nor a list of fields. -/
def Harmless (t : Option String) : Prop := Unbroken (t.getD "").toList

instance : DecidablePred Harmless := fun _ => inferInstanceAs (Decidable (Unbroken _))

/-- The mask that hides the texts which do no harm where they are written: values on one line, and
unbroken attributes. The owner of a log is written along with its name, so whether there is a name
is hidden only if the owner is unbroken, too. -/
def Config.Mask.harmless : Mask where
  value t := if '\n' ∉ t.toList then "" else t
  optional t := if Harmless t then none else t
  log owner t :=
    if Harmless t then
      if (t.getD "").isEmpty ∨ Unbroken owner.toList then none else some ""
    else t

theorem eq_or_of_hidden {α : Type} {P : α → Prop} [DecidablePred P] {d : α} (hd : P d) {x y : α}
    (h : (if P x then d else x) = if P y then d else y) : x = y ∨ P x ∧ P y := by
  by_cases hx : P x
  · by_cases hy : P y
    · exact .inr ⟨hx, hy⟩
    · rw [if_pos hx, if_neg hy] at h
      exact absurd (h ▸ hd) hy
  · by_cases hy : P y
    · rw [if_neg hx, if_pos hy] at h
      exact absurd (h ▸ hd) hx
    · rw [if_neg hx, if_neg hy] at h
      exact .inl h

theorem Harmless.textOr {t : Option String} (ht : Harmless t) {default : String}
    (hdefault : Unbroken default.toList) : Unbroken (textOr default t).toList := by
  cases t with
  | none => exact hdefault
  | some s =>
    cases hs : s.isEmpty with
    | true => simpa [Config.textOr, Option.filter, hs] using hdefault
    | false => simpa [Config.textOr, Option.filter, hs, Harmless] using ht

theorem logText_eq (owner : String) (t : Option String) : logText owner t =
    if (t.getD "").isEmpty then "-" else owner ++ t.getD "" := by
  cases t with
  | none => rfl
  | some s => cases hs : s.isEmpty <;> simp [logText, Option.filter, hs]

theorem Harmless.logText {t : Option String} (ht : Harmless t) {owner : String}
    (howner : Unbroken owner.toList) : Unbroken (logText owner t).toList := by
  rw [logText_eq]
  split
  · decide
  · rw [String.toList_append]
    exact howner.append ht

/-- Names of a log that are the same behind the mask are equal or harmless, and if a name is given
on one side only, its owner is unbroken. -/
theorem eq_or_of_log_harmless {owner : String} {x y : Option String}
    (h : Config.Mask.harmless.log owner x = Config.Mask.harmless.log owner y) :
    x = y ∨ Harmless x ∧ Harmless y ∧
      (Unbroken owner.toList ∨ ((x.getD "").isEmpty ↔ (y.getD "").isEmpty)) := by
  have hshown (t : Option String) :
      Harmless (Config.Mask.harmless.log owner t) ↔ Harmless t := by
    simp only [Config.Mask.harmless]
    by_cases ht : Harmless t
    · rw [if_pos ht]
      refine iff_of_true ?_ ht
      split <;> decide
    · rw [if_neg ht]
  by_cases hx : Harmless x
  · have hy : Harmless y := (hshown y).mp (h ▸ (hshown x).mpr hx)
    refine .inr ⟨hx, hy, ?_⟩
    by_cases howner : Unbroken owner.toList
    · exact .inl howner
    · simp only [Config.Mask.harmless, if_pos hx, if_pos hy, howner, or_false] at h
      by_cases hempty : (x.getD "").isEmpty <;> by_cases hempty' : (y.getD "").isEmpty <;>
        simp_all
  · have hy : ¬Harmless y := fun hy => hx ((hshown x).mp (h ▸ (hshown y).mpr hy))
    simp only [Config.Mask.harmless, if_neg hx, if_neg hy] at h
    exact .inl h

theorem exchangeable_logText {device node : String} {x y : Option String} (hx : Harmless x)
    (hy : Harmless y)
    (h : Unbroken (logOwner device node).toList ∨ ((x.getD "").isEmpty ↔ (y.getD "").isEmpty)) :
    Exchangeable (logText (logOwner device node) x) (logText (logOwner device node) y) := by
  rcases h with howner | hempty
  · exact .word (hx.logText howner) (hy.logText howner)
  · rw [logText_eq, logText_eq]
    by_cases hnone : (x.getD "").isEmpty
    · rw [if_pos hnone, if_pos (hempty.mp hnone)]
      exact .same _
    · rw [if_neg hnone, if_neg (hempty.not.mp hnone)]
      exact .log device node hx hy

/-- A value on one line is written as a literal on one line. -/
theorem plain_literal? {value : String} (h : '\n' ∉ value.toList) (r : Registry)
    (a : AttributeDef) : (Tail.assignment (literal? r a value)).Plain := by
  intro v hv
  unfold literal? at hv
  split at hv
  · obtain ⟨n, -, rfl⟩ := Option.map_eq_some_iff.mp hv
    exact (Bare.of_isNumeric fun _ => Text.isNumeric_toString_int).not_mem (by decide)
  iterate 10
    · cases hv
      exact h
  · cases hv
    split <;> decide
  iterate 8
    · cases hv
      simpa using h
  · cases hv

theorem hides_all : Hides .all (fun _ _ => True) (fun _ _ => True) :=
  ⟨fun _ => trivial, fun _ _ _ => trivial, fun _ => trivial, trivial, fun _ _ _ => trivial⟩

theorem hides_harmless : Hides .harmless SameLine Exchangeable where
  same := .same
  optional {x y} h default hdefault := by
    have hunbroken : Unbroken default.toList := by
      simp only [List.mem_cons, List.not_mem_nil, or_false] at hdefault
      rcases hdefault with rfl | rfl | rfl <;> decide
    rcases eq_or_of_hidden (P := Harmless) (by decide) h with rfl | ⟨hx, hy⟩
    · exact .same _
    · exact .word (hx.textOr hunbroken) (hy.textOr hunbroken)
  log h := by
    rcases eq_or_of_log_harmless h with rfl | ⟨hx, hy, howner⟩
    · exact .same _
    · exact exchangeable_logText hx hy howner
  unset := .inl rfl
  value {x y} h r a := by
    rcases eq_or_of_hidden (P := fun t : String => '\n' ∉ t.toList) (by decide) h with
      rfl | ⟨hx, hy⟩
    · exact .inl rfl
    · exact .inr ⟨plain_literal? hx r a, plain_literal? hy r a⟩

/-! ## The static models of two documents -/

/-- The rows of two static models correspond, whatever values and fields of control blocks are. -/
abbrev Correspond : Layout → Layout → Prop := Layout.Agrees (fun _ _ => True) (fun _ _ => True)

theorem map_eq_error_iff {ε α β : Type} {g : α → β} {x : Except ε α} {e : ε} :
    x.map g = .error e ↔ x = .error e := by
  cases x with
  | error e' => simp only [Except.map, Except.error.injEq]
  | ok a => simp only [Except.map, reduceCtorEq]

/-- **What configured texts do to a static model.** Documents that differ only in values and in
optional attributes of control blocks are resolved alike. Their static models correspond row by row,
and the text of each is that of its rows. If the texts that differ are harmless, the lines of the
two texts have the same tags and the same numbers of fields, too. -/
theorem configured_text_keeps_shapes {d₁ d₂ : Document} (h : d₁.masked .all = d₂.masked .all)
    (ied : String) (ap : Option String) (ro : ResolveOptions) (eo : EmitOptions) :
    (∀ f, resolve d₁ ied ap ro = .error f ↔ resolve d₂ ied ap ro = .error f) ∧
    ∀ res₁ res₂, resolve d₁ ied ap ro = .ok res₁ → resolve d₂ ied ap ro = .ok res₂ →
      Correspond (res₁.statement d₁ eo).layout (res₂.statement d₂ eo).layout ∧
      (emit d₁ res₁ eo none).text = textOfLines (res₁.statement d₁ eo).layout.lines ∧
      (emit d₂ res₂ eo none).text = textOfLines (res₂.statement d₂ eo).layout.lines ∧
      (d₁.masked .harmless = d₂.masked .harmless →
        shapes (emit d₁ res₁ eo none).text.toList = shapes (emit d₂ res₂ eo none).text.toList) := by
  refine ⟨fun f => ?_, fun res₁ res₂ h₁ h₂ => ?_⟩
  · have hsame := Resolution.masked_resolve .all h ied ap ro
    constructor
    · intro hf
      rw [hf] at hsame
      exact map_eq_error_iff.mp hsame.symm
    · intro hf
      rw [hf] at hsame
      exact map_eq_error_iff.mp hsame
  · refine ⟨agrees_of_masked hides_all h h₁ h₂ eo, text_emit_eq_textOfLines,
      text_emit_eq_textOfLines, fun hharmless => ?_⟩
    rw [text_emit_eq_textOfLines, text_emit_eq_textOfLines, textOfLines, textOfLines,
      String.toList_ofList, String.toList_ofList]
    exact shapes_of_agrees (agrees_of_masked hides_harmless hharmless h₁ h₂ eo)

/-! ### Texts that do harm -/

/-- A data attribute for a text, with the types of its data object and its logical node. -/
def textTypes : Registry where
  nodeTypes := ⟨[("L", ⟨"L", "LLN0", [⟨"Loc", "T", 0, false⟩]⟩)]⟩
  objectTypes := ⟨[("T", ⟨"T", "DPL", [],
    [⟨"d", .dc, .visibleString255, none, 0, {}, none, []⟩]⟩)]⟩

/-- A logical node with a value of that attribute, a report and a log control block. -/
def textNode (value : String) (rptId logName : Option String) : LogicalNode where
  lnClass := "LLN0"
  lnType := "L"
  inst := ""
  lnPrefix := none
  desc := none
  dataSets := []
  reports := [⟨"Rpt", rptId, none, none, none, none, none, none, none, none, none⟩]
  logControls := [⟨"Log", none, none, none, none, none, none, logName, none, none, none⟩]
  instances := [⟨"Loc", none, [], [⟨"d", none, none, [⟨none, value⟩]⟩]⟩]
  logs := []
  gseControls := []
  sampledControls := []
  settings := none

/-- An access point with that logical node on the logical device `inst`. -/
def textPoint (inst value : String) (rptId logName : Option String) : AccessPoint :=
  ⟨"A", some ⟨[⟨inst, none, none, some (textNode value rptId logName), []⟩]⟩⟩

/-- An IED with that access point. -/
def textIed (inst value : String) (rptId logName : Option String) : Ied :=
  ⟨"E", none, none, none, [textPoint inst value rptId logName]⟩

/-- A document with that IED. -/
def textDocument (inst value : String) (rptId logName : Option String) : Document :=
  ⟨⟨none, none, none, none, none, [textIed inst value rptId logName], none⟩, textTypes, []⟩

/-- Its resolution. -/
def textResolution (inst value : String) (rptId logName : Option String) : Resolution :=
  .ofAccessPoint (textDocument inst value rptId logName) {} (textIed inst value rptId logName)
    (textPoint inst value rptId logName)

/-- The shapes of the lines of its static model. -/
def textShapes (inst value : String) (rptId logName : Option String) :
    List (List Char × Option Nat) :=
  shapes (emit (textDocument inst value rptId logName) (textResolution inst value rptId logName)
    {} none).text.toList

theorem textShapes_eq (inst value : String) (rptId logName : Option String) :
    textShapes inst value rptId logName =
      shapes (((textResolution inst value rptId logName).statement
        (textDocument inst value rptId logName) {}).layout.lines.flatMap
          fun l => l.toList ++ ['\n']) := by
  rw [textShapes, text_emit_eq_textOfLines, textOfLines, String.toList_ofList]

/-- A name of a log more, another value and another identification do no harm. -/
theorem configured_text_keeps_shapes_harmless :
    (textDocument "LD" "on" (some "R") none).masked .all =
      (textDocument "LD" "not (yet) on" (some "Q(1") (some "Events")).masked .all ∧
    (textDocument "LD" "on" (some "R") none).masked .harmless =
      (textDocument "LD" "not (yet) on" (some "Q(1") (some "Events")).masked .harmless ∧
    textShapes "LD" "on" (some "R") none =
      textShapes "LD" "not (yet) on" (some "Q(1") (some "Events") := by
  have hall : (textDocument "LD" "on" (some "R") none).masked .all =
      (textDocument "LD" "not (yet) on" (some "Q(1") (some "Events")).masked .all := rfl
  have hharmless : (textDocument "LD" "on" (some "R") none).masked .harmless =
      (textDocument "LD" "not (yet) on" (some "Q(1") (some "Events")).masked .harmless := rfl
  obtain ⟨-, h⟩ := configured_text_keeps_shapes hall "E" none {} {}
  obtain ⟨-, -, -, hshapes⟩ := h _ _ rfl rfl
  exact ⟨hall, hharmless, hshapes hharmless⟩

/-- **Configured texts can break the shapes of the lines.** A value with a line feed makes another
line, which may look like a statement. An identification with a blank makes a field more, and so
does a name of a log if there is a blank in the name of its owner. -/
theorem configured_text_breaks_shapes :
    ((textDocument "LD" "on" (some "R") none).masked .all =
        (textDocument "LD" "on\nLOG(x)" (some "R") none).masked .all ∧
      resolve (textDocument "LD" "on" (some "R") none) "E" none {} =
        .ok (textResolution "LD" "on" (some "R") none) ∧
      resolve (textDocument "LD" "on\nLOG(x)" (some "R") none) "E" none {} =
        .ok (textResolution "LD" "on\nLOG(x)" (some "R") none) ∧
      (textShapes "LD" "on\nLOG(x)" (some "R") none).length =
        (textShapes "LD" "on" (some "R") none).length + 1 ∧
      ("LOG".toList, some 1) ∈ textShapes "LD" "on\nLOG(x)" (some "R") none) ∧
    ((textDocument "LD" "on" (some "R") none).masked .all =
        (textDocument "LD" "on" (some "R 1") none).masked .all ∧
      resolve (textDocument "LD" "on" (some "R 1") none) "E" none {} =
        .ok (textResolution "LD" "on" (some "R 1") none) ∧
      ("RC".toList, some 9) ∈ textShapes "LD" "on" (some "R") none ∧
      ("RC".toList, some 9) ∉ textShapes "LD" "on" (some "R 1") none) ∧
    ((textDocument "L D" "on" (some "R") none).masked .all =
        (textDocument "L D" "on" (some "R") (some "x")).masked .all ∧
      resolve (textDocument "L D" "on" (some "R") none) "E" none {} =
        .ok (textResolution "L D" "on" (some "R") none) ∧
      resolve (textDocument "L D" "on" (some "R") (some "x")) "E" none {} =
        .ok (textResolution "L D" "on" (some "R") (some "x")) ∧
      ("LC".toList, some 7) ∈ textShapes "L D" "on" (some "R") none ∧
      ("LC".toList, some 7) ∉ textShapes "L D" "on" (some "R") (some "x")) := by
  -- the lines are much faster to compute than the text
  refine ⟨⟨rfl, rfl, rfl, ?_, ?_⟩, ⟨rfl, rfl, ?_, ?_⟩, ⟨rfl, rfl, rfl, ?_, ?_⟩⟩
  all_goals
    simp only [textShapes_eq]
    decide +kernel

end Substation
