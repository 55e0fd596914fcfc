import Mathlib.Data.List.DropRight
import Mathlib.Tactic.Common
import Substation.Document
import Substation.Emission.Literal
import Substation.Model.InstanceCheck
import Substation.Proofs.FirstDefinitions

/-!
# Values of enumerated attributes

A configured value of an enumerated attribute is looked up twice: as it is written, when it is
checked, and without the white space around it, when its number is written. Both look-ups agree on
values without white space around them. The symbols of a document have none
(`trimmed_ofScl`), so a value of a document that passes the check is written, and the values that
are written although they do not pass it are exactly those whose symbol stands between blanks.

Results:
* `trimmed_ofScl` (`convert_enum_type`): symbols have no white space around them;
* `enumValue_written_iff` (`check_dai_value`, `encode_value`): when a value is written;
* `enumValue_written_and_reported`: a value may be written and reported at once.
-/

namespace Substation

open Substation.Config
open Substation.Emission
open Substation.Journal
open Substation.Model
open Substation.Template
open Substation.Text

/-! ## Trimming -/

namespace Text

theorem dropWhile_trimChars (s : List Char) :
    (trimChars s).dropWhile isWhite = trimChars s := by
  -- trimming the end keeps the first character of what has no white space at its start
  have hstart : trimChars s <+: s.dropWhile isWhite :=
    List.rdropWhile_prefix isWhite (s.dropWhile isWhite)
  refine List.dropWhile_eq_self_iff.mpr fun hpos => ?_
  rw [hstart.getElem hpos]
  exact List.dropWhile_get_zero_not isWhite s (Nat.lt_of_lt_of_le hpos hstart.length_le)

theorem trimChars_trimChars (s : List Char) : trimChars (trimChars s) = trimChars s := by
  show dropWhileEnd isWhite ((trimChars s).dropWhile isWhite) = trimChars s
  rw [dropWhile_trimChars]
  exact List.rdropWhile_idempotent isWhite _

theorem trim_trim (s : String) : trim (trim s) = trim s := by
  unfold trim
  rw [String.toList_ofList, trimChars_trimChars]

end Text

/-! ## The symbols of a document -/

namespace Template

/-- No symbol has white space around it. -/
def EnumType.Trimmed (t : EnumType) : Prop := ∀ s ∈ t.symbols, trim s.text = s.text

theorem EnumType.isSome_ordOf?_iff (t : EnumType) (text : String) :
    (t.ordOf? text).isSome ↔ ∃ s ∈ t.symbols, s.text = text := by
  simp [ordOf?]

/-- What a list of entries is read as comes from its entries. -/
theorem exists_of_mem_mapM {α β ε : Type} {f : α → Except ε β} {xs : List α} {ys : List β}
    (h : xs.mapM f = .ok ys) {y : β} (hy : y ∈ ys) : ∃ x ∈ xs, f x = .ok y := by
  have hread := (mapM_eq_ok_iff (R := fun x y => f x = .ok y) fun _ _ => Iff.rfl).mp h
  clear h
  induction hread with
  | nil => exact absurd hy List.not_mem_nil
  | cons hx _ ih =>
    rcases List.mem_cons.mp hy with rfl | hy
    · exact ⟨_, List.mem_cons_self, hx⟩
    · obtain ⟨x, hmem, hx⟩ := ih hy
      exact ⟨x, List.mem_cons_of_mem _ hmem, hx⟩

theorem EnumSymbol.trim_of_ofEntry {e : SymbolEntry} {s : EnumSymbol}
    (h : EnumSymbol.ofEntry e = .ok s) : trim s.text = s.text := by
  unfold EnumSymbol.ofEntry at h
  split at h
  · cases h
    exact trim_trim e.text
  · cases h

theorem EnumType.trimmed_of_ofEntry {e : EnumTypeEntry} {t : EnumType}
    (h : EnumType.ofEntry e = .ok t) : t.Trimmed := by
  obtain ⟨symbols, hsymbols, ⟨⟩⟩ := bind_eq_ok_iff.mp h
  intro s hs
  obtain ⟨entry, -, hentry⟩ := exists_of_mem_mapM hsymbols hs
  exact EnumSymbol.trim_of_ofEntry hentry

/-- No symbol of an enumeration has white space around it. -/
def Registry.Trimmed (r : Registry) : Prop := ∀ id t, r.enumType? id = some t → t.Trimmed

theorem Written.trimmed_of_convert {w : Written} {t : EnumType}
    (h : w.convert = .ok (.enumType t)) : t.Trimmed := by
  cases w with
  | enumType e =>
    obtain ⟨_, ht, ⟨⟩⟩ := map_eq_ok_iff.mp h
    exact EnumType.trimmed_of_ofEntry ht
  -- templates of other kinds do not convert to an enumeration
  | _ => cases (key_of_convert h).1

end Template

/-- **No symbol of a document has white space around it.** -/
theorem trimmed_ofScl (scl : Scl) : (Document.ofScl scl).registry.Trimmed := by
  intro id t ht
  have hfind : (Document.ofScl scl).registry.find? id .enumType = some (.enumType t) := by
    rw [Registry.find?, ht]
    rfl
  obtain ⟨w, -, -, -, hconvert⟩ := exists_of_find?_ofScl hfind
  exact Written.trimmed_of_convert hconvert

/-! ## Checked values and written values -/

section Enumerated

variable {a : AttributeDef} (ha : a.type = .enumerated)
include ha

theorem valueFault?_eq_none_iff (r : Registry) (v : String) :
    valueFault? r a v = none ↔
      ∃ t, a.typeId.bind r.enumType? = some t ∧ ∃ s ∈ t.symbols, s.text = v := by
  unfold valueFault?
  rw [if_pos ha]
  cases hid : a.typeId with
  | none => simp
  | some enumId =>
    cases ht : r.enumType? enumId with
    | none => simp [ht]
    | some t =>
      cases hord : t.ordOf? v with
      | none =>
        have hnot : ¬ ∃ s ∈ t.symbols, s.text = v := by
          rw [← EnumType.isSome_ordOf?_iff, hord]
          exact Bool.false_ne_true
        simpa [ht, hord] using hnot
      | some ord =>
        have hsome : ∃ s ∈ t.symbols, s.text = v := by
          rw [← EnumType.isSome_ordOf?_iff, hord]
          rfl
        simpa [ht, hord] using hsome

theorem isSome_literal?_iff (r : Registry) (v : String) :
    (literal? r a v).isSome ↔
      ∃ t, a.typeId.bind r.enumType? = some t ∧ ∃ s ∈ t.symbols, s.text = trim v := by
  unfold literal?
  rw [ha]
  cases ht : a.typeId.bind r.enumType? with
  | none => simp
  | some t => simp [← EnumType.isSome_ordOf?_iff]

end Enumerated

/-- The trimmed form of a value passes the check exactly if the value is written. -/
theorem valueFault?_trim_eq_none_iff (r : Registry) {a : AttributeDef} (ha : a.type = .enumerated)
    (v : String) : valueFault? r a (trim v) = none ↔ (literal? r a v).isSome :=
  (valueFault?_eq_none_iff ha r (trim v)).trans (isSome_literal?_iff ha r v).symm

theorem valueFault?_eq_none_iff_of_trimmed {r : Registry} (hr : r.Trimmed) {a : AttributeDef}
    (ha : a.type = .enumerated) (v : String) :
    valueFault? r a v = none ↔ (literal? r a v).isSome ∧ trim v = v := by
  constructor
  · intro h
    obtain ⟨t, ht, s, hs, rfl⟩ := (valueFault?_eq_none_iff ha r v).mp h
    obtain ⟨id, -, hid⟩ := Option.bind_eq_some_iff.mp ht
    have htrim : trim s.text = s.text := hr id t hid s hs
    exact ⟨(isSome_literal?_iff ha r s.text).mpr ⟨t, ht, s, hs, htrim.symm⟩, htrim⟩
  · rintro ⟨hsome, htrim⟩
    rw [← htrim]
    exact (valueFault?_trim_eq_none_iff r ha v).mpr hsome

/-- The findings about a configured attribute are the faults of its values. -/
theorem mem_valueFindings {r : Registry} {leaf : Branch} {fc : Constraint} {a : AttributeDef}
    (hkind : leaf.node.kind = .leaf fc a) {dai : Dai} {f : Finding} :
    f ∈ valueFindings r leaf dai ↔
      ∃ v ∈ dai.values, ∃ fault, valueFault? r a v.text = some fault ∧
        f = .badValue leaf.ref fault := by
  simp only [valueFindings, hkind, List.mem_filterMap, Option.map_eq_some_iff,
    @eq_comm _ f]

theorem valueFindings_eq_nil_iff {r : Registry} {leaf : Branch} {fc : Constraint}
    {a : AttributeDef} (hkind : leaf.node.kind = .leaf fc a) {dai : Dai} :
    valueFindings r leaf dai = [] ↔ ∀ v ∈ dai.values, valueFault? r a v.text = none := by
  simp only [valueFindings, hkind, List.filterMap_eq_nil_iff, Option.map_eq_none_iff]

/-- **A value of an enumerated attribute is written exactly if it passes the check without the white
space around it.** In a document the values that pass the check as they stand are those that are
written and have no white space around them, and each value that is not written has been reported
as an error at its attribute. -/
theorem enumValue_written_iff {leaf : Branch} {fc : Constraint} {a : AttributeDef}
    (hkind : leaf.node.kind = .leaf fc a) (ha : a.type = .enumerated) :
    (∀ (r : Registry) (v : String),
      ((literal? r a v).isSome ↔ valueFault? r a (trim v) = none) ∧
      (trim v = v → ((literal? r a v).isSome ↔ valueFault? r a v = none))) ∧
    ∀ (scl : Scl) (dai : Dai),
      (valueFindings (Document.ofScl scl).registry leaf dai = [] ↔ ∀ v ∈ dai.values,
        (literal? (Document.ofScl scl).registry a v.text).isSome ∧ trim v.text = v.text) ∧
      ∀ v ∈ dai.values, literal? (Document.ofScl scl).registry a v.text = none →
        ∃ fault, valueFault? (Document.ofScl scl).registry a v.text = some fault ∧
          Finding.badValue leaf.ref fault ∈ valueFindings (Document.ofScl scl).registry leaf dai ∧
          (Finding.badValue leaf.ref fault).issue.severity = .error := by
  refine ⟨fun r v => ⟨(valueFault?_trim_eq_none_iff r ha v).symm, fun htrim => ?_⟩,
    fun scl dai => ⟨?_, fun v hv hnone => ?_⟩⟩
  · rw [← valueFault?_trim_eq_none_iff r ha v, htrim]
  · rw [valueFindings_eq_nil_iff hkind]
    exact forall₂_congr fun v _ =>
      valueFault?_eq_none_iff_of_trimmed (trimmed_ofScl scl) ha v.text
  · cases hfault : valueFault? (Document.ofScl scl).registry a v.text with
    | none =>
      have hsome := (valueFault?_eq_none_iff_of_trimmed (trimmed_ofScl scl) ha v.text).mp hfault
      rw [hnone] at hsome
      exact absurd hsome.1 Bool.false_ne_true
    | some fault =>
      exact ⟨fault, rfl, (mem_valueFindings hkind).mpr ⟨v, hv, fault, hfault, rfl⟩, rfl⟩

/-- An attribute of an enumeration. -/
def stateDef : AttributeDef := ⟨"stVal", .st, .enumerated, some "B", 0, {}, none, []⟩

/-- A node for it. -/
def stateLeaf : Branch :=
  .mk 3 ⟨"stVal", "ELD/LLN0.Mod.stVal", some 2, [], .leaf .st stateDef⟩ []

/-- A document with the enumeration; one symbol is written between blanks. -/
def stateScl : Scl where
  version := none
  revision := none
  release := none
  header := none
  communication := none
  ieds := []
  types := some ⟨[], [], [], [⟨"B", [⟨some "1", "on"⟩, ⟨some "5", " off "⟩]⟩]⟩

/-- The two symbols pass the check; a third text is not written, and it is reported. -/
theorem enumValue_written_iff_states :
    stateLeaf.node.kind = .leaf .st stateDef ∧ stateDef.type = .enumerated ∧
    valueFindings (Document.ofScl stateScl).registry stateLeaf
      ⟨"stVal", none, none, [⟨none, "on"⟩, ⟨none, "off"⟩]⟩ = [] ∧
    ∃ fault, valueFault? (Document.ofScl stateScl).registry stateDef "test" = some fault ∧
      Finding.badValue stateLeaf.ref fault ∈ valueFindings (Document.ofScl stateScl).registry
        stateLeaf ⟨"stVal", none, none, [⟨none, "test"⟩]⟩ ∧
      (Finding.badValue stateLeaf.ref fault).issue.severity = .error := by
  obtain ⟨-, hdocument⟩ := @enumValue_written_iff stateLeaf .st stateDef rfl rfl
  refine ⟨rfl, rfl, (hdocument stateScl _).1.mpr (by decide +kernel), ?_⟩
  exact (hdocument stateScl ⟨"stVal", none, none, [⟨none, "test"⟩]⟩).2 _ List.mem_cons_self
    (by decide +kernel)

/-- A symbol with a blank before it is written as its number although it does not pass the check,
so a value may be written and reported at once. -/
theorem enumValue_written_and_reported :
    ¬ ∀ (r : Registry) (a : AttributeDef), a.type = .enumerated → ∀ v,
      ((literal? r a v).isSome ↔ valueFault? r a v = none) := by
  intro h
  have hon := h (Document.ofScl stateScl).registry stateDef rfl " on"
  have hwritten : literal? (Document.ofScl stateScl).registry stateDef " on" = some "1" := by
    decide +kernel
  have hfault : valueFault? (Document.ofScl stateScl).registry stateDef " on" =
      some (.unknownSymbol " on" "B") := by
    decide +kernel
  rw [hwritten, hfault] at hon
  exact absurd (hon.mp rfl) (by simp)

end Substation
