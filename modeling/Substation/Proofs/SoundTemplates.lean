import Mathlib.Tactic.Common
import Substation.Proofs.SoundEntries

/-!
# Sound templates

A template is refused for the first of its faulty entries (`Written.FirstFault`), nested data
objects before data attributes, and otherwise defines what its entries define (`Written.Defines`).
For every kind and id the registry of a document holds what the first sound template defines,
whatever stands before it and behind it.

Results:
* `Written.definition?_eq_some_iff`, `Written.issue?_eq_some_iff`: how a template is converted
  (`convert_lnode_type`, `convert_do_type`, `convert_da_type`, `convert_enum_type`), and what is
  reported of it (`report_structural`);
* `registry_holds_first`: the registry (`from_model`, `insert_first`, `ids`) and the log of a
  document.
-/

namespace Substation

open Substation.Config
open Substation.Journal
open Substation.Template

namespace Template

/-! ## Entries in order -/

/-- An entry of a template, with the element that it is written as. -/
inductive Child where
  | object (element : String) (e : ObjectEntry)
  | leaf (element : String) (e : AttributeEntry)
  | symbol (e : SymbolEntry)

/-- What is said about a faulty entry. -/
def Child.Faulty : Child → String → Prop
  | object element e => e.Faulty element
  | leaf element e => e.Faulty element
  | symbol e => e.Faulty

/-- The fault of an entry, if it has one. -/
def Child.fault? : Child → Option EntryFault
  | object element e => Template.fault? (ObjectDef.ofEntry element e)
  | leaf element e => Template.fault? (AttributeDef.ofEntry element e)
  | symbol e => Template.fault? (EnumSymbol.ofEntry e)

theorem Child.faulty_iff {c : Child} {message : String} :
    c.Faulty message ↔ c.fault?.map EntryFault.message = some message := by
  cases c with
  | object element e => exact ObjectEntry.faulty_iff
  | leaf element e => exact AttributeEntry.faulty_iff
  | symbol e => exact SymbolEntry.faulty_iff

theorem Child.fault?_eq_none_iff {c : Child} : c.fault? = none ↔ ∀ message, ¬ c.Faulty message := by
  simp [faulty_iff, Option.eq_none_iff_forall_ne_some]

namespace Written

/-- The entries of a template, nested data objects before data attributes. -/
def children : Written → List Child
  | nodeType t => t.objects.map (.object "DO")
  | objectType t => t.objects.map (.object "SDO") ++ t.leaves.map (.leaf "DA")
  | attributeType t => t.leaves.map (.leaf "BDA")
  | enumType t => t.symbols.map .symbol

/-- The first faulty entry is the one of which this is said. -/
def FirstFault (w : Written) (message : String) : Prop :=
  ∃ front c back, w.children = front ++ c :: back ∧ c.Faulty message ∧
    ∀ c' ∈ front, ∀ message', ¬ c'.Faulty message'

/-- What a template defines if all its entries are sound. -/
inductive Defines : Written → Definition → Prop
  | nodeType {t : NodeTypeEntry} {objects : List ObjectDef}
    (hobjects : List.Forall₂ ObjectEntry.Defines t.objects objects) :
    Defines (.nodeType t) (.nodeType ⟨t.id, t.lnClass, objects⟩)
  | objectType {t : ObjectTypeEntry} {objects : List ObjectDef} {leaves : List AttributeDef}
    (hobjects : List.Forall₂ ObjectEntry.Defines t.objects objects)
    (hleaves : List.Forall₂ AttributeEntry.Defines t.leaves leaves) :
    Defines (.objectType t) (.objectType ⟨t.id, t.cdc, objects, leaves⟩)
  | attributeType {t : AttributeTypeEntry} {leaves : List AttributeDef}
    (hleaves : List.Forall₂ AttributeEntry.Defines t.leaves leaves) :
    Defines (.attributeType t) (.attributeType ⟨t.id, leaves⟩)
  | enumType {t : EnumTypeEntry} {symbols : List EnumSymbol}
    (hsymbols : List.Forall₂ SymbolEntry.Defines t.symbols symbols) :
    Defines (.enumType t) (.enumType ⟨t.id, symbols⟩)

theorem faults_eq (w : Written) : w.faults = w.children.filterMap Child.fault? := by
  cases w with
  | objectType t =>
    rw [children, List.filterMap_append, List.filterMap_map, List.filterMap_map]
    rfl
  | _ => rw [children, List.filterMap_map]; rfl

theorem firstFault_iff {w : Written} {message : String} :
    w.FirstFault message ↔ ∃ fault, w.faults.head? = some fault ∧ fault.message = message := by
  rw [faults_eq, List.head?_filterMap]
  constructor
  · rintro ⟨front, c, back, hchildren, hc, hfront⟩
    obtain ⟨fault, hfault, hmessage⟩ := Option.map_eq_some_iff.mp (Child.faulty_iff.mp hc)
    have hsound : ∀ c' ∈ front, c'.fault? = none := fun c' hc' =>
      Child.fault?_eq_none_iff.mpr (hfront c' hc')
    exact ⟨fault, List.findSome?_eq_some_iff.mpr ⟨front, c, back, hchildren, hfault, hsound⟩,
      hmessage⟩
  · rintro ⟨fault, hfault, hmessage⟩
    obtain ⟨front, c, back, hchildren, hc, hsound⟩ := List.findSome?_eq_some_iff.mp hfault
    exact ⟨front, c, back, hchildren,
      Child.faulty_iff.mpr (Option.map_eq_some_iff.mpr ⟨fault, hc, hmessage⟩),
      fun c' hc' => Child.fault?_eq_none_iff.mp (hsound c' hc')⟩

/-- **A template is reported iff an entry is faulty**, for the first one that is. -/
theorem issue?_eq_some_iff {w : Written} {issue : Issue} : w.issue? = some issue ↔
    ∃ message, w.FirstFault message ∧ issue = { severity := .error, message, object := w.id } := by
  simp only [firstFault_iff, issue?, Option.map_eq_some_iff]
  constructor
  · rintro ⟨fault, hfault, rfl⟩
    exact ⟨_, ⟨fault, hfault, rfl⟩, rfl⟩
  · rintro ⟨_, ⟨fault, hfault, rfl⟩, rfl⟩
    exact ⟨fault, hfault, rfl⟩

theorem mapM_object_eq_ok_iff {element : String} {es : List ObjectEntry}
    {objects : List ObjectDef} : es.mapM (ObjectDef.ofEntry element) = .ok objects ↔
      List.Forall₂ ObjectEntry.Defines es objects :=
  mapM_eq_ok_iff (R := ObjectEntry.Defines) fun _ _ => ObjectEntry.defines_iff

theorem mapM_leaf_eq_ok_iff {element : String} {es : List AttributeEntry}
    {leaves : List AttributeDef} : es.mapM (AttributeDef.ofEntry element) = .ok leaves ↔
      List.Forall₂ AttributeEntry.Defines es leaves :=
  mapM_eq_ok_iff (R := AttributeEntry.Defines) fun _ _ => AttributeEntry.defines_iff

theorem mapM_symbol_eq_ok_iff {es : List SymbolEntry} {symbols : List EnumSymbol} :
    es.mapM EnumSymbol.ofEntry = .ok symbols ↔ List.Forall₂ SymbolEntry.Defines es symbols :=
  mapM_eq_ok_iff (R := SymbolEntry.Defines) fun _ _ => SymbolEntry.defines_iff

theorem defines_of_convert {w : Written} {definition : Definition}
    (h : w.convert = .ok definition) : w.Defines definition := by
  cases w with
  | nodeType t =>
    obtain ⟨_, ht, rfl⟩ := map_eq_ok_iff.mp h
    obtain ⟨objects, ho, ⟨⟩⟩ := bind_eq_ok_iff.mp ht
    exact .nodeType (mapM_object_eq_ok_iff.mp ho)
  | objectType t =>
    obtain ⟨_, ht, rfl⟩ := map_eq_ok_iff.mp h
    obtain ⟨objects, ho, hrest⟩ := bind_eq_ok_iff.mp ht
    obtain ⟨leaves, hl, ⟨⟩⟩ := bind_eq_ok_iff.mp hrest
    exact .objectType (mapM_object_eq_ok_iff.mp ho) (mapM_leaf_eq_ok_iff.mp hl)
  | attributeType t =>
    obtain ⟨_, ht, rfl⟩ := map_eq_ok_iff.mp h
    obtain ⟨leaves, hl, ⟨⟩⟩ := bind_eq_ok_iff.mp ht
    exact .attributeType (mapM_leaf_eq_ok_iff.mp hl)
  | enumType t =>
    obtain ⟨_, ht, rfl⟩ := map_eq_ok_iff.mp h
    obtain ⟨symbols, hs, ⟨⟩⟩ := bind_eq_ok_iff.mp ht
    exact .enumType (mapM_symbol_eq_ok_iff.mp hs)

theorem Defines.convert {w : Written} {definition : Definition} (h : w.Defines definition) :
    w.convert = .ok definition := by
  cases h with
  | nodeType ho =>
    rw [Written.convert, NodeType.ofEntry, mapM_object_eq_ok_iff.mpr ho]
    rfl
  | objectType ho hl =>
    rw [Written.convert, ObjectType.ofEntry, mapM_object_eq_ok_iff.mpr ho,
      mapM_leaf_eq_ok_iff.mpr hl]
    rfl
  | attributeType hl =>
    rw [Written.convert, AttributeType.ofEntry, mapM_leaf_eq_ok_iff.mpr hl]
    rfl
  | enumType hs =>
    rw [Written.convert, EnumType.ofEntry, mapM_symbol_eq_ok_iff.mpr hs]
    rfl

/-- **A template that is not refused defines what its entries define.** -/
theorem convert_eq_ok_iff {w : Written} {definition : Definition} :
    w.convert = .ok definition ↔ w.Defines definition :=
  ⟨defines_of_convert, Defines.convert⟩

theorem definition?_eq_some_iff {w : Written} {definition : Definition} :
    w.definition? = some definition ↔ w.Defines definition := by
  rw [← convert_eq_ok_iff, definition?]
  cases w.convert <;> simp [Except.toOption]

/-- A template is refused iff one of its entries is the first faulty one. -/
theorem definition?_eq_none_iff_firstFault {w : Written} :
    w.definition? = none ↔ ∃ message, w.FirstFault message := by
  rw [definition?_eq_none_iff]
  simp only [firstFault_iff]
  cases w.faults <;> simp

end Written

end Template

/-- **The registry of a document holds the first sound template of every id.** What is registered
for a kind and an id is what the first template of that kind and id defines that has no faulty
entry, and nothing is registered iff all of them have one. A template either has a first faulty
entry or defines something. The ids are those for which something is registered, each once, in order
of kinds and then ascending. The log has an error for every template with a faulty entry, which is
about the template and tells what is wrong with the first of them; they are in the order in which
the templates are written, with repetitions left out. -/
theorem registry_holds_first (scl : Scl) :
    let d := Document.ofScl scl
    (∀ kind id definition, d.registry.find? id kind = some definition ↔
      ∃ front w back, written scl = front ++ w :: back ∧ (w.kind = kind ∧ w.id = id) ∧
        w.Defines definition ∧
        ∀ w' ∈ front, w'.kind = kind ∧ w'.id = id → ∃ message, w'.FirstFault message) ∧
    (∀ kind id, d.registry.find? id kind = none ↔
      ∀ w ∈ written scl, w.kind = kind ∧ w.id = id → ∃ message, w.FirstFault message) ∧
    (∀ w : Written, (∃ message, w.FirstFault message) ↔ ∀ definition, ¬ w.Defines definition) ∧
    (∀ kind id, (kind, id) ∈ d.registry.ids ↔ d.registry.find? id kind ≠ none) ∧
    (d.registry.ids.Pairwise fun a b => a.1.place < b.1.place ∨ a.1 = b.1 ∧ a.2 < b.2) ∧
    d.issues.issues = ((written scl).filterMap Written.issue?).eraseDups ∧
    ∀ (w : Written) (issue : Issue), w.issue? = some issue ↔ ∃ message, w.FirstFault message ∧
      issue = { severity := .error, message, object := w.id } := by
  intro d
  have hfind (kind : Kind) (id : String) : d.registry.find? id kind = (written scl).findSome?
      fun w => if w.kind = kind ∧ w.id = id then w.definition? else none := by
    rw [find?_ofScl, findSome?_filter]
    simp only [decide_eq_true_eq]
  refine ⟨fun kind id definition => ?_, fun kind id => ?_, fun w => ?_, fun kind id => ?_,
    (ascending_ofScl scl).pairwise_ids, ?_, fun w issue => Written.issue?_eq_some_iff⟩
  · rw [hfind, List.findSome?_eq_some_iff]
    simp only [Option.ite_none_right_eq_some, ite_eq_right_iff, Written.definition?_eq_some_iff,
      Written.definition?_eq_none_iff_firstFault, and_assoc]
  · rw [hfind, List.findSome?_eq_none_iff]
    simp only [ite_eq_right_iff, Written.definition?_eq_none_iff_firstFault]
  · rw [← Written.definition?_eq_none_iff_firstFault, Option.eq_none_iff_forall_ne_some]
    simp only [Ne, Written.definition?_eq_some_iff]
  · rw [Registry.mem_ids, Registry.contains, Option.isSome_iff_ne_none]
  · show (issueLog d.journal).issues = _
    rw [issueLog, IssueLog.issues_ofList, issuesOf_ofScl]

/-- A data object type with a nested data object that has no type and an attribute that has none,
then twice one that is sound, and twice an enumeration with a symbol that has no number. -/
def malformedTypes : TypeSection where
  nodeTypes := []
  objectTypes := [
    ⟨"T", "SPS", [⟨some "sub", none, none, none⟩],
      [⟨some "stVal", none, none, none, none, none, none, none, none, none, none, []⟩]⟩,
    ⟨"T", "INS", [],
      [⟨some "stVal", some "INT32", none, some "ST", some " 4 ", none, some "true", none, none,
        none, some "false", [⟨none, "7"⟩]⟩]⟩,
    ⟨"T", "DPC", [], []⟩]
  attributeTypes := []
  enumTypes := [⟨"B", [⟨some "1", " on "⟩, ⟨some "x", "off"⟩]⟩, ⟨"B", [⟨none, "off"⟩]⟩]

/-- A configuration with these templates. -/
def malformedScl : Scl := ⟨none, none, none, none, none, [], some malformedTypes⟩

/-- The first data object type that is sound is registered, and no enumeration. Of the two errors
about enumerations, which say the same, one is left. -/
theorem registry_holds_first_malformed :
    let d := Document.ofScl malformedScl
    d.registry.find? "T" .objectType = some (.objectType ⟨"T", "INS", [],
      [⟨"stVal", .st, .int32, none, 4, ⟨true, false, false, false, false⟩, none, ["7"]⟩]⟩) ∧
    d.registry.find? "B" .enumType = none ∧
    d.registry.ids = [(.objectType, "T")] ∧
    d.issues.issues = [
      { severity := .error, message := "SDO is missing type attribute", object := "T" },
      { severity := .error, message := "EnumVal \"off\" has no valid ord attribute",
        object := "B" }] := by
  obtain ⟨hfind, hnone, -, -, -, hissues, -⟩ := registry_holds_first malformedScl
  have hfaulty : ∃ message, ((written malformedScl).get ⟨0, by decide⟩).FirstFault message :=
    Written.definition?_eq_none_iff_firstFault.mp rfl
  have hsound : ((written malformedScl).get ⟨1, by decide⟩).Defines _ :=
    Written.convert_eq_ok_iff.mp rfl
  have hsymbols : ∀ w ∈ written malformedScl, w.kind = .enumType ∧ w.id = "B" →
      w.definition? = none := by decide
  refine ⟨?_, ?_, rfl, hissues.trans rfl⟩
  · refine (hfind .objectType "T" _).mpr ⟨(written malformedScl).take 1, _,
      (written malformedScl).drop 2, rfl, ⟨rfl, rfl⟩, hsound, fun w hw _ => ?_⟩
    cases List.mem_singleton.mp hw
    exact hfaulty
  · exact (hnone .enumType "B").mpr fun w hw hkey =>
      Written.definition?_eq_none_iff_firstFault.mp (hsymbols w hw hkey)

end Substation
