import Mathlib.Tactic.Common
import Substation.Proofs.FirstDefinitions
import Substation.Proofs.IntegerLiterals

/-!
# Sound entries of templates

When an entry of a template is faulty, and what is said about it (`Faulty`), is stated here in terms
of the attributes as they are written, and so is what a sound entry defines (`Defines`). Numbers are
integers in decimal digits, flags are words, and functional constraints and basic types stand in
lists with their codes and words.

Results, one pair for each sort of entry:
* `ObjectEntry.faulty_iff`, `ObjectEntry.defines_iff` (`convert_do_def`);
* `AttributeEntry.faulty_iff`, `AttributeEntry.defines_iff` (`convert_da_def`);
* `SymbolEntry.faulty_iff`, `SymbolEntry.defines_iff` (`convert_enum_type`).
-/

namespace Substation.Config

open Substation.Template
open Substation.Text

/-! ## Numbers and flags -/

/-- An integer in decimal digits is given, with white space around it or without. -/
def IntegerGiven (value : Option String) (n : Int) : Prop :=
  ∃ v s, value = some v ∧ Strips v.toList s ∧ IsInteger true s n

theorem integer?_eq_some_iff {value : Option String} {n : Int} :
    integer? value = some n ↔ IntegerGiven value n ∧ -2 ^ 63 ≤ n ∧ n < 2 ^ 63 := by
  cases value with
  | none => simp [integer?, IntegerGiven]
  | some v =>
    have hgiven : IntegerGiven (some v) n ↔ IsInteger true (trimChars v.toList) n := by
      simp [IntegerGiven, strips_iff]
    have hneg : decide ((IntRange.signed 64).least < 0) = true := by decide
    have hholds : (IntRange.signed 64).holds n = true ↔ -2 ^ 63 ≤ n ∧ n < 2 ^ 63 := by
      rw [IntRange.holds, BasicType.least_signed, BasicType.greatest_signed, Bool.and_eq_true,
        decide_eq_true_eq, decide_eq_true_eq, Int.le_sub_one_iff]
    rw [hgiven, integer?, Option.bind_some, IntRange.parse?, trim, String.toList_ofList,
      Option.filter_eq_some_iff, value?_eq_some_iff, hneg, hholds]

/-- The number of repetitions is the natural number of 32 bits that is given, and 0 if none is. -/
def CountGiven (value : Option String) (n : Nat) : Prop :=
  (n < 2 ^ 32 ∧ IntegerGiven value n) ∨ (n = 0 ∧ ∀ k : Nat, k < 2 ^ 32 → ¬ IntegerGiven value k)

theorem countGiven_iff {value : Option String} {n : Nat} :
    CountGiven value n ↔ n = count value := by
  have hread {k : Nat} (hk : k < 2 ^ 32) : IntegerGiven value k ↔ integer? value = some ↑k := by
    rw [integer?_eq_some_iff]
    exact (and_iff_left (by omega)).symm
  have hholds {m : Int} : (IntRange.unsigned 32).holds m = true ↔ 0 ≤ m ∧ m < 2 ^ 32 := by
    rw [IntRange.holds, BasicType.greatest_unsigned, Bool.and_eq_true, decide_eq_true_eq,
      decide_eq_true_eq, Int.le_sub_one_iff]
    rfl
  rw [count]
  cases h : (integer? value).filter (IntRange.unsigned 32).holds with
  | some m =>
    obtain ⟨hm, hrange⟩ := Option.filter_eq_some_iff.mp h
    obtain ⟨hlow, hhigh⟩ := hholds.mp hrange
    obtain ⟨k, rfl⟩ := Int.eq_ofNat_of_zero_le hlow
    have hk : k < 2 ^ 32 := by omega
    constructor
    · rintro (⟨hn, hgiven⟩ | ⟨-, hnone⟩)
      · have hsame := hm.symm.trans ((hread hn).mp hgiven)
        simpa using hsame.symm
      · exact absurd ((hread hk).mpr hm) (hnone k hk)
    · rintro rfl
      exact .inl ⟨hk, (hread hk).mpr hm⟩
  | none =>
    have hnone (k : Nat) (hk : k < 2 ^ 32) : ¬ IntegerGiven value k := by
      intro hgiven
      have hfilter : (integer? value).filter (IntRange.unsigned 32).holds = some (k : Int) :=
        Option.filter_eq_some_iff.mpr ⟨(hread hk).mp hgiven, hholds.mpr (by omega)⟩
      exact Option.some_ne_none _ (hfilter.symm.trans h)
    constructor
    · rintro (⟨hk, hgiven⟩ | ⟨hn, -⟩)
      · exact absurd hgiven (hnone n hk)
      · exact hn
    · exact fun hn => .inr ⟨hn, hnone⟩

/-- One of the words is given, with white space around it or without. -/
def WordGiven (value : Option String) (words : List String) : Prop :=
  ∃ v, value = some v ∧ trim v ∈ words

/-- The words that set a flag. -/
def setWords : List String := ["true", "1"]

/-- The words that do not set a flag. -/
def unsetWords : List String := ["false", "0"]

theorem flag_false_eq_true_iff {value : Option String} :
    flag value false = true ↔ WordGiven value setWords := by
  cases value with
  | none => simp [flag, WordGiven]
  | some v =>
    simp only [flag, Option.map_some, WordGiven, setWords, Option.some.injEq, exists_eq_left']
    split <;> simp_all

theorem flag_true_eq_false_iff {value : Option String} :
    flag value true = false ↔ WordGiven value unsetWords := by
  cases value with
  | none => simp [flag, WordGiven]
  | some v =>
    simp only [flag, Option.map_some, WordGiven, unsetWords, Option.some.injEq, exists_eq_left']
    split <;> simp_all

end Substation.Config

namespace Substation.Template

/-- The codes of the functional constraints. -/
def Constraint.codes : List (String × Constraint) :=
  [("ST", st), ("MX", mx), ("SP", sp), ("SV", sv), ("CF", cf), ("DC", dc), ("SG", sg), ("SE", se),
    ("SR", sr), ("OR", or), ("BL", bl), ("EX", ex), ("CO", co), ("US", us), ("MS", ms), ("RP", rp),
    ("BR", br), ("LG", lg), ("ALL", all), ("NONE", none)]

theorem Constraint.parse?_eq_some_iff {code : String} {c : Constraint} :
    parse? code = some c ↔ (code, c) ∈ codes := by
  constructor
  · intro h
    unfold parse? at h
    split at h <;> cases h <;> decide
  · intro h
    have hall : codes.all fun (code, c) => parse? code = some c := by decide +kernel
    exact of_decide_eq_true (List.all_eq_true.mp hall _ h)

theorem Constraint.parse?_eq_none_iff {code : String} :
    parse? code = .none ↔ code ∉ codes.map Prod.fst := by
  rw [List.mem_map, Option.eq_none_iff_forall_ne_some]
  constructor
  · rintro h ⟨⟨_, c⟩, hc, rfl⟩
    exact h c (parse?_eq_some_iff.mpr hc)
  · exact fun h c hc => h ⟨_, parse?_eq_some_iff.mp hc, rfl⟩

/-- The words of the basic types. -/
def BasicType.words : List (String × BasicType) :=
  [("BOOLEAN", boolean), ("INT8", int8), ("INT16", int16), ("INT32", int32), ("INT64", int64),
    ("INT128", int128), ("INT8U", int8u), ("INT16U", int16u), ("INT24U", int24u),
    ("INT32U", int32u), ("FLOAT32", float32), ("FLOAT64", float64), ("Enum", enumerated),
    ("Dbpos", codedEnum), ("Tcmd", codedEnum), ("Check", check), ("Octet64", octetString64),
    ("Quality", quality), ("Timestamp", timestamp), ("VisString32", visibleString32),
    ("VisString64", visibleString64), ("VisString65", visibleString65),
    ("VisString129", visibleString129), ("VisString255", visibleString255),
    ("ObjRef", objectReference), ("Unicode255", unicodeString255),
    ("OptFlds", genericBitstring), ("TrgOps", genericBitstring), ("EntryID", octetString8),
    ("EntryTime", entryTime), ("PhyComAddr", phyComAddr), ("Currency", currency),
    ("Struct", constructed)]

theorem BasicType.ofWord_of_not_mem {word : String} (h : word ∉ words.map Prod.fst) :
    ofWord word = other := by
  unfold ofWord
  split
  case h_34 => rfl
  all_goals exact absurd (by decide) h

/-- A word that is none of these stands for `other`. -/
theorem BasicType.ofWord_eq_iff {word : String} {t : BasicType} :
    ofWord word = t ↔ (word, t) ∈ words ∨ word ∉ words.map Prod.fst ∧ t = other := by
  have hall : words.all fun (word, t) => ofWord word = t := by decide +kernel
  have hknown {t : BasicType} (h : (word, t) ∈ words) : ofWord word = t :=
    of_decide_eq_true (List.all_eq_true.mp hall _ h)
  by_cases hword : word ∈ words.map Prod.fst
  · obtain ⟨⟨_, t'⟩, ht', rfl⟩ := List.mem_map.mp hword
    simp only [hword, not_true_eq_false, false_and, or_false]
    exact ⟨fun h => h ▸ hknown ht' ▸ ht', hknown⟩
  · have hnone (h : (word, t) ∈ words) : False := hword (List.mem_map_of_mem h)
    rw [ofWord_of_not_mem hword]
    exact ⟨fun h => .inr ⟨hword, h.symm⟩, fun h => h.elim (fun h => (hnone h).elim) (·.2.symm)⟩

end Substation.Template

namespace Substation.Config

open Substation.Template
open Substation.Text

/-- What is said about an entry without a part that is required. -/
theorem message_of_missing {β : Type} {x : Except EntryFault β} {element part : String}
    (h : x = .error (.missing element part)) : (fault? x).map EntryFault.message =
      some (element ++ (" is missing " ++ part ++ " attribute")) := by
  rw [h, fault?, Option.map_some, EntryFault.message, String.append_assoc, String.append_assoc,
    String.append_assoc]

/-- An entry that is sound or faulty is faulty exactly as reading it fails. -/
theorem faulty_iff_of_sound_or {β : Type} {x : Except EntryFault β} {Faulty : String → Prop}
    (hmessage : ∀ message, Faulty message →
      (fault? x).map EntryFault.message = some message)
    (hor : (∃ b, x = .ok b) ∨ ∃ message, Faulty message) {message : String} :
    Faulty message ↔ (fault? x).map EntryFault.message = some message := by
  refine ⟨hmessage message, fun h => ?_⟩
  rcases hor with ⟨b, rfl⟩ | ⟨message', hfaulty⟩
  · exact nomatch h
  · cases (hmessage message' hfaulty).symm.trans h
    exact hfaulty

/-! ## Data objects -/

/-- What is said about a faulty data object that is written as `element`. -/
inductive ObjectEntry.Faulty (element : String) (e : ObjectEntry) : String → Prop
  | name (h : e.name = none) : Faulty element e (element ++ " is missing name attribute")
  | type (hname : e.name ≠ none) (h : e.typeId = none) :
    Faulty element e (element ++ " is missing type attribute")

/-- What a data object defines. -/
structure ObjectEntry.Defines (e : ObjectEntry) (o : ObjectDef) : Prop where
  name : e.name = some o.name
  typeId : e.typeId = some o.typeId
  count : CountGiven e.count o.count
  transient : o.transient = true ↔ WordGiven e.transient setWords

namespace ObjectEntry

variable {element : String} {e : ObjectEntry}

theorem ofEntry_of_noName (h : e.name = none) :
    ObjectDef.ofEntry element e = .error (.missing element "name") := by
  rw [ObjectDef.ofEntry, h]
  rfl

theorem ofEntry_of_noType {name : String} (hname : e.name = some name) (h : e.typeId = none) :
    ObjectDef.ofEntry element e = .error (.missing element "type") := by
  rw [ObjectDef.ofEntry, hname, h]
  rfl

theorem ofEntry_of_sound {name typeId : String} (hname : e.name = some name)
    (htype : e.typeId = some typeId) : ObjectDef.ofEntry element e =
      .ok ⟨name, typeId, Config.count e.count, flag e.transient false⟩ := by
  rw [ObjectDef.ofEntry, hname, htype]
  rfl

theorem sound_or_faulty (element : String) (e : ObjectEntry) :
    (∃ name typeId, e.name = some name ∧ e.typeId = some typeId) ∨
      ∃ message, e.Faulty element message := by
  cases hname : e.name with
  | none => exact .inr ⟨_, .name hname⟩
  | some name =>
    cases htype : e.typeId with
    | none => exact .inr ⟨_, .type (by simp [hname]) htype⟩
    | some typeId => exact .inl ⟨name, typeId, rfl, rfl⟩

theorem message_of_faulty {message : String} (h : e.Faulty element message) :
    (fault? (ObjectDef.ofEntry element e)).map EntryFault.message = some message := by
  cases h with
  | name h => exact message_of_missing (ofEntry_of_noName h)
  | type hname h =>
    obtain ⟨name, hname⟩ := Option.ne_none_iff_exists'.mp hname
    exact message_of_missing (ofEntry_of_noType hname h)

theorem faulty_iff {message : String} : e.Faulty element message ↔
    (fault? (ObjectDef.ofEntry element e)).map EntryFault.message = some message := by
  refine faulty_iff_of_sound_or (fun _ => message_of_faulty) ?_
  exact (sound_or_faulty element e).imp_left fun ⟨_, _, hname, htype⟩ =>
    ⟨_, ofEntry_of_sound hname htype⟩

theorem defines_iff {o : ObjectDef} : e.Defines o ↔ ObjectDef.ofEntry element e = .ok o := by
  constructor
  · rintro ⟨hname, htype, hcount, htransient⟩
    rw [ofEntry_of_sound hname htype, ← countGiven_iff.mp hcount,
      Bool.eq_iff_iff.mpr (flag_false_eq_true_iff.trans htransient.symm)]
  · intro h
    rcases sound_or_faulty element e with ⟨name, typeId, hname, htype⟩ | ⟨message, hfaulty⟩
    · cases (ofEntry_of_sound hname htype).symm.trans h
      exact ⟨hname, htype, countGiven_iff.mpr rfl, flag_false_eq_true_iff⟩
    · rw [faulty_iff, h] at hfaulty
      exact nomatch hfaulty

end ObjectEntry

/-! ## Data attributes -/

/-- What is said about a faulty data attribute that is written as `element`. -/
inductive AttributeEntry.Faulty (element : String) (e : AttributeEntry) : String → Prop
  | name (h : e.name = none) : Faulty element e (element ++ " is missing name attribute")
  | type (hname : e.name ≠ none) (h : e.bType = none) :
    Faulty element e (element ++ " is missing bType attribute")
  | constraint {name fc : String} (hname : e.name = some name) (htype : e.bType ≠ none)
    (hfc : e.fc = some fc) (h : fc ∉ Constraint.codes.map Prod.fst) :
    Faulty element e
      (element ++ " \"" ++ name ++ "\" has unknown functional constraint \"" ++ fc ++ "\"")

/-- The functional constraint of an entry: none, or that of its code. -/
def AttributeEntry.HasConstraint (e : AttributeEntry) (c : Constraint) : Prop :=
  (e.fc = none ∧ c = .none) ∨ ∃ code, e.fc = some code ∧ (code, c) ∈ Constraint.codes

/-- The basic type of an entry: that of its word, or `other` if the word is not known. -/
def AttributeEntry.HasType (e : AttributeEntry) (t : BasicType) : Prop :=
  ∃ word, e.bType = some word ∧
    ((word, t) ∈ BasicType.words ∨ word ∉ BasicType.words.map Prod.fst ∧ t = .other)

/-- What a data attribute defines. -/
structure AttributeEntry.Defines (e : AttributeEntry) (a : AttributeDef) : Prop where
  name : e.name = some a.name
  type : e.HasType a.type
  fc : e.HasConstraint a.fc
  typeId : a.typeId = e.typeId
  count : CountGiven e.count a.count
  dchg : a.triggers.dchg = true ↔ WordGiven e.dchg setWords
  qchg : a.triggers.qchg = true ↔ WordGiven e.qchg setWords
  dupd : a.triggers.dupd = true ↔ WordGiven e.dupd setWords
  period : a.triggers.period = true ↔ WordGiven e.period setWords
  gi : a.triggers.gi = false ↔ WordGiven e.gi unsetWords
  sAddr : a.sAddr = e.sAddr
  values : a.values = e.values.map (·.text)

namespace AttributeEntry

variable {element : String} {e : AttributeEntry}

theorem hasType_iff {t : BasicType} :
    e.HasType t ↔ ∃ word, e.bType = some word ∧ BasicType.ofWord word = t :=
  exists_congr fun _ => and_congr_right fun _ => BasicType.ofWord_eq_iff.symm

theorem ofEntry_of_noName (h : e.name = none) :
    AttributeDef.ofEntry element e = .error (.missing element "name") := by
  rw [AttributeDef.ofEntry, h]
  rfl

theorem ofEntry_of_noType {name : String} (hname : e.name = some name) (h : e.bType = none) :
    AttributeDef.ofEntry element e = .error (.missing element "bType") := by
  rw [AttributeDef.ofEntry, hname, h]
  rfl

theorem ofEntry_of_badConstraint {name word fc : String} (hname : e.name = some name)
    (htype : e.bType = some word) (hfc : e.fc = some fc)
    (h : fc ∉ Constraint.codes.map Prod.fst) :
    AttributeDef.ofEntry element e = .error (.unknownConstraint element name fc) := by
  have hread : Constraint.ofEntry element name (some fc) =
      .error (.unknownConstraint element name fc) := by
    rw [Constraint.ofEntry, Constraint.parse?_eq_none_iff.mpr h]
  rw [AttributeDef.ofEntry, hname, htype, hfc]
  show (Constraint.ofEntry element name (some fc)).bind _ = _
  rw [hread]
  rfl

theorem ofEntry_of_sound {name word : String} {c : Constraint} (hname : e.name = some name)
    (htype : e.bType = some word) (hfc : e.HasConstraint c) : AttributeDef.ofEntry element e =
      .ok ⟨name, c, .ofWord word, e.typeId, Config.count e.count, .ofEntry e, e.sAddr,
        e.values.map Val.text⟩ := by
  have hread : Constraint.ofEntry element name e.fc = .ok c := by
    rcases hfc with ⟨hnone, rfl⟩ | ⟨code, hcode, hc⟩
    · rw [hnone]
      rfl
    · rw [hcode, Constraint.ofEntry, Constraint.parse?_eq_some_iff.mpr hc]
  rw [AttributeDef.ofEntry, hname, htype]
  show (Constraint.ofEntry element name e.fc).bind _ = _
  rw [hread]
  rfl

theorem sound_or_faulty (element : String) (e : AttributeEntry) :
    (∃ name word c, e.name = some name ∧ e.bType = some word ∧ e.HasConstraint c) ∨
      ∃ message, e.Faulty element message := by
  cases hname : e.name with
  | none => exact .inr ⟨_, .name hname⟩
  | some name =>
    cases htype : e.bType with
    | none => exact .inr ⟨_, .type (by simp [hname]) htype⟩
    | some word =>
      cases hfc : e.fc with
      | none => exact .inl ⟨name, word, .none, rfl, rfl, .inl ⟨hfc, rfl⟩⟩
      | some fc =>
        cases hread : Constraint.parse? fc with
        | none =>
          exact .inr ⟨_, .constraint hname (by simp [htype]) hfc
            (Constraint.parse?_eq_none_iff.mp hread)⟩
        | some c =>
          exact .inl ⟨name, word, c, rfl, rfl,
            .inr ⟨fc, hfc, Constraint.parse?_eq_some_iff.mp hread⟩⟩

theorem message_of_faulty {message : String} (h : e.Faulty element message) :
    (fault? (AttributeDef.ofEntry element e)).map EntryFault.message = some message := by
  cases h with
  | name h => exact message_of_missing (ofEntry_of_noName h)
  | type hname h =>
    obtain ⟨name, hname⟩ := Option.ne_none_iff_exists'.mp hname
    exact message_of_missing (ofEntry_of_noType hname h)
  | constraint hname htype hfc h =>
    obtain ⟨word, htype⟩ := Option.ne_none_iff_exists'.mp htype
    rw [ofEntry_of_badConstraint hname htype hfc h]
    rfl

theorem faulty_iff {message : String} : e.Faulty element message ↔
    (fault? (AttributeDef.ofEntry element e)).map EntryFault.message = some message := by
  refine faulty_iff_of_sound_or (fun _ => message_of_faulty) ?_
  exact (sound_or_faulty element e).imp_left fun ⟨_, _, _, hname, htype, hfc⟩ =>
    ⟨_, ofEntry_of_sound hname htype hfc⟩

theorem triggers_eq_iff {e : AttributeEntry} {t : Triggers} : t = .ofEntry e ↔
    (t.dchg = true ↔ WordGiven e.dchg setWords) ∧ (t.qchg = true ↔ WordGiven e.qchg setWords) ∧
    (t.dupd = true ↔ WordGiven e.dupd setWords) ∧
    (t.period = true ↔ WordGiven e.period setWords) ∧
    (t.gi = false ↔ WordGiven e.gi unsetWords) := by
  rw [← flag_false_eq_true_iff, ← flag_false_eq_true_iff, ← flag_false_eq_true_iff,
    ← flag_false_eq_true_iff, ← flag_true_eq_false_iff, ← Bool.eq_iff_iff, ← Bool.eq_iff_iff,
    ← Bool.eq_iff_iff, ← Bool.eq_iff_iff]
  obtain ⟨dchg, qchg, dupd, period, gi⟩ := t
  have hgi : (gi = false ↔ flag e.gi true = false) ↔ gi = flag e.gi true := by
    cases gi <;> cases flag e.gi true <;> decide
  rw [hgi, Triggers.ofEntry, Triggers.mk.injEq]

theorem defines_iff {a : AttributeDef} : e.Defines a ↔ AttributeDef.ofEntry element e = .ok a := by
  constructor
  · rintro ⟨hname, htype, hfc, htypeId, hcount, hdchg, hqchg, hdupd, hperiod, hgi, haddr, hvalues⟩
    obtain ⟨word, htype, hword⟩ := hasType_iff.mp htype
    have htriggers := triggers_eq_iff.mpr ⟨hdchg, hqchg, hdupd, hperiod, hgi⟩
    rw [ofEntry_of_sound hname htype hfc, hword, ← htypeId, ← countGiven_iff.mp hcount,
      ← htriggers, ← haddr, ← hvalues]
  · intro h
    rcases sound_or_faulty element e with ⟨name, word, c, hname, htype, hfc⟩ | ⟨message, hfaulty⟩
    · cases (ofEntry_of_sound hname htype hfc).symm.trans h
      obtain ⟨hdchg, hqchg, hdupd, hperiod, hgi⟩ := triggers_eq_iff (e := e).mp rfl
      exact ⟨hname, hasType_iff.mpr ⟨word, htype, rfl⟩, hfc, rfl, countGiven_iff.mpr rfl, hdchg,
        hqchg, hdupd, hperiod, hgi, rfl, rfl⟩
    · rw [faulty_iff, h] at hfaulty
      exact nomatch hfaulty

end AttributeEntry

/-! ## Symbols of enumerations -/

/-- The number of a symbol: an integer of 32 bits. -/
def SymbolEntry.HasOrd (e : SymbolEntry) (n : Int) : Prop :=
  IntegerGiven e.ord n ∧ -2 ^ 31 ≤ n ∧ n < 2 ^ 31

/-- What is said about a faulty symbol. -/
inductive SymbolEntry.Faulty (e : SymbolEntry) : String → Prop
  | ord (h : ∀ n, ¬ e.HasOrd n) :
    Faulty e ("EnumVal \"" ++ e.text ++ "\" has no valid ord attribute")

/-- What a symbol defines. -/
structure SymbolEntry.Defines (e : SymbolEntry) (s : EnumSymbol) : Prop where
  ord : e.HasOrd s.ord
  text : s.text = trim e.text

namespace SymbolEntry

variable {e : SymbolEntry}

theorem hasOrd_iff {n : Int} :
    e.HasOrd n ↔ (integer? e.ord).filter (IntRange.signed 32).holds = some n := by
  rw [Option.filter_eq_some_iff, integer?_eq_some_iff, IntRange.holds, BasicType.least_signed,
    BasicType.greatest_signed, Bool.and_eq_true, decide_eq_true_eq, decide_eq_true_eq,
    Int.le_sub_one_iff, HasOrd, and_assoc]
  refine and_congr_right fun _ => ?_
  omega

theorem ofEntry_of_hasOrd {n : Int} (h : e.HasOrd n) :
    EnumSymbol.ofEntry e = .ok ⟨n, trim e.text⟩ := by
  rw [EnumSymbol.ofEntry, hasOrd_iff.mp h]

theorem ofEntry_of_forall_not (h : ∀ n, ¬ e.HasOrd n) :
    EnumSymbol.ofEntry e = .error (.noOrd e.text) := by
  have hnone : (integer? e.ord).filter (IntRange.signed 32).holds = none :=
    Option.eq_none_iff_forall_ne_some.mpr fun n hn => h n (hasOrd_iff.mpr hn)
  rw [EnumSymbol.ofEntry, hnone]

theorem faulty_iff {message : String} : e.Faulty message ↔
    (fault? (EnumSymbol.ofEntry e)).map EntryFault.message = some message := by
  by_cases hord : ∃ n, e.HasOrd n
  · obtain ⟨n, hn⟩ := hord
    rw [ofEntry_of_hasOrd hn]
    exact iff_of_false (fun ⟨h⟩ => h n hn) nofun
  · rw [not_exists] at hord
    rw [ofEntry_of_forall_not hord]
    exact ⟨fun ⟨_⟩ => rfl, fun h => Option.some.inj h ▸ .ord hord⟩

theorem defines_iff {s : EnumSymbol} : e.Defines s ↔ EnumSymbol.ofEntry e = .ok s := by
  constructor
  · rintro ⟨hord, htext⟩
    rw [ofEntry_of_hasOrd hord, ← htext]
  · intro h
    by_cases hord : ∃ n, e.HasOrd n
    · obtain ⟨n, hn⟩ := hord
      cases (ofEntry_of_hasOrd hn).symm.trans h
      exact ⟨hn, rfl⟩
    · rw [not_exists] at hord
      exact nomatch (ofEntry_of_forall_not hord).symm.trans h

end SymbolEntry

end Substation.Config
