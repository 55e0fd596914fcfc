import Mathlib.Algebra.Group.Nat.Defs
import Mathlib.Data.List.TakeWhile
import Mathlib.Tactic.Common
import Substation.Proofs.InstanceIssues
import Substation.Proofs.LimitedSinks
import Substation.Proofs.WrittenMembers

/-!
# Members that point into arrays

The name of a member may hold an index in parentheses. It is taken apart at the first opening
parenthesis: what stands before it is the variable, what stands up to the next closing parenthesis
is read as an index, and what follows is the component (`ofPath_closed`). An index that cannot be
read is kept as a text, and so is everything behind a parenthesis that is not closed
(`ofPath_unclosed`); a data set is written with a line for each member all the same, and the
members with such a text are reported (`members_taken_apart`).

Results:
* `ofPath_closed`, `ofPath_unclosed` (`from_fcda`): a name with parentheses is taken apart;
* `members_taken_apart` (`write_data_set`): the lines of a data set, and the members that are
  reported;
* `name_not_kept`: the variable is not always the name.
-/

namespace Substation

open Substation.Config
open Substation.Emission
open Substation.Journal
open Substation.Model
open Substation.Text

namespace Text

/-! ## Natural numbers as literals -/

/-- A literal of a natural number has no minus sign in front. -/
theorem value?_unsigned_iff {w : Nat} {s : List Char} {m : Int} :
    (IntRange.unsigned w).value? s = some m ↔
      ∃ ds, (s = ds ∨ s = '+' :: ds) ∧ isDigits ds = true ∧ (digitsValue ds : Int) = m := by
  have hsign : ∀ c ds, c.isDigit = false → isDigits (c :: ds) = false := by
    intro c ds hc
    simp [isDigits, hc]
  unfold IntRange.value?
  split
  · next ds =>
    rw [Option.ite_none_right_eq_some, Option.some.injEq]
    constructor
    · exact fun h => ⟨ds, Or.inr rfl, h⟩
    · rintro ⟨ds', rfl | heq, hdigits, hm⟩
      · rw [hsign _ _ (by decide)] at hdigits
        exact absurd hdigits Bool.false_ne_true
      · obtain ⟨-, rfl⟩ := List.cons.inj heq
        exact ⟨hdigits, hm⟩
  · next ds =>
    refine iff_of_false (by simp [IntRange.unsigned]) ?_
    rintro ⟨ds', rfl | heq, hdigits, -⟩
    · rw [hsign _ _ (by decide)] at hdigits
      exact absurd hdigits Bool.false_ne_true
    · exact absurd (List.cons.inj heq).1 (by decide)
  · next hplus _ =>
    rw [Option.ite_none_right_eq_some, Option.some.injEq]
    constructor
    · exact fun h => ⟨s, Or.inl rfl, h⟩
    · rintro ⟨ds', rfl | heq, h⟩
      · exact h
      · exact absurd heq (hplus ds')

theorem holds_unsigned_iff {w n : Nat} : (IntRange.unsigned w).holds n = true ↔ n < 2 ^ w := by
  have hgreatest : (IntRange.unsigned w).greatest = ((2 ^ w : Nat) : Int) - 1 := rfl
  have hleast : (IntRange.unsigned w).least = 0 := rfl
  rw [IntRange.holds, hgreatest, hleast, Bool.and_eq_true, decide_eq_true_eq, decide_eq_true_eq]
  omega

/-- A text falls apart at its first separator. -/
theorem splitFirst?_eq_some {sep : Char} {a b : String} (ha : sep ∉ a.toList) :
    splitFirst? sep (a ++ String.singleton sep ++ b) = some (a, b) := by
  rw [splitFirst?_append ha (b := b.toList) (by simp), String.ofList_toList, String.ofList_toList]

end Text

namespace Emission

/-! ## The parts of a name -/

/-- A number below 2 ^ 32 in decimal digits, possibly behind a plus sign. -/
def IsIndex (s : List Char) (n : Nat) : Prop :=
  ∃ ds, (s = ds ∨ s = '+' :: ds) ∧ isDigits ds = true ∧ digitsValue ds = n ∧ n < 2 ^ 32

/-- What is meant within an element, by the text behind the index. A dollar sign in front of it does
not count, and there may be nothing. -/
def IsComponent (rest : String) (component : Option String) : Prop :=
  ∃ more, (rest = "$" ++ more ∨ rest = more ∧ rest.toList.head? ≠ some '$') ∧
    component = if more = "" then none else some more

theorem index?_eq_some_iff {t : String} {n : Nat} :
    index? t = some n ↔ IsIndex (trimChars t.toList) n := by
  rw [index?, Option.map_eq_some_iff]
  simp only [IntRange.parse?, Option.filter_eq_some_iff, value?_unsigned_iff, trim,
    String.toList_ofList]
  constructor
  · rintro ⟨m, ⟨⟨ds, hs, hdigits, rfl⟩, hholds⟩, hn⟩
    rw [Int.toNat_natCast] at hn
    exact ⟨ds, hs, hdigits, hn, hn ▸ holds_unsigned_iff.mp hholds⟩
  · rintro ⟨ds, hs, hdigits, rfl, hn⟩
    exact ⟨digitsValue ds, ⟨⟨ds, hs, hdigits, rfl⟩, holds_unsigned_iff.mpr hn⟩,
      Int.toNat_natCast _⟩

theorem isComponent_componentOf (rest : String) : IsComponent rest (componentOf rest.toList) := by
  have hempty (s : List Char) : (if s.isEmpty then none else some (String.ofList s)) =
      if String.ofList s = "" then none else some (String.ofList s) := by
    simp [String.ofList_eq_empty_iff]
  unfold componentOf
  simp only [hempty]
  cases hrest : rest.toList with
  | nil => exact ⟨"", Or.inr ⟨by rw [← String.toList_inj, hrest]; rfl, by simp [hrest]⟩, by simp⟩
  | cons c more =>
    by_cases hc : c = '$'
    · subst hc
      refine ⟨String.ofList more, Or.inl ?_, rfl⟩
      rw [← String.toList_inj, hrest]
      simp
    · refine ⟨rest, Or.inr ⟨rfl, by simp [hrest, hc]⟩, ?_⟩
      split
      · next heq => exact absurd (List.cons.inj heq).1 hc
      · rw [← hrest, String.ofList_toList]

namespace Member

theorem ofPath_plain {path : String} (h : '(' ∉ path.toList) :
    ofPath path = ⟨path, none, none, none⟩ := by
  rw [ofPath, splitFirst?_of_not_mem h]

/-- Without a closing parenthesis everything behind the opening one stands in place of an index. -/
theorem ofPath_unclosed {base t : String} (hbase : '(' ∉ base.toList) (ht : ')' ∉ t.toList) :
    ofPath (base ++ "(" ++ t) = ⟨base, none, none, some t⟩ := by
  rw [ofPath, show "(" = String.singleton '(' from rfl, splitFirst?_eq_some hbase]
  simp only [splitFirst?_of_not_mem ht]

/-- What stands between the parentheses is an index, or else it is kept as it is. -/
theorem ofPath_closed {base t : String} (hbase : '(' ∉ base.toList) (ht : ')' ∉ t.toList)
    (rest : String) : ofPath (base ++ "(" ++ t ++ ")" ++ rest) =
      match index? t with
      | none => ⟨base, none, none, some t⟩
      | some n => ⟨base, some n, componentOf rest.toList, none⟩ := by
  have hsuffix : base ++ "(" ++ t ++ ")" ++ rest =
      base ++ String.singleton '(' ++ (t ++ String.singleton ')' ++ rest) := by
    simp [String.append_assoc]
  rw [ofPath, hsuffix, splitFirst?_eq_some hbase]
  cases hindex : index? t with
  | none => simp only [splitFirst?_eq_some ht, hindex]
  | some n => simp only [splitFirst?_eq_some ht, hindex]

/-- The logical device is written in front of the variable if it is given and another one. -/
theorem devicePart_eq (owner : String) (device? : Option String) :
    devicePart owner device? =
      if device? = none ∨ device? = some owner then "" else device?.getD "" ++ "/" := by
  cases device? with
  | none => simp [devicePart]
  | some device => simp [devicePart]

end Member

/-! ## The entries of a data set -/

/-- The entries that are made along with a data set are those in front of its members. -/
theorem DataSetStatement.entries_script (s : DataSetStatement) :
    s.script.entries = s.members.flatMap Remarked.remarks := by
  have hmember (m : Remarked Member) :
      (m.script fun m => .line m.text).entries = m.remarks := by
    rw [Remarked.script, Script.entries_append, Script.entries_remarks]
    exact List.append_nil _
  rw [script, block, Script.entries_append, Script.entries_append, Script.entries_concat,
    List.flatMap_map, List.flatMap_congr fun m _ => hmember m]
  exact List.append_nil _

/-- The issue about a member whose index cannot be read. -/
def badIndexIssue? (set owner : String) (f : Fcda) : Option Issue :=
  (Member.ofFcda f owner).badIndex.map fun t => (Finding.badIndex set f.reference t).issue

theorem issuesOf_dataSetStatement (owner : String) (ln : Branch) (d : DataSet) :
    issuesOf (Setting.dataSetStatement owner ln d).script.entries =
      d.members.filterMap (badIndexIssue? (ln.ref ++ "." ++ d.name) owner) := by
  rw [DataSetStatement.entries_script, Setting.dataSetStatement, List.flatMap_map, issuesOf,
    List.filterMap_flatMap, List.filterMap_eq_flatMap_toList (badIndexIssue? _ _)]
  refine List.flatMap_congr fun f _ => ?_
  simp only [Setting.memberStatement, badIndexIssue?]
  cases (Member.ofFcda f owner).badIndex <;> rfl

/-- A data set is written into a sink without a limit with all its lines and all its entries. -/
theorem run_dataSetStatement (owner : String) (ln : Branch) (d : DataSet) :
    ∃ sink, (Setting.dataSetStatement owner ln d).script.run { limit := none } = .ok sink ∧
      sink.text = textOfLines (("DS(" ++ d.name ++ ")" ++ "\x7b") ::
        d.members.map (fun f => (Member.ofFcda f owner).text) ++ ["\x7d"]) ∧
      issuesOf sink.journal.toList =
        d.members.filterMap (badIndexIssue? (ln.ref ++ "." ++ d.name) owner) := by
  let s := Setting.dataSetStatement owner ln d
  have hsound : ({ limit := none } : Sink).Sound := ⟨rfl, fun _ _ => Nat.zero_le _⟩
  have htook := Script.took_run s.script _ hsound
  cases hrun : s.script.run { limit := none } with
  | error t =>
    cases hrun ▸ htook with
    | cut limited => exact nomatch (limited : none = some _)
  | ok t =>
    cases hrun ▸ htook with
    | all adds _ journal =>
      refine ⟨t, rfl, ?_, ?_⟩
      · rw [adds.2, Script.text, DataSetStatement.lines_script]
        simp only [s, Setting.dataSetStatement, List.map_map]
        exact String.empty_append
      · rw [journal, ← issuesOf_dataSetStatement]
        exact congrArg issuesOf (List.nil_append _)

end Emission

/-- **How members are taken apart.** The variable of a member is its name up to the first
parenthesis, with the logical device in front if it is given and another one. A name without a
parenthesis is the variable as it is. Between parentheses there is an index, which is written behind
the variable along with the component, or else a text that is kept and not written; so is everything
behind a parenthesis that is not closed. A data set is written with a line for each member, in
order, and exactly the members with such a text are reported, each issue once. -/
theorem members_taken_apart :
    (∀ (f : Fcda) (owner : String),
      let m := Member.ofFcda f owner
      let device := if f.ldInst = none ∨ f.ldInst = some owner then "" else f.ldInst.getD "" ++ "/"
      ('(' ∉ (memberPath f).toList → m = ⟨device ++ memberPath f, none, none, none⟩) ∧
      (∀ base t rest : String, memberPath f = base ++ "(" ++ t ++ ")" ++ rest →
        '(' ∉ base.toList → ')' ∉ t.toList → m.variableName = device ++ base ∧
          ((∃ n, IsIndex (trimChars t.toList) n ∧ m.index = some n ∧ IsComponent rest m.component ∧
              m.badIndex = none ∧ m.text = "DE(" ++ (device ++ base) ++ (" " ++ toString n ++
                (m.component.map (" " ++ ·)).getD "") ++ ");") ∨
            ((∀ n, ¬ IsIndex (trimChars t.toList) n) ∧ m.index = none ∧ m.component = none ∧
              m.badIndex = some t ∧ m.text = "DE(" ++ (device ++ base) ++ ");"))) ∧
      ∀ base t : String, memberPath f = base ++ "(" ++ t → '(' ∉ base.toList → ')' ∉ t.toList →
        m = ⟨device ++ base, none, none, some t⟩ ∧ m.text = "DE(" ++ (device ++ base) ++ ");") ∧
    ∀ (owner : String) (ln : Branch) (d : DataSet),
      let bad := d.members.filterMap fun f => (Member.ofFcda f owner).badIndex.map fun t =>
        (Finding.badIndex (ln.ref ++ "." ++ d.name) f.reference t).issue
      ∃ sink, (Setting.dataSetStatement owner ln d).script.run { limit := none } = .ok sink ∧
        sink.text = textOfLines (("DS(" ++ d.name ++ ")" ++ "\x7b") ::
          d.members.map (fun f => (Member.ofFcda f owner).text) ++ ["\x7d"]) ∧
        (∀ log : IssueLog, (log.pushAll (issuesOf sink.journal.toList)).issues =
          log.issues ++ (bad.removeAll log.issues).eraseDups) ∧
        ∀ i ∈ bad, i.severity = .error := by
  refine ⟨fun f owner => ?_, fun owner ln d => ?_⟩
  · intro m device
    have hm : m = { Member.ofPath (memberPath f) with
        variableName := device ++ (Member.ofPath (memberPath f)).variableName } := by
      unfold device
      rw [← Member.devicePart_eq]
      rfl
    refine ⟨fun hplain => ?_, fun base t rest hpath hbase ht => ?_, fun base t hpath hbase ht => ?_⟩
    · rw [hm, Member.ofPath_plain hplain]
    · rw [hpath, Member.ofPath_closed hbase ht] at hm
      cases hindex : index? t with
      | none =>
        rw [hindex] at hm
        refine ⟨by rw [hm], Or.inr ⟨fun n hn => ?_, ?_⟩⟩
        · rw [index?_eq_some_iff.mpr hn] at hindex
          exact nomatch hindex
        · rw [hm]
          simp [Member.text, Member.suffix]
      | some n =>
        rw [hindex] at hm
        refine ⟨by rw [hm], Or.inl ⟨n, index?_eq_some_iff.mp hindex, ?_⟩⟩
        rw [hm]
        refine ⟨rfl, isComponent_componentOf rest, rfl, ?_⟩
        cases hcomponent : componentOf rest.toList <;>
          simp [Member.text, Member.suffix, String.append_assoc]
    · rw [hm, hpath, Member.ofPath_unclosed hbase ht]
      simp [Member.text, Member.suffix]
  · intro bad
    obtain ⟨sink, hrun, htext, hissues⟩ := run_dataSetStatement owner ln d
    refine ⟨sink, hrun, htext, fun log => ?_, fun i hi => ?_⟩
    · rw [IssueLog.issues_pushAll, IssueLog.news_eq, hissues]
      rfl
    · obtain ⟨f, -, hi⟩ := List.mem_filterMap.mp hi
      obtain ⟨t, -, rfl⟩ := Option.map_eq_some_iff.mp hi
      rfl

/-- A member in an array of a logical node of class `GGIO`. -/
def elementMember (device object : String) (leaf : Option String) : Fcda :=
  { ldInst := some device, lnClass := some "GGIO", lnInst := some "1", doName := some object,
    daName := leaf, fc := "ST" }

/-- A part of the second element, an element without a number, and a parenthesis that is not
closed. -/
theorem members_taken_apart_element :
    (memberPath (elementMember "LD" "Arr(2)" (some "mag.f")) =
        "GGIO1$ST$Arr" ++ "(" ++ "2" ++ ")" ++ "$mag$f" ∧
      (Member.ofFcda (elementMember "LD" "Arr(2)" (some "mag.f")) "LD").variableName =
        "GGIO1$ST$Arr" ∧
      (Member.ofFcda (elementMember "LD" "Arr(2)" (some "mag.f")) "LD").text =
        "DE(GGIO1$ST$Arr 2 mag$f);") ∧
    (memberPath (elementMember "LD" "Arr(x)" none) = "GGIO1$ST$Arr" ++ "(" ++ "x" ++ ")" ++ "" ∧
      (Member.ofFcda (elementMember "LD" "Arr(x)" none) "IO").variableName = "LD/GGIO1$ST$Arr") ∧
    memberPath (elementMember "LD" "Arr(2" none) = "GGIO1$ST$Arr" ++ "(" ++ "2" ∧
      Member.ofFcda (elementMember "LD" "Arr(2" none) "LD" =
        ⟨"GGIO1$ST$Arr", none, none, some "2"⟩ := by
  have hbase : '(' ∉ "GGIO1$ST$Arr".toList := by decide +kernel
  have hclosed : memberPath (elementMember "LD" "Arr(2)" (some "mag.f")) =
      "GGIO1$ST$Arr" ++ "(" ++ "2" ++ ")" ++ "$mag$f" := by decide +kernel
  have hbad : memberPath (elementMember "LD" "Arr(x)" none) =
      "GGIO1$ST$Arr" ++ "(" ++ "x" ++ ")" ++ "" := by decide +kernel
  have hopen : memberPath (elementMember "LD" "Arr(2" none) = "GGIO1$ST$Arr" ++ "(" ++ "2" := by
    decide +kernel
  obtain ⟨-, hsecond, -⟩ := members_taken_apart.1 (elementMember "LD" "Arr(2)" (some "mag.f")) "LD"
  obtain ⟨-, hword, -⟩ := members_taken_apart.1 (elementMember "LD" "Arr(x)" none) "IO"
  obtain ⟨-, -, hunclosed⟩ := members_taken_apart.1 (elementMember "LD" "Arr(2" none) "LD"
  obtain ⟨hvariable, -⟩ := hsecond _ _ _ hclosed hbase (by decide +kernel)
  obtain ⟨hforeign, -⟩ := hword _ _ _ hbad hbase (by decide +kernel)
  obtain ⟨hunclosed, -⟩ := hunclosed _ _ hopen hbase (by decide +kernel)
  exact ⟨⟨hclosed, hvariable, by decide +kernel⟩, ⟨hbad, hforeign⟩, hopen, hunclosed⟩

/-- The name of a member on another logical device is not its variable, and members of different
names are written alike, with a dollar sign behind the index and without one. -/
theorem name_not_kept :
    ('(' ∉ (memberPath (elementMember "Other" "Ind1" none)).toList ∧
      memberPath (elementMember "Other" "Ind1" none) = "GGIO1$ST$Ind1" ∧
      (Member.ofFcda (elementMember "Other" "Ind1" none) "LD").variableName =
        "Other/GGIO1$ST$Ind1" ∧
      (Member.ofFcda (elementMember "Other" "Ind1" none) "LD").variableName ≠
        memberPath (elementMember "Other" "Ind1" none)) ∧
    memberPath (elementMember "LD" "Arr(2)mag" none) ≠
        memberPath (elementMember "LD" "Arr(2)" (some "mag")) ∧
      Member.ofFcda (elementMember "LD" "Arr(2)mag" none) "LD" =
        Member.ofFcda (elementMember "LD" "Arr(2)" (some "mag")) "LD" := by
  decide +kernel

end Substation
