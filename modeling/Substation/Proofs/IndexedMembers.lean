import Mathlib.Data.List.Basic
import Mathlib.Tactic.Common
import Substation.Proofs.ArrayMembers
import Substation.Proofs.MemberChecks
import Substation.Proofs.Names
import Substation.Proofs.NumericValues

/-!
# The check of members that point into arrays

The check of members compares the segments of a name with the names of definitions as they stand, an
index in parentheses included. So every segment of a member that it accepts is the name of a
definition (`defines_of_memberExists`), and a member with an index is reported unless the templates
define a name with that very index in it, although it is written with its index
(`indexed_members_checked`).

Results:
* `defines_of_memberExists` (`fcda_exists`, `fcda_attribute_exists`): a member that is accepted is
  made of names of definitions;
* `indexed_members_checked` (`check_data_set`): what is reported about a member with an index;
* `indexed_member_reported`: one that is reported for its index.
-/

namespace Substation

open Substation.Config
open Substation.Emission
open Substation.Journal
open Substation.Model
open Substation.Template
open Substation.Text

namespace Config.Fcda

/-- The two names of a member that may point into arrays. -/
inductive Place where
  /-- The name of data objects. -/
  | object
  /-- The name of attributes. -/
  | leaf

/-- The name at a place. -/
def nameAt (f : Fcda) : Place → Option String
  | .object => f.doName
  | .leaf => f.daName

/-- The segments of the name at a place. -/
def namesAt (f : Fcda) : Place → List String
  | .object => f.objectNames
  | .leaf => f.leafNames

/-- The member with another name at a place. -/
def withName (f : Fcda) (name : String) : Place → Fcda
  | .object => { f with doName := some name }
  | .leaf => { f with daName := some name }

theorem namesAt_withName (f : Fcda) (name : String) (p : Place) :
    (f.withName name p).namesAt p = segments '.' name := by
  cases p <;> rfl

theorem withName_of_nameAt {f : Fcda} {name : String} {p : Place} (h : f.nameAt p = some name) :
    f.withName name p = f := by
  cases f
  cases p <;> cases h <;> rfl

end Config.Fcda

open Fcda (Place)

namespace Template.Registry

/-- Some type lists a definition of that name: one of a data object, or one of an attribute. -/
def Defines (r : Registry) (name : String) : Place → Prop
  | .object => (∃ id t, r.nodeType? id = some t ∧ ∃ d ∈ t.objects, d.name = name) ∨
      ∃ id t, r.objectType? id = some t ∧ ∃ d ∈ t.objects, d.name = name
  | .leaf => (∃ id t, r.objectType? id = some t ∧ ∃ a ∈ t.leaves, a.name = name) ∨
      ∃ id t, r.attributeType? id = some t ∧ ∃ a ∈ t.leaves, a.name = name

end Template.Registry

namespace Model

variable {r : Registry} {names : List String} {name : String}

/-! ## What is followed is defined -/

/-- Names that lead through data object types are names of definitions. -/
theorem defines_of_nestedType? {start type : ObjectType} {id : String}
    (hstart : r.objectType? id = some start) (h : nestedType? r names start = some type) :
    (∃ id, r.objectType? id = some type) ∧ ∀ s ∈ names, r.Defines s .object := by
  induction names generalizing start id with
  | nil =>
    rw [nestedType?, Option.some.injEq] at h
    exact ⟨⟨id, h ▸ hstart⟩, fun s hs => absurd hs List.not_mem_nil⟩
  | cons name names ih =>
    obtain ⟨d, t, hd, ht, hnext⟩ := exists_of_nestedType? h
    obtain ⟨hreg, hnames⟩ := ih ht hnext
    exact ⟨hreg, List.forall_mem_cons.mpr ⟨Or.inr ⟨id, start, hstart, d, hd⟩, hnames⟩⟩

theorem defines_of_memberType? {typeId : String} {type : ObjectType}
    (h : memberType? r typeId name = some type) :
    (∃ id, r.objectType? id = some type) ∧ ∀ s ∈ segments '.' name, r.Defines s .object := by
  obtain ⟨first, rest, nodeType, d, start, hsegments, hnode, hd, ht, hnested⟩ :=
    exists_of_memberType? h
  obtain ⟨hreg, hnames⟩ := defines_of_nestedType? ht hnested
  rw [hsegments]
  exact ⟨hreg, List.forall_mem_cons.mpr ⟨Or.inl ⟨typeId, nodeType, hnode, d, hd⟩, hnames⟩⟩

/-- Names that lead through attribute types are names of definitions. -/
theorem defines_of_hasNested {a : AttributeDef} (h : hasNested r names a) :
    ∀ s ∈ names, r.Defines s .leaf := by
  induction names generalizing a with
  | nil => exact fun s hs => absurd hs List.not_mem_nil
  | cons name names ih =>
    obtain ⟨typeId, t, inner, -, ht, hinner, hnested⟩ := exists_of_hasNested h
    exact List.forall_mem_cons.mpr ⟨Or.inr ⟨typeId, t, ht, inner, hinner⟩, ih hnested⟩

theorem defines_of_hasAttribute {type : ObjectType} {id : String}
    (hreg : r.objectType? id = some type) (h : hasAttribute r type name) :
    ∀ s ∈ segments '.' name, r.Defines s .leaf := by
  obtain ⟨first, rest, a, hsegments, ha, hnested⟩ := exists_of_hasAttribute h
  rw [hsegments]
  exact List.forall_mem_cons.mpr ⟨Or.inl ⟨id, type, hreg, a, ha⟩, defines_of_hasNested hnested⟩

/-- **Every segment of an accepted member is the name of a definition**, as it stands. -/
theorem defines_of_memberExists {m : IedModel} {f : Fcda} (h : memberExists r m f) (p : Place) :
    ∀ s ∈ f.namesAt p, r.Defines s p := by
  obtain ⟨-, -, -, config, object, type, -, -, -, -, hobject, htype, hleaf⟩ := memberExists_iff.mp h
  obtain ⟨⟨id, hreg⟩, hnames⟩ := defines_of_memberType? htype
  cases p with
  | object =>
    rw [Fcda.namesAt, Fcda.objectNames, hobject]
    exact hnames
  | leaf =>
    rw [Fcda.namesAt, Fcda.leafNames]
    cases hda : f.daName with
    | none => exact fun s hs => absurd hs List.not_mem_nil
    | some leaf => exact defines_of_hasAttribute hreg (hleaf leaf hda)

end Model

/-! ## An index behind a segment -/

namespace Text

/-- The text goes on with a new segment, or ends. -/
def SegmentEnds (back : String) : Prop := back = "" ∨ ∃ more, back = "." ++ more

/-- What stands behind a segment is part of it, if it has no separator. -/
theorem getLast_segments_append_mem (front : String) {x back : String} (hx : '.' ∉ x.toList)
    (hback : SegmentEnds back) :
    (segments '.' front).getLast (segments_ne_nil '.' front) ++ x ∈
      segments '.' (front ++ x ++ back) := by
  obtain ⟨before, last, hsplit⟩ := exists_split_append '.' front.toList
  have hfront : segments '.' front = before.map String.ofList ++ [String.ofList last] := by
    have hnil := hsplit [] List.not_mem_nil
    rw [List.append_nil, List.append_nil] at hnil
    rw [segments, hnil, List.map_append, List.map_singleton]
  have hlast : (segments '.' front).getLast (segments_ne_nil '.' front) = String.ofList last := by
    simp only [hfront, List.getLast_append_singleton]
  have hmem : last ++ x.toList ∈ split '.' (front ++ x ++ back).toList := by
    rw [String.toList_append, String.toList_append]
    rcases hback with rfl | ⟨more, rfl⟩
    · rw [show "".toList = [] from rfl, List.append_nil, hsplit _ hx]
      exact List.mem_append_right _ List.mem_cons_self
    · rw [show ("." ++ more).toList = '.' :: more.toList by simp, split_append_sep, hsplit _ hx]
      exact List.mem_append_left _ (List.mem_append_right _ List.mem_cons_self)
  rw [hlast]
  refine List.mem_map.mpr ⟨_, hmem, ?_⟩
  rw [String.ofList_append, String.ofList_toList]

end Text

namespace Emission

variable {t : String} {n : Nat}

theorem IsIndex.isNumeral (h : IsIndex t.toList n) {c : Char} (hc : c ∈ t.toList) :
    c.isDigit = true ∨ c = '+' := by
  obtain ⟨ds, hs, hdigits, -⟩ := h
  have hds : ∀ c ∈ ds, c.isDigit = true := by
    rw [isDigits, Bool.and_eq_true, List.all_eq_true] at hdigits
    exact hdigits.2
  rcases hs with hs | hs
  · exact Or.inl (hds c (hs ▸ hc))
  · rcases List.mem_cons.mp (hs ▸ hc) with rfl | hc
    · exact Or.inr rfl
    · exact Or.inl (hds c hc)

theorem IsIndex.not_mem (h : IsIndex t.toList n) {c : Char} (hc : c.isDigit = false)
    (hplus : c ≠ '+') : c ∉ t.toList := by
  intro hmem
  rcases h.isNumeral hmem with hdigit | heq
  · rw [hc] at hdigit
    exact Bool.false_ne_true hdigit
  · exact hplus heq

/-- An index has no white space at its ends. -/
theorem IsIndex.index?_eq (h : IsIndex t.toList n) : index? t = some n := by
  have hsolid : Solid t.toList := by
    intro c hc
    rcases h.isNumeral hc with hdigit | rfl
    · exact isWhite_of_isNumeric (isNumeric_of_isDigit hdigit)
    · decide
  have htrim : trimChars t.toList = t.toList := by
    rw [← String.toList_ofList (l := trimChars t.toList)]
    exact congrArg String.toList hsolid.trim_eq
  rwa [index?_eq_some_iff, htrim]

theorem replaceChars_append (a b : String) :
    replaceChars ['.'] '$' (a ++ b) = replaceChars ['.'] '$' a ++ replaceChars ['.'] '$' b := by
  rw [← String.toList_inj]
  simp [replaceChars]

theorem replaceChars_of_not_mem {x : String} (h : '.' ∉ x.toList) :
    replaceChars ['.'] '$' x = x := by
  rw [← String.toList_inj, replaceChars, String.toList_ofList]
  refine (List.map_congr_left fun c hc => if_neg ?_).trans (List.map_id _)
  intro hdot
  exact h (List.mem_singleton.mp (List.contains_iff_mem.mp hdot) ▸ hc)

/-- What is put into a name stands in what is written for the member, if it has no dot. -/
theorem exists_memberPath_insert {f : Fcda} {p : Place} {front back x : String}
    (hname : f.nameAt p = some (front ++ back)) (hx : '.' ∉ x.toList) :
    ∃ a b, memberPath f = a ++ b ∧
      memberPath (f.withName (front ++ x ++ back) p) = a ++ x ++ b := by
  rw [← Fcda.withName_of_nameAt hname]
  cases p with
  | object =>
    let tail := f.daName.elim "" fun leaf => "$" ++ replaceChars ['.'] '$' leaf
    have htail (name : String) : memberPath (f.withName name .object) =
        f.lnName ++ "$" ++ f.fc ++ "$" ++ name ++ tail := by
      have hleaf : (f.withName name .object).daName = f.daName := rfl
      rw [memberPath, hleaf]
      unfold tail
      cases f.daName <;> rfl
    refine ⟨f.lnName ++ "$" ++ f.fc ++ "$" ++ front, back ++ tail, ?_, ?_⟩
    · rw [htail]
      simp only [String.append_assoc]
    · refine (htail _).trans ?_
      simp only [String.append_assoc]
  | leaf =>
    let head := f.lnName ++ "$" ++ f.fc ++ "$" ++ f.doName.getD ""
    have hhead (name : String) : memberPath (f.withName name .leaf) =
        head ++ ("$" ++ replaceChars ['.'] '$' name) := rfl
    refine ⟨head ++ "$" ++ replaceChars ['.'] '$' front, replaceChars ['.'] '$' back, ?_, ?_⟩
    · rw [hhead]
      simp only [replaceChars_append, String.append_assoc]
    · refine (hhead _).trans ?_
      simp only [replaceChars_append, replaceChars_of_not_mem hx, String.append_assoc]

/-- A member with an index is written with it, whatever the check says. -/
theorem index_ofFcda_withName {f : Fcda} {p : Place} {front back : String}
    (hname : f.nameAt p = some (front ++ back)) (hplain : '(' ∉ (memberPath f).toList)
    (ht : IsIndex t.toList n) (owner : String) :
    (Member.ofFcda (f.withName (front ++ ("(" ++ t ++ ")") ++ back) p) owner).index = some n ∧
      (Member.ofFcda (f.withName (front ++ ("(" ++ t ++ ")") ++ back) p) owner).badIndex =
        none := by
  have hdot : '.' ∉ ("(" ++ t ++ ")").toList := by
    simpa using ht.not_mem (by decide) (by decide)
  obtain ⟨a, b, hpath, hpath'⟩ := exists_memberPath_insert hname hdot
  have ha : '(' ∉ a.toList := by
    rw [hpath, String.toList_append] at hplain
    exact fun h => hplain (List.mem_append_left _ h)
  have hparts : memberPath (f.withName (front ++ ("(" ++ t ++ ")") ++ back) p) =
      a ++ "(" ++ t ++ ")" ++ b := by
    rw [hpath']
    simp only [String.append_assoc]
  rw [Member.ofFcda, hparts, Member.ofPath_closed ha (ht.not_mem (by decide) (by decide)),
    ht.index?_eq]
  exact ⟨rfl, rfl⟩

end Emission

/-- A member of a data set that the check does not accept is reported. -/
theorem mem_errors_of_not_memberExists {d : Document} {ied : String} {ap : Option String}
    {ro : ResolveOptions} {res : Resolution} (h : resolve d ied ap ro = .ok res)
    (hcheck : ro.checkMembers) {set : String} {f : Fcda} (hset : res.model.Lists set f)
    (hnot : memberExists d.registry res.model f = false) :
    (Finding.unknownMember set f.reference).issue ∈ res.issues.errors := by
  obtain ⟨i, a, -, -, hstage⟩ := Resolution.stage_of_resolve h
  obtain ⟨i', a', -, -, rfl⟩ := Resolution.exists_of_resolve h
  have hfound := (mem_memberFindings (r := d.registry) hstage.lawful).mpr ⟨f, hset, rfl, hnot⟩
  have hjournal := Resolution.unknownMember_mem_journal_iff d ro i' a' set f.reference
  exact mem_errors_of_finding (hjournal.mpr ⟨hcheck, hfound⟩) rfl

/-- **Members with an index are checked as they stand.** Let an index be put behind a segment of one
of the names of a member. The check accepts the member with the index only if the templates define
a name that is this segment with this index; otherwise it is reported where it is listed, also if
the member without the index is accepted. But if there is no other parenthesis, it is written with
its index, and no index is reported as one that cannot be read. -/
theorem indexed_members_checked {d : Document} {ied : String} {ap : Option String}
    {ro : ResolveOptions} {res : Resolution} (h : resolve d ied ap ro = .ok res) {f : Fcda}
    {p : Place} {front back t : String} {n : Nat} (hname : f.nameAt p = some (front ++ back))
    (hback : SegmentEnds back) (ht : IsIndex t.toList n) :
    let g := f.withName (front ++ ("(" ++ t ++ ")") ++ back) p
    let s := (segments '.' front).getLast (segments_ne_nil '.' front) ++ ("(" ++ t ++ ")")
    (memberExists d.registry res.model g → d.registry.Defines s p) ∧
    (¬ d.registry.Defines s p → memberExists d.registry res.model g = false ∧
      ∀ set, ro.checkMembers → res.model.Lists set g →
        (Finding.unknownMember set g.reference).issue ∈ res.issues.errors) ∧
    ('(' ∉ (memberPath f).toList → ∀ owner,
      (Member.ofFcda g owner).index = some n ∧ (Member.ofFcda g owner).badIndex = none) := by
  intro g s
  have hdot : '.' ∉ ("(" ++ t ++ ")").toList := by
    simpa using ht.not_mem (by decide) (by decide)
  have hdefines : memberExists d.registry res.model g → d.registry.Defines s p := by
    intro hexists
    refine defines_of_memberExists hexists p s ?_
    rw [Fcda.namesAt_withName]
    exact getLast_segments_append_mem front hdot hback
  refine ⟨hdefines, fun hnot => ?_, fun hplain => index_ofFcda_withName hname hplain ht⟩
  have hfalse : memberExists d.registry res.model g = false :=
    Bool.eq_false_iff.mpr fun hexists => hnot (hdefines hexists)
  exact ⟨hfalse, fun set hcheck hset => mem_errors_of_not_memberExists h hcheck hset hfalse⟩

/-- A data object with an array of structures. -/
def harmonicTypes : Registry where
  nodeTypes := ⟨[("L", ⟨"L", "MHAI", [⟨"Har", "H", 0, false⟩]⟩)]⟩
  objectTypes := ⟨[("H", ⟨"H", "HMV", [],
    [⟨"harm", .mx, .constructed, some "V", 3, {}, none, []⟩]⟩)]⟩
  attributeTypes := ⟨[("V", ⟨"V", [⟨"f", .none, .float32, none, 0, {}, none, []⟩]⟩)]⟩

/-- A member in that array. -/
def harmonicMember (leaf : String) : Fcda :=
  { ldInst := some "LD", lnClass := some "MHAI", lnInst := some "1", doName := some "Har",
    daName := some leaf, fc := "MX" }

/-- A logical node with a data set that has the third element of the array. -/
def harmonicNode : LogicalNode :=
  ⟨"MHAI", "L", "1", none, none, [⟨"Set", [harmonicMember "harm(2).f"]⟩], [], [], [], [], [], [],
    none⟩

/-- An IED with that logical node. -/
def harmonicIed : Ied :=
  ⟨"E", none, none, none, [⟨"A", some ⟨[⟨"LD", none, none, none, [harmonicNode]⟩]⟩⟩]⟩

/-- A document with that IED. -/
def harmonicDocument : Document :=
  ⟨⟨none, none, none, none, none, [harmonicIed], none⟩, harmonicTypes, []⟩

/-- The resolution of that document. -/
def harmonicResolution : Resolution :=
  .ofAccessPoint harmonicDocument { checkNamespaces := false } harmonicIed
    ⟨"A", some ⟨[⟨"LD", none, none, none, [harmonicNode]⟩]⟩⟩

theorem not_defines_harmonic : ¬ harmonicTypes.Defines "harm(2)" .leaf := by
  rintro (⟨id, type, htype, a, ha, hname⟩ | ⟨id, type, htype, a, ha, hname⟩)
  · obtain ⟨e, he, rfl⟩ := Catalogue.exists_entry htype
    obtain rfl := List.mem_singleton.mp he
    obtain rfl := List.mem_singleton.mp ha
    exact absurd hname (by decide)
  · obtain ⟨e, he, rfl⟩ := Catalogue.exists_entry htype
    obtain rfl := List.mem_singleton.mp he
    obtain rfl := List.mem_singleton.mp ha
    exact absurd hname (by decide)

/-- The third element is written, but not accepted. -/
theorem indexed_members_checked_harmonic :
    resolve harmonicDocument "E" none { checkNamespaces := false } = .ok harmonicResolution ∧
      (harmonicMember "harm.f").nameAt .leaf = some ("harm" ++ ".f") ∧ SegmentEnds ".f" ∧
      IsIndex "2".toList 2 ∧
      memberExists harmonicTypes harmonicResolution.model (harmonicMember "harm(2).f") = false ∧
      (Member.ofFcda (harmonicMember "harm(2).f") "LD").index = some 2 := by
  have hres : resolve harmonicDocument "E" none { checkNamespaces := false } =
      .ok harmonicResolution := rfl
  have hname : (harmonicMember "harm.f").nameAt .leaf = some ("harm" ++ ".f") := by decide +kernel
  have hback : SegmentEnds ".f" := Or.inr ⟨"f", rfl⟩
  have ht : IsIndex "2".toList 2 := ⟨['2'], Or.inl (by decide), by decide, by decide, by decide⟩
  have hplain : '(' ∉ (memberPath (harmonicMember "harm.f")).toList := by decide +kernel
  have hwith : (harmonicMember "harm.f").withName ("harm" ++ ("(" ++ "2" ++ ")") ++ ".f") .leaf =
      harmonicMember "harm(2).f" := by decide +kernel
  have hsegment : (segments '.' "harm").getLast (segments_ne_nil '.' "harm") ++
      ("(" ++ "2" ++ ")") = "harm(2)" := by decide +kernel
  obtain ⟨-, hrefused, hwritten⟩ := indexed_members_checked hres hname hback ht
  rw [hwith, hsegment] at hrefused
  rw [hwith] at hwritten
  exact ⟨hres, hname, hback, ht, (hrefused not_defines_harmonic).1, (hwritten hplain "LD").1⟩

/-- The member without the index is accepted, and the one with it is reported. -/
theorem indexed_member_reported :
    resolve harmonicDocument "E" none { checkNamespaces := false } = .ok harmonicResolution ∧
      memberExists harmonicTypes harmonicResolution.model (harmonicMember "harm.f") ∧
      memberExists harmonicTypes harmonicResolution.model (harmonicMember "harm(2).f") = false ∧
      harmonicResolution.issues.errors.map Issue.message = ["FCDA LD/MHAI1.Har.harm(2).f on " ++
        "DataSet ELD/MHAI1.Set not found on data type templates"] ∧
      (emit harmonicDocument harmonicResolution {} none).issues.issues = [] ∧
      (emit harmonicDocument harmonicResolution {} none).text = "MODEL(E)\x7b\nLD(LD)\x7b\n" ++
        "LN(MHAI1)\x7b\nDO(Har 0)\x7b\nDA(harm 3 27 1 16 0)\x7b\n" ++
        "[0]\x7b\nDA(f 0 10 1 16 0);\n\x7d\n[1]\x7b\nDA(f 0 10 1 16 0);\n\x7d\n" ++
        "[2]\x7b\nDA(f 0 10 1 16 0);\n\x7d\n\x7d\n\x7d\n" ++
        "DS(Set)\x7b\nDE(MHAI1$MX$Har$harm 2 f);\n\x7d\n\x7d\n\x7d\n\x7d\n" := by
  refine ⟨rfl, ?_⟩
  decide +kernel

end Substation
