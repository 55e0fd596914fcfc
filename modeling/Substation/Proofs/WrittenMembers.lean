import Mathlib.Data.List.TakeWhile
import Mathlib.Tactic.Common
import Substation.Proofs.Binding
import Substation.Proofs.EmittedBlocks
import Substation.Proofs.MemberNodes

/-!
# Members of data sets as they are written

A member of a data set names a node below a logical node by the segments of `doName` and those of
`daName`. The variable that is written for it is put together with `$` signs, but the segments of
`doName` keep their dots (`memberPath_eq`). So what is written is the path of the node exactly if
`doName` has one segment (`mmsName_together_iff`); a member in a nested data object has a dot in its
variable.

Results:
* `memberPath_eq` (`from_fcda`): the segments of a variable;
* `mmsName_together_iff`: when it is the path of the node;
* `member_written` (`write_data_set`): the lines of a data set;
* `nested_member_not_mms`: a member whose line is not the path.
-/

namespace Substation

open Substation.Config
open Substation.Emission
open Substation.Model
open Substation.Template (Registry)
open Substation.Text

namespace Text

/-! ## Segments -/

theorem intercalate_split_map (sep target : Char) (s : List Char) :
    [target].intercalate (split sep s) = s.map fun c => if c = sep then target else c := by
  induction s with
  | nil => rfl
  | cons c s ih =>
    rw [split, List.map_cons]
    obtain ⟨a, rest, hsplit⟩ := List.exists_cons_of_ne_nil (split_ne_nil sep s)
    rw [hsplit] at ih ⊢
    by_cases hc : c = sep
    · rw [if_pos hc, if_pos hc, ← ih, List.intercalate_cons_cons]
      rfl
    · rw [if_neg hc, if_neg hc, ← ih]
      cases rest with
      | nil => simp [List.intercalate]
      | cons b rest => simp [List.intercalate_cons_cons]

/-- Segments with another sign between them are the text with that sign for the separator. -/
theorem dollar_intercalate_segments (s : String) :
    "$".intercalate (segments '.' s) = replaceChars ['.'] '$' s := by
  rw [← String.toList_inj, String.toList_intercalate, map_toList_segments, replaceChars]
  refine (intercalate_split_map '.' '$' s.toList).trans (Eq.trans ?_ String.toList_ofList.symm)
  refine List.map_congr_left fun c _ => ?_
  by_cases hc : c = '.'
  · rw [if_pos hc, if_pos (by rw [hc]; rfl)]
  · rw [if_neg hc, if_neg fun h => hc (List.mem_singleton.mp (List.contains_iff_mem.mp h))]

end Text

/-! ## The variable -/

namespace Emission

/-- Names of a logical node, a functional constraint and what leads on from there, as one name. -/
def mmsName (ln fc : String) (names : List String) : String := "$".intercalate (ln :: fc :: names)

theorem intercalate_cons (sep a : String) {as : List String} (h : as ≠ []) :
    sep.intercalate (a :: as) = a ++ sep ++ sep.intercalate as := by
  obtain ⟨b, bs, rfl⟩ := List.exists_cons_of_ne_nil h
  exact String.intercalate_cons_cons

/-- What is written for a member before its name is taken apart: the segments of `doName` stay
together. -/
theorem memberPath_eq {f : Fcda} (h : f.doName ≠ none) :
    memberPath f = mmsName f.lnName f.fc (".".intercalate f.objectNames :: f.leafNames) := by
  obtain ⟨object, hobject⟩ := Option.ne_none_iff_exists'.mp h
  have hnames : ".".intercalate f.objectNames = object := by
    rw [Fcda.objectNames, hobject]
    exact intercalate_segments '.' object
  rw [hnames, mmsName, intercalate_cons _ _ (List.cons_ne_nil _ _),
    intercalate_cons _ _ (List.cons_ne_nil _ _), memberPath, hobject, Fcda.leafNames]
  cases f.daName with
  | none => simp [String.append_assoc]
  | some name =>
    show _ = f.lnName ++ "$" ++ (f.fc ++ "$" ++ "$".intercalate (object :: segments '.' name))
    rw [intercalate_cons _ _ (segments_ne_nil '.' name), dollar_intercalate_segments]
    simp [String.append_assoc]

/-- A member without a parenthesis is written in one piece. -/
theorem text_ofFcda {f : Fcda} (h : '(' ∉ (memberPath f).toList) (owner : String) :
    (Member.ofFcda f owner).text =
      "DE(" ++ (Member.devicePart owner f.ldInst ++ memberPath f) ++ ");" := by
  rw [Member.ofFcda, Member.ofPath, splitFirst?_of_not_mem h]
  simp [Member.text, Member.suffix]

/-- Names that stay together are the path of the names only if there is just one. -/
theorem mmsName_together_iff (ln fc : String) {objects leaves : List String} (h : objects ≠ []) :
    mmsName ln fc (".".intercalate objects :: leaves) = mmsName ln fc (objects ++ leaves) ↔
      objects.length = 1 := by
  obtain ⟨x, rest, rfl⟩ := List.exists_cons_of_ne_nil h
  cases rest with
  | nil => simp
  | cons y rest =>
    -- after the first name there is a dot on one side and a dollar sign on the other
    have htogether : ∃ t, "$".intercalate (".".intercalate (x :: y :: rest) :: leaves) =
        x ++ "." ++ t := by
      rw [intercalate_cons _ _ (List.cons_ne_nil y rest)]
      cases leaves with
      | nil => exact ⟨_, String.intercalate_singleton⟩
      | cons leaf leaves =>
        refine ⟨".".intercalate (y :: rest) ++ "$" ++ "$".intercalate (leaf :: leaves), ?_⟩
        rw [intercalate_cons _ _ (List.cons_ne_nil leaf leaves)]
        simp only [String.append_assoc]
    obtain ⟨t, ht⟩ := htogether
    have hapart : "$".intercalate ((x :: y :: rest) ++ leaves) =
        x ++ "$" ++ "$".intercalate ((y :: rest) ++ leaves) :=
      intercalate_cons _ _ (List.cons_ne_nil _ _)
    have hne : mmsName ln fc (".".intercalate (x :: y :: rest) :: leaves) ≠
        mmsName ln fc ((x :: y :: rest) ++ leaves) := by
      intro heq
      rw [mmsName, mmsName, intercalate_cons _ _ (List.cons_ne_nil _ _),
        intercalate_cons _ _ (List.cons_ne_nil _ _), intercalate_cons _ ln (List.cons_ne_nil _ _),
        intercalate_cons _ fc (by simp), ht, hapart] at heq
      have hchars := congrArg String.toList heq
      simp [String.toList_append] at hchars
    exact iff_of_false hne (by simp)

/-- The lines of a data set. -/
theorem DataSetStatement.lines_script (s : DataSetStatement) : s.script.lines =
    ("DS(" ++ s.name ++ ")" ++ "\x7b") :: s.members.map (·.statement.text) ++ ["\x7d"] := by
  have hmember (m : Remarked Member) :
      (m.script fun m => .line m.text).lines = [m.statement.text] := by
    rw [Remarked.script, Script.lines_append, Script.lines_remarks]
    rfl
  rw [script, block, Script.lines_append, Script.lines_append, Script.lines_concat,
    List.flatMap_map, List.flatMap_congr fun m _ => hmember m, ← List.map_eq_flatMap]
  rfl

theorem DataSetStatement.lines_layout (s : DataSetStatement) : s.layout.lines =
    ("DS(" ++ s.name ++ ")" ++ "\x7b") :: s.members.map (·.statement.text) ++ ["\x7d"] := by
  have hshows := s.script_shows
  rw [Script.Shows, Layout.linesAll, List.flatMap_singleton] at hshows
  rw [← hshows, lines_script]

end Emission

namespace Model

theorem foldl_dot_eq_intercalate (a : String) (names : List String) :
    names.foldl (fun ref name => ref ++ "." ++ name) a = ".".intercalate (a :: names) := by
  induction names generalizing a with
  | nil => exact String.intercalate_singleton.symm
  | cons name names ih =>
    rw [List.foldl_cons, ih, intercalate_cons _ a (List.cons_ne_nil _ _)]
    cases names with
    | nil => rw [String.intercalate_singleton, String.intercalate_singleton]
    | cons next names =>
      rw [intercalate_cons _ _ (List.cons_ne_nil _ _),
        intercalate_cons _ name (List.cons_ne_nil _ _)]
      simp only [String.append_assoc]

end Model

/-- A data set of a logical node has a block of its own in the text. -/
theorem exists_dataSetBlock {d : Document} {res : Resolution} (hm : res.model.Lawful)
    {o : EmitOptions} {b : Branch} (hb : b.Stands res.model) {config : LogicalNode}
    {space : Option Namespace} (hconfig : b.node.kind = .logicalNode config space) {ds : DataSet}
    (hds : ds ∈ config.dataSets) :
    ∃ dev inst front back, b.node.parent = some dev ∧ res.model.inst? dev = some inst ∧
      (emit d res o none).text = textOfLines (front ++ (("DS(" ++ ds.name ++ ")" ++ "\x7b") ::
        ds.members.map (fun f => (Member.ofFcda f inst).text) ++ ["\x7d"]) ++ back) := by
  obtain ⟨dev, inst, front, back, hparent, hinst, htext⟩ := exists_block hm hb hconfig
  let s := (res.setting d o).nodeStatement inst b config
  have hmem : Setting.dataSetStatement inst b ds ∈ s.dataSets := List.mem_map_of_mem hds
  have hpart : (Setting.dataSetStatement inst b ds).layout ∈
      s.sections.flatMap Layout.Section.entries :=
    List.mem_flatMap.mpr ⟨⟨["DS"], s.dataSets.map DataSetStatement.layout⟩,
      List.mem_of_getElem? (i := 2) rfl, List.mem_map_of_mem hmem⟩
  obtain ⟨front', back', hinfix⟩ := Layout.lines_infix_of_mem (h := .ofName "LN" s.name) hpart
  refine ⟨dev, inst, front ++ front', back' ++ back, hparent, hinst, ?_⟩
  rw [htext]
  congr 1
  show front ++ s.layout.lines ++ back = _
  rw [NodeStatement.layout, ← hinfix, DataSetStatement.lines_layout]
  simp only [Setting.dataSetStatement, List.map_map, List.append_assoc]
  rfl

/-- The line of a member without a parenthesis, by the name of the logical node that it means. -/
theorem text_of_meansNode {m : IedModel} {f : Fcda} {ln : Branch}
    (hplain : '(' ∉ (memberPath f).toList) (hmeans : f.MeansNode m ln) (hobject : f.doName ≠ none)
    (inst : String) :
    (Member.ofFcda f inst).text =
      "DE(" ++ ((if f.ldInst = some inst then "" else f.ldInst.getD "" ++ "/") ++
        mmsName ln.name f.fc (".".intercalate f.objectNames :: f.leafNames)) ++ ");" := by
  obtain ⟨dev, inst', space, -, -, hld, -, -, hname⟩ := hmeans
  rw [text_ofFcda hplain, memberPath_eq hobject, hname, hld]
  simp only [Member.devicePart, Option.getD_some, Option.some.injEq]

/-- **How members of data sets are written.** A data set of a logical node has a block of its own,
with a line for each member. A member without a parenthesis that leads to a node is written with the
logical device in front if it is another one, and with dollar signs between the logical node, the
functional constraint and the names that lead to the node; but the names of data objects keep the
dots between them. So the path of the node is written exactly if there is one such name. -/
theorem member_written {d : Document} {ied : String} {ap : Option String} {ro : ResolveOptions}
    {res : Resolution} (hres : resolve d ied ap ro = .ok res) (o : EmitOptions) {id : Nat}
    {owner : Node} (howner : res.model.node? id = some owner) {config : LogicalNode}
    {space : Option Namespace} (hconfig : owner.kind = .logicalNode config space) {ds : DataSet}
    (hds : ds ∈ config.dataSets) :
    ∃ dev inst front back, owner.parent = some dev ∧ res.model.inst? dev = some inst ∧
      (emit d res o none).text = textOfLines (front ++ (("DS(" ++ ds.name ++ ")" ++ "\x7b") ::
        ds.members.map (fun f => (Member.ofFcda f inst).text) ++ ["\x7d"]) ++ back) ∧
      ∀ f ∈ ds.members, '(' ∉ (memberPath f).toList → ∀ (ln c : Branch),
        f.MeansNode res.model ln → f.doName ≠ none →
        ln.Reaches (f.objectNames ++ f.leafNames) c →
        c.ref = ".".intercalate (ln.ref :: (f.objectNames ++ f.leafNames)) ∧
        (Member.ofFcda f inst).text =
          "DE(" ++ ((if f.ldInst = some inst then "" else f.ldInst.getD "" ++ "/") ++
            mmsName ln.name f.fc (".".intercalate f.objectNames :: f.leafNames)) ++ ");" ∧
        (mmsName ln.name f.fc (".".intercalate f.objectNames :: f.leafNames) =
          mmsName ln.name f.fc (f.objectNames ++ f.leafNames) ↔ f.objectNames.length = 1) := by
  obtain ⟨i, a, -, -, hstage⟩ := Resolution.stage_of_resolve hres
  have hm := hstage.lawful
  obtain ⟨b, hb, rfl⟩ := Branch.exists_stands hm.forest (IedModel.lt_size_of_node? howner)
  obtain rfl : b.node = owner := Option.some.inj (hb.node?.symm.trans howner)
  obtain ⟨dev, inst, front, back, hparent, hinst, htext⟩ := exists_dataSetBlock hm hb hconfig hds
  refine ⟨dev, inst, front, back, hparent, hinst, htext, ?_⟩
  intro f _ hplain ln c hmeans hobject hr
  refine ⟨?_, text_of_meansNode hplain hmeans hobject inst, mmsName_together_iff _ _ ?_⟩
  · rw [hr.ref_eq hm hmeans.stands hmeans.isDevice_eq_false, refBelow, foldl_dot_eq_intercalate]
  · obtain ⟨object, hobject⟩ := Option.ne_none_iff_exists'.mp hobject
    rw [Fcda.objectNames, hobject]
    exact segments_ne_nil '.' object

/-- A data object with a nested one, which has a structured attribute. -/
def voltageTypes : Registry where
  nodeTypes := ⟨[("L", ⟨"L", "MMXU", [⟨"PhV", "W", 0, false⟩]⟩)]⟩
  objectTypes := ⟨[("C", ⟨"C", "CMV", [],
      [⟨"cVal", .mx, .constructed, some "V", 0, {}, none, []⟩]⟩),
    ("W", ⟨"W", "WYE", [⟨"phsA", "C", 0, false⟩], []⟩)]⟩
  attributeTypes := ⟨[("V", ⟨"V", [⟨"mag", .none, .float32, none, 0, {}, none, []⟩]⟩)]⟩

/-- A member in the nested data object. -/
def voltageMember : Fcda :=
  { ldInst := some "LD", lnClass := some "MMXU", lnInst := some "1", doName := some "PhV.phsA",
    daName := some "cVal.mag", fc := "MX" }

/-- A data set with that member. -/
def voltageSet : DataSet := ⟨"Set", [voltageMember]⟩

/-- A logical node with that data set. -/
def voltageNode : LogicalNode :=
  ⟨"MMXU", "L", "1", none, none, [voltageSet], [], [], [], [], [], [], none⟩

/-- An IED with that logical node. -/
def voltageIed : Ied :=
  ⟨"E", none, none, none, [⟨"A", some ⟨[⟨"LD", none, none, none, [voltageNode]⟩]⟩⟩]⟩

/-- A document with that IED. -/
def voltageDocument : Document :=
  ⟨⟨none, none, none, none, none, [voltageIed], none⟩, voltageTypes, []⟩

/-- The resolution of that document. -/
def voltageResolution : Resolution :=
  .ofAccessPoint voltageDocument { checkNamespaces := false } voltageIed
    ⟨"A", some ⟨[⟨"LD", none, none, none, [voltageNode]⟩]⟩⟩

theorem node?_voltageResolution : ∃ n, voltageResolution.model.node? 1 = some n ∧
    n.name = "MMXU1" ∧ n.kind = .logicalNode voltageNode none ∧ n.parent = some 0 :=
  ⟨_, rfl, rfl, rfl, rfl⟩

/-- The member leads to a node. -/
theorem voltageMember_leads : ∃ ln c, voltageMember.MeansNode voltageResolution.model ln ∧
    ln.name = "MMXU1" ∧ ln.Reaches (voltageMember.objectNames ++ voltageMember.leafNames) c := by
  have hm : voltageResolution.model.Lawful :=
    (Resolution.stage_ofAccessPoint voltageDocument { checkNamespaces := false } voltageIed
      ⟨"A", some ⟨[⟨"LD", none, none, none, [voltageNode]⟩]⟩⟩).lawful
  have hcheck : ∃ ln ∈ voltageMember.nodes voltageResolution.model, ln.name = "MMXU1" ∧
      ln.ends (fun _ => true) (voltageMember.objectNames ++ voltageMember.leafNames) ≠ [] := by
    decide +kernel
  obtain ⟨ln, hln, hname, hends⟩ := hcheck
  obtain ⟨c, hc⟩ := List.exists_mem_of_ne_nil _ hends
  exact ⟨ln, c, (Fcda.mem_nodes hm).mp hln, hname, (Branch.mem_ends.mp hc).reaches⟩

/-- The line of that member. -/
theorem member_written_voltage : ∃ ln c,
    resolve voltageDocument "E" none { checkNamespaces := false } = .ok voltageResolution ∧
      voltageSet ∈ voltageNode.dataSets ∧ voltageMember ∈ voltageSet.members ∧
      '(' ∉ (memberPath voltageMember).toList ∧
      voltageMember.MeansNode voltageResolution.model ln ∧ voltageMember.doName ≠ none ∧
      ln.Reaches (voltageMember.objectNames ++ voltageMember.leafNames) c ∧
      c.ref = ".".intercalate (ln.ref :: ["PhV", "phsA", "cVal", "mag"]) ∧
      (Member.ofFcda voltageMember "LD").text = "DE(MMXU1$MX$PhV.phsA$cVal$mag);" := by
  have hres : resolve voltageDocument "E" none { checkNamespaces := false } =
      .ok voltageResolution := rfl
  obtain ⟨n, hn, -, hkind, hparent⟩ := node?_voltageResolution
  obtain ⟨ln, c, hmeans, hname, hr⟩ := voltageMember_leads
  have hset : voltageSet ∈ voltageNode.dataSets := List.mem_singleton.mpr rfl
  have hmember : voltageMember ∈ voltageSet.members := List.mem_singleton.mpr rfl
  have hplain : '(' ∉ (memberPath voltageMember).toList := by decide +kernel
  obtain ⟨dev, inst, -, -, hup, hinst, -, hmembers⟩ := member_written hres {} hn hkind hset
  obtain ⟨href, htext, -⟩ := hmembers voltageMember hmember hplain ln c hmeans (by decide) hr
  have hnames : voltageMember.objectNames ++ voltageMember.leafNames =
      ["PhV", "phsA", "cVal", "mag"] := by decide +kernel
  rw [hparent] at hup
  obtain rfl : 0 = dev := Option.some.inj hup
  obtain rfl : "LD" = inst := Option.some.inj
    ((show voltageResolution.model.inst? 0 = some "LD" from rfl).symm.trans hinst)
  refine ⟨ln, c, hres, hset, hmember, hplain, hmeans, by decide, hr, hnames ▸ href, ?_⟩
  rw [htext, hname]
  decide +kernel

/-- What is written for that member is not the path of the node. -/
theorem nested_member_not_mms : ∃ ln c,
    resolve voltageDocument "E" none { checkNamespaces := false } = .ok voltageResolution ∧
      '(' ∉ (memberPath voltageMember).toList ∧
      voltageMember.MeansNode voltageResolution.model ln ∧
      ln.Reaches (voltageMember.objectNames ++ voltageMember.leafNames) c ∧
      (Member.ofFcda voltageMember "LD").variableName ≠
        mmsName ln.name "MX" (voltageMember.objectNames ++ voltageMember.leafNames) ∧
      '.' ∈ (Member.ofFcda voltageMember "LD").variableName.toList ∧
      (emit voltageDocument voltageResolution {} none).text = "MODEL(E)\x7b\nLD(LD)\x7b\n" ++
        "LN(MMXU1)\x7b\nDO(PhV 0)\x7b\nDO(phsA 0)\x7b\nDA(cVal 0 27 1 16 0)\x7b\n" ++
        "DA(mag 0 10 1 16 0);\n\x7d\n\x7d\n\x7d\nDS(Set)\x7b\n" ++
        "DE(MMXU1$MX$PhV.phsA$cVal$mag);\n\x7d\n\x7d\n\x7d\n\x7d\n" := by
  obtain ⟨ln, c, hmeans, hname, hr⟩ := voltageMember_leads
  refine ⟨ln, c, rfl, by decide +kernel, hmeans, hr, ?_, by decide +kernel, by decide +kernel⟩
  rw [hname]
  decide +kernel

end Substation
