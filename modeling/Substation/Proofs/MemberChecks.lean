import Mathlib.Data.List.Nodup
import Mathlib.Tactic.Common
import Substation.Proofs.MemberFindings
import Substation.Proofs.MemberPaths

/-!
# The check of members and the model

The check of a member finds a logical node in the model and follows names through its type
(`memberExists_iff`). So the model has what the check accepts, as far as the types were expanded
(`leads_of_memberExists`). Conversely the check accepts a member that names data objects and then
attributes of the model, if names tell definitions and logical nodes apart
(`memberExists_of_leads`).

Results:
* `memberExists_iff` (`fcda_exists`): what the check of a member finds;
* `leads_of_memberExists`, `memberExists_of_leads`: how this compares with the model;
* `members_checked` (`check_fcda_references`): what is reported, and what follows for the model;
* `check_differs_from_model`: members of which the two do not say the same.
-/

namespace Substation

open Substation.Config
open Substation.Journal
open Substation.Model
open Substation.Template
open Substation.Text

namespace Model

variable {r : Registry} {m : IedModel} {f : Fcda} {ln o c : Branch}

/-- Logical devices have instance names of their own, and the logical nodes of each have names of
their own. -/
structure IedModel.NodesDistinct (m : IedModel) : Prop where
  insts : (m.devices.map m.inst?).Nodup
  names : ∀ d ∈ m.devices, ((m.logicalNodes d).map fun id => (m.node? id).map Node.name).Nodup

/-- The member names a data object of the type of the logical node that was taken back, since its
types are nested too deeply. -/
def TakenBack (r : Registry) (limit : Nat) (ln : Branch) (f : Fcda) : Prop :=
  ∃ config d, ln.node.kind.config? = some config ∧ d ∈ nodeObjects r config ∧
    f.objectNames.head? = some d.name ∧ r.objectType? d.typeId ≠ none ∧ ¬ Fits r limit ln.ref d

/-! ## The logical node of a member -/

/-- The check finds a logical node and follows the names of the member through its type. -/
theorem memberExists_iff : memberExists r m f ↔
    ∃ inst device id config name type, f.ldInst = some inst ∧ m.deviceByInst? inst = some device ∧
      m.logicalNode? device f.lnName = some id ∧
      (m.node? id).bind (·.kind.config?) = some config ∧ f.doName = some name ∧
      memberType? r config.lnType name = some type ∧
      ∀ leaf, f.daName = some leaf → hasAttribute r type leaf := by
  unfold memberExists
  simp only [Option.bind_eq_bind]
  constructor
  · intro h
    generalize hchain : f.ldInst.bind _ = type? at h
    cases type? with
    | none => exact absurd h Bool.false_ne_true
    | some type =>
      obtain ⟨inst, hld, hchain⟩ := Option.bind_eq_some_iff.mp hchain
      obtain ⟨device, hdevice, hchain⟩ := Option.bind_eq_some_iff.mp hchain
      obtain ⟨id, hid, hchain⟩ := Option.bind_eq_some_iff.mp hchain
      obtain ⟨n, hn, hchain⟩ := Option.bind_eq_some_iff.mp hchain
      obtain ⟨config, hconfig, hchain⟩ := Option.bind_eq_some_iff.mp hchain
      obtain ⟨name, hname, htype⟩ := Option.bind_eq_some_iff.mp hchain
      refine ⟨inst, device, id, config, name, type, hld, hdevice, hid, ?_, hname, htype, ?_⟩
      · rw [hn, Option.bind_some, hconfig]
      · intro leaf hleaf
        rwa [hleaf] at h
  · rintro ⟨inst, device, id, config, name, type, hld, hdevice, hid, hconfig, hname, htype, hleaf⟩
    obtain ⟨n, hn, hconfig⟩ := Option.bind_eq_some_iff.mp hconfig
    rw [hld, Option.bind_some, hdevice, Option.bind_some, hid, Option.bind_some, hn,
      Option.bind_some, hconfig, Option.bind_some, hname, Option.bind_some, htype]
    cases hda : f.daName with
    | none => rfl
    | some leaf => exact hleaf leaf hda

theorem exists_node_of_memberExists (hm : m.Lawful) (h : memberExists r m f) :
    ∃ ln config name type, f.MeansNode m ln ∧ ln.node.kind.config? = some config ∧
      f.doName = some name ∧ memberType? r config.lnType name = some type ∧
      ∀ leaf, f.daName = some leaf → hasAttribute r type leaf := by
  obtain ⟨inst, device, id, config, name, type, hld, hdevice, hid, hconfig, hrest⟩ :=
    memberExists_iff.mp h
  have hinst : m.inst? device = some inst := by simpa using List.find?_some hdevice
  obtain ⟨n, space, hn, hkind⟩ := IedModel.inst?_eq_some_iff.mp hinst
  obtain ⟨dev, hdev, rfl⟩ := Branch.exists_stands hm.forest (IedModel.lt_size_of_node? hn)
  obtain rfl : dev.node = n := Option.some.inj (hdev.node?.symm.trans hn)
  obtain ⟨ln, hln, hk, rfl⟩ := hdev.mem_logicalNodes_iff.mp (List.mem_of_find?_eq_some hid)
  have hnode := (hdev.of_mem hln).node?
  rw [hnode, Option.bind_some] at hconfig
  have hname : ln.name = f.lnName := by
    have hsatisfies := List.find?_some hid
    rw [IedModel.satisfies, hnode] at hsatisfies
    exact of_decide_eq_true hsatisfies
  exact ⟨ln, config, name, type, ⟨dev, inst, space, hdev, hkind, hld, hln, hk, hname⟩, hconfig,
    hrest⟩

theorem memberExists_of_node (hm : m.Lawful) (hd : m.NodesDistinct) (hln : f.MeansNode m ln)
    {config : LogicalNode} (hconfig : ln.node.kind.config? = some config) {name : String}
    (hname : f.doName = some name) {type : ObjectType}
    (htype : memberType? r config.lnType name = some type)
    (hleaf : ∀ leaf, f.daName = some leaf → hasAttribute r type leaf) : memberExists r m f := by
  obtain ⟨dev, inst, space, hdev, hkind, hld, hmem, hk, hlnName⟩ := hln
  obtain ⟨hid, hinst⟩ := hdev.of_device hm hkind
  have hnode := (hdev.of_mem hmem).node?
  have hlnId : ln.id ∈ m.logicalNodes dev.id := hdev.mem_logicalNodes_iff.mpr ⟨ln, hmem, hk, rfl⟩
  refine memberExists_iff.mpr ⟨inst, dev.id, ln.id, config, name, type, hld, ?_, ?_, ?_, hname,
    htype, hleaf⟩
  · exact (find?_name_eq_some_iff hd.insts).mpr ⟨hid, hinst⟩
  · have hnamed : m.satisfies (·.name = f.lnName) =
        fun id => decide ((m.node? id).map Node.name = some f.lnName) := by
      funext id
      rw [IedModel.satisfies]
      cases m.node? id <;> simp
    rw [IedModel.logicalNode?, hnamed]
    refine (find?_name_eq_some_iff (hd.names dev.id hid)).mpr ⟨hlnId, ?_⟩
    rw [hnode, Option.map_some]
    exact congrArg some hlnName
  · rw [hnode, Option.bind_some, hconfig]

/-! ## What the check accepts -/

/-- What the check accepts is in the model, as far as the types were expanded. -/
theorem leads_of_memberExists {limit : Nat} {devices : List String} (h : Stage r limit devices m)
    (hexists : memberExists r m f) :
    ∃ ln, f.MeansNode m ln ∧ f.doName ≠ none ∧
      ((∃ o, ln.ReachesVia NodeKind.isObject f.objectNames o ∧
        ((∃ c, o.ReachesVia NodeKind.isLeaf f.leafNames c) ∨ o.StopsAt f.leafNames)) ∨
      TakenBack r limit ln f) := by
  obtain ⟨ln, config, name, type, hln, hconfig, hname, htype, hleaf⟩ :=
    exists_node_of_memberExists h.lawful hexists
  have hobjects : f.objectNames = segments '.' name := by rw [Fcda.objectNames, hname]; rfl
  refine ⟨ln, hln, by rw [hname]; exact Option.some_ne_none name, ?_⟩
  rcases exists_object_of_memberType? h hln.stands hconfig htype with
    ⟨o, hr, ho⟩ | ⟨d, hd, hfirst, htypeId, hfit⟩
  · refine Or.inl ⟨o, hobjects ▸ hr, ?_⟩
    cases hda : f.daName with
    | none =>
      rw [Fcda.leafNames, hda]
      exact Or.inl ⟨o, .refl o⟩
    | some leaf =>
      rw [Fcda.leafNames, hda]
      exact exists_leaf_of_hasAttribute h.lawful (hleaf leaf hda) ho
  · exact Or.inr ⟨config, d, hconfig, hd, hobjects ▸ hfirst, htypeId, hfit⟩

/-- The check accepts what names data objects and then attributes of the model. -/
theorem memberExists_of_leads {limit : Nat} {devices : List String} (h : Stage r limit devices m)
    (hr : r.Distinct) (hd : m.NodesDistinct) (hln : f.MeansNode m ln) (hname : f.doName ≠ none)
    (ho : ln.ReachesVia NodeKind.isObject f.objectNames o)
    (hc : o.ReachesVia NodeKind.isLeaf f.leafNames c) : memberExists r m f := by
  obtain ⟨name, hname⟩ := Option.ne_none_iff_exists'.mp hname
  obtain ⟨config, hconfig⟩ : ∃ config, ln.node.kind.config? = some config := by
    obtain ⟨dev, -, -, -, -, -, -, hk, -⟩ := hln
    rwa [NodeKind.isLogicalNode_eq, Option.isSome_iff_exists] at hk
  rw [Fcda.objectNames, hname] at ho
  obtain ⟨type, htype, hreg, hgrown⟩ :=
    memberType?_of_reachesVia hr h hln.stands hconfig ho
  refine memberExists_of_node h.lawful hd hln hconfig hname htype fun leaf hleaf => ?_
  rw [Fcda.leafNames, hleaf] at hc
  exact hasAttribute_of_reachesVia h.lawful hr hreg hgrown hc

end Model

/-- **What the check of members says.** An error is reported for exactly the members of data sets
that the check does not accept. A member that it accepts names data objects and then attributes of
the model, up to an attribute that is not expanded, or it names a data object that was taken back.
A member that names data objects and then attributes of the model is accepted, if names tell
definitions and logical nodes apart. -/
theorem members_checked {d : Document} {ied : String} {ap : Option String} {ro : ResolveOptions}
    {res : Resolution} (h : resolve d ied ap ro = .ok res) :
    (∀ set member, .finding (.unknownMember set member) ∈ res.journal ↔ ro.checkMembers ∧
      ∃ f, res.model.Lists set f ∧ f.reference = member ∧
        memberExists d.registry res.model f = false) ∧
    (∀ set f, ro.checkMembers → res.model.Lists set f →
      memberExists d.registry res.model f = false →
      (Finding.unknownMember set f.reference).issue ∈ res.issues.errors) ∧
    (∀ f, memberExists d.registry res.model f → ∃ ln, f.MeansNode res.model ln ∧ f.doName ≠ none ∧
      ((∃ o, ln.ReachesVia NodeKind.isObject f.objectNames o ∧
        ((∃ c, o.ReachesVia NodeKind.isLeaf f.leafNames c) ∨ o.StopsAt f.leafNames)) ∨
      TakenBack d.registry ro.maxDepth ln f)) ∧
    (d.registry.Distinct → res.model.NodesDistinct →
      ∀ (f : Fcda) (ln o c : Branch), f.MeansNode res.model ln → f.doName ≠ none →
        ln.ReachesVia NodeKind.isObject f.objectNames o →
        o.ReachesVia NodeKind.isLeaf f.leafNames c → memberExists d.registry res.model f) := by
  obtain ⟨i, a, -, -, hstage⟩ := Resolution.stage_of_resolve h
  obtain ⟨i', a', -, -, rfl⟩ := Resolution.exists_of_resolve h
  have hjournal := Resolution.unknownMember_mem_journal_iff d ro i' a'
  have hlisted (set member : String) :
      .unknownMember set member ∈ memberFindings d.registry _ ↔ _ :=
    mem_memberFindings hstage.lawful
  refine ⟨fun set member => (hjournal set member).trans (and_congr_right' (hlisted set member)),
    fun set f hcheck hset hnot => ?_, fun f => leads_of_memberExists hstage, fun hr hd f ln o c =>
    memberExists_of_leads hstage hr hd⟩
  have hmem := (hlisted set f.reference).mpr ⟨f, hset, rfl, hnot⟩
  exact mem_errors_of_finding ((hjournal set f.reference).mpr ⟨hcheck, hmem⟩) rfl

/-- A member of a logical node of class `GGIO`. -/
def inputMember (lnInst object : String) (leaf : Option String) : Fcda :=
  { ldInst := some "LD", lnClass := some "GGIO", lnInst := some lnInst, doName := some object,
    daName := leaf, fc := "ST" }

/-- A logical node of class `GGIO` with a data set. -/
def inputNode (lnType inst : String) (members : List Fcda) : LogicalNode :=
  ⟨"GGIO", lnType, inst, none, none, [⟨"Set", members⟩], [], [], [], [], [], [], none⟩

/-- An IED with these logical devices, each of the instance name `LD`. -/
def inputIed (devices : List (List LogicalNode)) : Ied :=
  ⟨"E", none, none, none, [⟨"A", some ⟨devices.map fun lns => ⟨"LD", none, none, none, lns⟩⟩⟩]⟩

/-- A logical node with a member that names a nested attribute and one that names no attribute. -/
def nestedInputNode : LogicalNode :=
  inputNode "L" "1"
    [inputMember "1" "Mod" (some "origin.q"), inputMember "1" "Mod" (some "origin.x")]

/-- A document with that logical node. -/
def inputDocument : Document :=
  ⟨⟨none, none, none, none, none, [inputIed [[nestedInputNode]]], none⟩, nestedTypes, []⟩

/-- The resolution of that document. -/
def inputResolution : Resolution :=
  .ofAccessPoint inputDocument { checkNamespaces := false } (inputIed [[nestedInputNode]])
    ⟨"A", some ⟨[⟨"LD", none, none, none, [nestedInputNode]⟩]⟩⟩

theorem node?_inputResolution : ∃ n, inputResolution.model.node? 1 = some n ∧
    n.kind = .logicalNode nestedInputNode none :=
  ⟨_, rfl, rfl⟩

theorem distinct_nestedTypes : nestedTypes.Distinct :=
  ⟨by decide, by decide, by decide, by decide, by decide⟩

/-- The first member is accepted, the second one is reported. -/
theorem members_checked_input : ∃ res f ln o c,
    resolve inputDocument "E" none { checkNamespaces := false } = .ok res ∧
      res.model.NodesDistinct ∧ f.MeansNode res.model ln ∧ f.doName ≠ none ∧
      ln.ReachesVia NodeKind.isObject f.objectNames o ∧
      o.ReachesVia NodeKind.isLeaf f.leafNames c ∧ c.ref = "ELD/GGIO1.Mod.origin.q" ∧
      memberExists nestedTypes res.model f ∧ (Finding.unknownMember "ELD/GGIO1.Set"
        "LD/GGIO1.Mod.origin.x").issue ∈ res.issues.errors := by
  let known := inputMember "1" "Mod" (some "origin.q")
  let unknown := inputMember "1" "Mod" (some "origin.x")
  have hres : resolve inputDocument "E" none { checkNamespaces := false } = .ok inputResolution :=
    rfl
  obtain ⟨i, a, -, -, hstage⟩ := Resolution.stage_of_resolve hres
  have hdistinct : inputResolution.model.NodesDistinct := ⟨by decide +kernel, by decide +kernel⟩
  have hpath : ∃ ln ∈ known.nodes inputResolution.model, ln.ref = "ELD/GGIO1" ∧ ln.id = 1 ∧
      ∃ o ∈ ln.ends NodeKind.isObject known.objectNames,
        ∃ c ∈ o.ends NodeKind.isLeaf known.leafNames, c.ref = "ELD/GGIO1.Mod.origin.q" := by
    decide +kernel
  obtain ⟨ln, hln, href, hid, o, ho, c, hc, hcref⟩ := hpath
  have hmeans := (Fcda.mem_nodes hstage.lawful).mp hln
  have hconfig : ln.node.kind.config? = some nestedInputNode := by
    obtain ⟨n, hn, hkind⟩ := node?_inputResolution
    rw [Option.some.inj (hmeans.stands.node?.symm.trans (hid ▸ hn)), hkind]
    rfl
  have hset : inputResolution.model.Lists "ELD/GGIO1.Set" unknown :=
    ⟨ln, nestedInputNode, _, hmeans.stands, hconfig, List.mem_cons_self,
      List.mem_cons_of_mem _ List.mem_cons_self, by rw [href]; decide⟩
  obtain ⟨-, herrors, -, haccepted⟩ := members_checked hres
  have ho := Branch.mem_ends.mp ho
  have hc := Branch.mem_ends.mp hc
  have hname : known.doName ≠ none := Option.some_ne_none _
  have hknown := haccepted distinct_nestedTypes hdistinct known ln o c hmeans hname ho hc
  have hunknown := herrors _ unknown rfl hset (by decide +kernel)
  exact ⟨inputResolution, known, ln, o, c, hres, hdistinct, hmeans, hname, ho, hc, hcref, hknown,
    hunknown⟩

/-- Types with what the check of members and the expansion see differently: a data object named
twice, one of a type in a circle, an attribute in a data object of its name, and an attribute
without a type id beside a type without an id. -/
def unevenTypes : Registry where
  nodeTypes := ⟨[("K", ⟨"K", "GGIO", [⟨"Hz", "N", 0, false⟩]⟩),
    ("L", ⟨"L", "GGIO",
      [⟨"Mod", "M", 0, false⟩, ⟨"Mod", "N", 0, false⟩, ⟨"Loop", "C", 0, false⟩]⟩)]⟩
  objectTypes := ⟨[("C", ⟨"C", "WYE", [⟨"sub", "C", 0, false⟩], []⟩),
    ("M", ⟨"M", "ENC", [], [⟨"q", .st, .quality, none, 0, {}, none, []⟩,
      ⟨"Mod", .st, .constructed, some "O", 0, {}, none, []⟩,
      ⟨"anon", .st, .constructed, none, 0, {}, none, []⟩]⟩),
    ("N", ⟨"N", "ENC", [], [⟨"x", .st, .int32, none, 0, {}, none, []⟩]⟩)]⟩
  attributeTypes := ⟨[("", ⟨"", [⟨"q", .none, .int32, none, 0, {}, none, []⟩]⟩),
    ("O", ⟨"O", [⟨"q", .none, .int32, none, 0, {}, none, []⟩]⟩)]⟩

/-- Members of a data object that was taken back and of an attribute that is not expanded. -/
def membersWithoutNode : List Fcda :=
  [inputMember "1" "Loop" none, inputMember "1" "Mod" (some "Mod.q")]

/-- Members that lead to a node: through an attribute in the place of a data object, through the
second data object of a name, through a type without an id, and through the second logical node and
the second logical device of a name. -/
def membersWithNode : List Fcda :=
  [inputMember "1" "Mod.q" none, inputMember "1" "Mod" (some "x"),
    inputMember "1" "Mod" (some "anon.q"), inputMember "1" "Hz" none,
    inputMember "2" "Mod" (some "q")]

/-- The logical nodes of two logical devices, one of which has these members. -/
def unevenDevices : List (List LogicalNode) :=
  [[inputNode "L" "1" (membersWithoutNode ++ membersWithNode), inputNode "K" "1" []],
    [inputNode "L" "2" []]]

/-- A document with these logical devices and types. -/
def unevenDocument : Document :=
  ⟨⟨none, none, none, none, none, [inputIed unevenDevices], none⟩, unevenTypes, []⟩

/-- The check and the model disagree about these members, in both directions. -/
theorem check_differs_from_model : ∃ res,
    resolve unevenDocument "E" none { maxDepth := 3, checkNamespaces := false } = .ok res ∧
      (∀ f ∈ membersWithoutNode, memberExists unevenTypes res.model f ∧ ¬ f.Leads res.model) ∧
      ∀ f ∈ membersWithNode, memberExists unevenTypes res.model f = false ∧ f.Leads res.model := by
  let res := Resolution.ofAccessPoint unevenDocument { maxDepth := 3, checkNamespaces := false }
    (inputIed unevenDevices)
    ⟨"A", some ⟨unevenDevices.map fun lns => ⟨"LD", none, none, none, lns⟩⟩⟩
  have hres : resolve unevenDocument "E" none { maxDepth := 3, checkNamespaces := false } =
      .ok res := rfl
  obtain ⟨i, a, -, -, hstage⟩ := Resolution.stage_of_resolve hres
  have hcheck : (∀ f ∈ membersWithoutNode, memberExists unevenTypes res.model f ∧
        ¬ ∃ ln ∈ f.nodes res.model,
          ln.ends (fun _ => true) (f.objectNames ++ f.leafNames) ≠ []) ∧
      ∀ f ∈ membersWithNode, memberExists unevenTypes res.model f = false ∧
        ∃ ln ∈ f.nodes res.model,
          ln.ends (fun _ => true) (f.objectNames ++ f.leafNames) ≠ [] := by
    decide +kernel
  refine ⟨res, hres, ?_⟩
  simp only [Fcda.leads_iff hstage.lawful]
  exact hcheck

end Substation
