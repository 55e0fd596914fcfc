import Mathlib.Data.List.Basic
import Mathlib.Tactic.Common
import Substation.Proofs.DeviceSpaces

/-!
# Configuration revisions

The name plate of an `LLN0` has to say which revision of the configuration its logical device has.
A type that declares the attribute is enough, whether or not a value is configured for it
(`DeclaresRevision`). Only where the type does not declare it is the configured value looked at: it
may be missing (`LacksRevision`) or empty (`EmptyRevision`), and each of the two has an error of its
own (`revisions_checked`).

Results:
* `revisions_checked` (`check_config_rev`): when the revision is reported as missing, and when as
  empty;
* `declared_revision_not_reported`: one that is declared only.
-/

namespace Substation

open Substation.Config
open Substation.Journal
open Substation.Model
open Substation.Resolution
open Substation.Template

namespace Model

variable {ln : Branch} {config : LogicalNode} {inst : String} {f : Finding}

/-- The type of the name plate declares the revision. -/
def DeclaresRevision (ln : Branch) : Prop :=
  ∃ type, plateType? ln = some type ∧ ∃ a ∈ type.leaves, a.name = "configRev"

/-- The revision is neither declared nor configured. -/
def LacksRevision (ln : Branch) (config : LogicalNode) : Prop :=
  ¬ DeclaresRevision ln ∧ plateLeaf? config "configRev" = none

/-- The revision is not declared, and configured without a value or with an empty one. -/
def EmptyRevision (ln : Branch) (config : LogicalNode) : Prop :=
  ¬ DeclaresRevision ln ∧ ∃ dai, plateLeaf? config "configRev" = some dai ∧
    ∀ v, dai.values.head? = some v → v.text = ""

/-- The error that there is no revision. -/
def noRevisionIssue (ref inst : String) : Issue :=
  ⟨.error, modelIntegrity, "DA or DAI LLN0.NamPlt.configRev not found on LD " ++ inst, ref⟩

/-- The error that the revision has no value. -/
def emptyRevisionIssue (ref inst : String) : Issue :=
  ⟨.error, modelIntegrity,
    "DAI LLN0.NamPlt.configRev found on LD " ++ inst ++ " but has no value", ref⟩

theorem declaresRevision_iff (ln : Branch) :
    ((namePlate? ln).bind (·.leaf? "configRev")).isSome ↔ DeclaresRevision ln := by
  show ((plateType? ln).bind _).isSome ↔ _
  unfold DeclaresRevision
  cases plateType? ln with
  | none => simp
  | some type => simp [ObjectType.leaf?, List.find?_isSome]

theorem isSome_filledValue?_iff (dai : Dai) :
    (filledValue? dai).isSome = false ↔ ∀ v, dai.values.head? = some v → v.text = "" := by
  unfold filledValue? Dai.value?
  cases dai.values.head? with
  | none => simp
  | some v => simp [Option.filter]

/-- **What is found about the revision**, in terms of the name plate. -/
theorem mem_configRevFindings (hconfig : ln.node.kind.config? = some config) :
    f ∈ configRevFindings inst ln ↔ f = .noConfigRev ln.ref inst ∧ LacksRevision ln config ∨
      f = .emptyConfigRev ln.ref inst ∧ EmptyRevision ln config := by
  unfold configRevFindings LacksRevision EmptyRevision
  rw [hconfig]
  simp only
  by_cases hdeclared : DeclaresRevision ln
  · rw [if_pos ((declaresRevision_iff ln).mpr hdeclared)]
    simp [hdeclared]
  · rw [if_neg (mt (declaresRevision_iff ln).mp hdeclared),
      show plateInstance? config "configRev" = plateLeaf? config "configRev" from rfl]
    cases plateLeaf? config "configRev" with
    | none => simp [hdeclared]
    | some dai =>
      have hfilled := isSome_filledValue?_iff dai
      cases hvalue : (filledValue? dai).isSome with
      | false => simpa [hdeclared, hvalue] using fun _ => hfilled.mp hvalue
      | true =>
        have hnot : ¬ ∀ v, dai.values.head? = some v → v.text = "" := by
          rw [← hfilled, hvalue]
          exact Bool.noConfusion
        simpa [hdeclared, hvalue] using fun _ => hnot

theorem noRevisionIssue_inj {ref ref' inst inst' : String}
    (h : noRevisionIssue ref inst = noRevisionIssue ref' inst') : ref = ref' ∧ inst = inst' := by
  simpa [noRevisionIssue, and_comm] using h

theorem emptyRevisionIssue_inj {ref ref' inst inst' : String}
    (h : emptyRevisionIssue ref inst = emptyRevisionIssue ref' inst') :
    ref = ref' ∧ inst = inst' := by
  simpa [emptyRevisionIssue, and_comm] using h

theorem noRevisionIssue_ne (ref inst ref' inst' : String) :
    noRevisionIssue ref inst ≠ emptyRevisionIssue ref' inst' := by
  intro h
  have hthird := congrArg (fun i : Issue => i.message.toList[2]?) h
  simp [noRevisionIssue, emptyRevisionIssue] at hthird

theorem isPrefix_noRevisionIssue (ref inst : String) :
    ['D', 'A', ' '] <+: (noRevisionIssue ref inst).message.toList := by
  simp [noRevisionIssue]

theorem isPrefix_emptyRevisionIssue (ref inst : String) :
    ['D', 'A', 'I'] <+: (emptyRevisionIssue ref inst).message.toList := by
  simp [emptyRevisionIssue]

end Model

namespace Resolution

variable {r : Registry} {o : ResolveOptions} {dev ln : Branch} {config : LogicalNode}
  {inst : String}

/-- What is said about the revision on the name plate of a logical node. -/
theorem exists_revision_iff (hconfig : ln.node.kind.config? = some config)
    (hrev : o.checkConfigRev) (device : String) {i : Issue} :
    (∃ f, (f ∈ plateFindings o inst device ln ∧ f.topic = .revision) ∧ f.issue = i) ↔
      config.lnClass = "LLN0" ∧ (i = noRevisionIssue ln.ref inst ∧ LacksRevision ln config ∨
        i = emptyRevisionIssue ln.ref inst ∧ EmptyRevision ln config) := by
  simp only [mem_plateFindings_revision hconfig, mem_configRevFindings hconfig, hrev, true_and]
  constructor
  · rintro ⟨f, ⟨hclass, ⟨rfl, hlacks⟩ | ⟨rfl, hempty⟩⟩, rfl⟩
    · exact ⟨hclass, Or.inl ⟨rfl, hlacks⟩⟩
    · exact ⟨hclass, Or.inr ⟨rfl, hempty⟩⟩
  · rintro ⟨hclass, ⟨rfl, hlacks⟩ | ⟨rfl, hempty⟩⟩
    · exact ⟨_, ⟨hclass, Or.inl ⟨rfl, hlacks⟩⟩, rfl⟩
    · exact ⟨_, ⟨hclass, Or.inr ⟨rfl, hempty⟩⟩, rfl⟩

/-- Of what the check of a logical node finds, only what it finds about the revision reads so. -/
theorem mem_map_issue_check {device : String} {opening : List Char}
    (hopening : opening ∈ Topic.openings .revision) {i : Issue}
    (hi : opening <+: i.message.toList) :
    i ∈ (instanceFindings r ln ++ plateFindings o inst device ln).map Finding.issue ↔
      ∃ f, (f ∈ plateFindings o inst device ln ∧ f.topic = .revision) ∧ f.issue = i := by
  rw [List.mem_map]
  constructor
  · rintro ⟨f, hf, rfl⟩
    have htopic : f.topic = .revision := by
      refine topic_eq_of_isPrefix ?_ (by decide) hopening hi
      rcases List.mem_append.mp hf with hf | hf
      · simp [topic_instanceFindings hf, resolutionTopics, builtTopics, nodeTopics]
      · rcases topic_plateFindings hf with h | h <;>
          simp [h, resolutionTopics, builtTopics, nodeTopics]
    rcases List.mem_append.mp hf with hf | hf
    · simp [topic_instanceFindings hf] at htopic
    · exact ⟨f, ⟨hf, htopic⟩, rfl⟩
  · rintro ⟨f, ⟨hf, -⟩, rfl⟩
    exact ⟨f, List.mem_append_right _ hf, rfl⟩

/-- The log has an error about a revision if and only if it was found for one of the logical
nodes. -/
theorem mem_issues_iff_revision {d : Document} {ied : String} {ap : Option String}
    {res : Resolution} (h : resolve d ied ap o = .ok res) (hrev : o.checkConfigRev)
    {opening : List Char} (hopening : opening ∈ Topic.openings .revision) {i : Issue}
    (hi : opening <+: i.message.toList) : i ∈ res.issues.issues ↔
      ∃ dev inst ln config, Branch.IsNodeOf res.model dev inst ln config ∧
        config.lnClass = "LLN0" ∧ (i = noRevisionIssue ln.ref inst ∧ LacksRevision ln config ∨
          i = emptyRevisionIssue ln.ref inst ∧ EmptyRevision ln config) := by
  rw [mem_issues_iff_of_isPrefix h (by decide) hopening hi]
  refine exists_congr fun dev => exists_congr fun inst => exists_congr fun ln =>
    exists_congr fun config => and_congr_right fun hnode => ?_
  exact exists_revision_iff hnode.config hrev dev.name

theorem noRevisionIssue_mem_errors_iff {d : Document} {ied : String} {ap : Option String}
    {res : Resolution} (h : resolve d ied ap o = .ok res) (hrev : o.checkConfigRev)
    (ref inst : String) : noRevisionIssue ref inst ∈ res.issues.errors ↔
      ∃ dev ln config, Branch.IsNodeOf res.model dev inst ln config ∧ config.lnClass = "LLN0" ∧
        ln.ref = ref ∧ LacksRevision ln config := by
  have herror : (noRevisionIssue ref inst).severity = .error := rfl
  rw [IssueLog.errors, IssueLog.mem_ofSeverity_iff herror,
    mem_issues_iff_revision h hrev (by decide) (isPrefix_noRevisionIssue ref inst)]
  constructor
  · rintro ⟨dev, inst', ln, config, hnode, hclass, ⟨heq, hlacks⟩ | ⟨heq, -⟩⟩
    · obtain ⟨rfl, rfl⟩ := noRevisionIssue_inj heq
      exact ⟨dev, ln, config, hnode, hclass, rfl, hlacks⟩
    · exact absurd heq (noRevisionIssue_ne _ _ _ _)
  · rintro ⟨dev, ln, config, hnode, hclass, rfl, hlacks⟩
    exact ⟨dev, inst, ln, config, hnode, hclass, Or.inl ⟨rfl, hlacks⟩⟩

theorem emptyRevisionIssue_mem_errors_iff {d : Document} {ied : String} {ap : Option String}
    {res : Resolution} (h : resolve d ied ap o = .ok res) (hrev : o.checkConfigRev)
    (ref inst : String) : emptyRevisionIssue ref inst ∈ res.issues.errors ↔
      ∃ dev ln config, Branch.IsNodeOf res.model dev inst ln config ∧ config.lnClass = "LLN0" ∧
        ln.ref = ref ∧ EmptyRevision ln config := by
  have herror : (emptyRevisionIssue ref inst).severity = .error := rfl
  rw [IssueLog.errors, IssueLog.mem_ofSeverity_iff herror,
    mem_issues_iff_revision h hrev (by decide) (isPrefix_emptyRevisionIssue ref inst)]
  constructor
  · rintro ⟨dev, inst', ln, config, hnode, hclass, ⟨heq, -⟩ | ⟨heq, hvalue⟩⟩
    · exact absurd heq.symm (noRevisionIssue_ne _ _ _ _)
    · obtain ⟨rfl, rfl⟩ := emptyRevisionIssue_inj heq
      exact ⟨dev, ln, config, hnode, hclass, rfl, hvalue⟩
  · rintro ⟨dev, ln, config, hnode, hclass, rfl, hvalue⟩
    exact ⟨dev, inst, ln, config, hnode, hclass, Or.inr ⟨rfl, hvalue⟩⟩

end Resolution

/-- **The revision of the configuration is checked.** The check of an `LLN0` reports that the
revision is missing if it is neither declared by the type of the name plate nor configured, and that
it has no value if it is configured without one and not declared by the type. The log of a
resolution has these errors for the logical nodes of its model and no others. -/
theorem revisions_checked :
    (∀ (r : Registry) (o : ResolveOptions) (g : Growth) (dev ln : Branch) (inst : String)
      (config : LogicalNode), o.checkConfigRev → dev.Stands g.model → ln ∈ dev.branches →
      ln.node.kind.config? = some config → config.lnClass = "LLN0" →
      ∃ fs : List Finding,
        (checkNode r o inst dev.id ln.id config g).journal.toList =
          g.journal.toList ++ fs.map .finding ∧
        (noRevisionIssue ln.ref inst ∈ fs.map Finding.issue ↔ LacksRevision ln config) ∧
        (emptyRevisionIssue ln.ref inst ∈ fs.map Finding.issue ↔ EmptyRevision ln config)) ∧
    ∀ (d : Document) (ied : String) (ap : Option String) (o : ResolveOptions) (res : Resolution),
      resolve d ied ap o = .ok res → o.checkConfigRev → ∀ ref inst,
      (noRevisionIssue ref inst ∈ res.issues.errors ↔
        ∃ dev ln config, Branch.IsNodeOf res.model dev inst ln config ∧ config.lnClass = "LLN0" ∧
          ln.ref = ref ∧ LacksRevision ln config) ∧
      (emptyRevisionIssue ref inst ∈ res.issues.errors ↔
        ∃ dev ln config, Branch.IsNodeOf res.model dev inst ln config ∧ config.lnClass = "LLN0" ∧
          ln.ref = ref ∧ EmptyRevision ln config) := by
  constructor
  · intro r o g dev ln inst config hrev hdev hln hconfig hclass
    refine ⟨instanceFindings r ln ++ plateFindings o inst dev.name ln, ?_, ?_, ?_⟩
    · rw [checkNode_eq hdev hln hconfig]
      exact Array.toList_appendList
    · rw [mem_map_issue_check (by decide) (isPrefix_noRevisionIssue _ _),
        exists_revision_iff hconfig hrev]
      simp [hclass, noRevisionIssue_ne]
    · rw [mem_map_issue_check (by decide) (isPrefix_emptyRevisionIssue _ _),
        exists_revision_iff hconfig hrev]
      simp [hclass, (noRevisionIssue_ne _ _ _ _).symm]
  · intro d ied ap o res h hrev ref inst
    exact ⟨noRevisionIssue_mem_errors_iff h hrev ref inst,
      emptyRevisionIssue_mem_errors_iff h hrev ref inst⟩

/-- Two types of name plates, one with the revision and one without it. -/
def revisionTypes : Registry where
  nodeTypes := ⟨[("L", ⟨"L", "LLN0", [⟨"NamPlt", "N", 0, false⟩]⟩),
    ("M", ⟨"M", "LLN0", [⟨"NamPlt", "O", 0, false⟩]⟩)]⟩
  objectTypes := ⟨[("N", ⟨"N", "LPL", [],
    [⟨"configRev", .dc, .visibleString255, none, 0, {}, none, []⟩]⟩), ("O", ⟨"O", "LPL", [], []⟩)]⟩

/-- A logical node of a type, with a revision that has no value. -/
def revisionNode (type : String) : LogicalNode :=
  ⟨"LLN0", type, "", none, none, [], [], [],
    [⟨"NamPlt", none, [], [⟨"configRev", none, none, []⟩]⟩], [], [], [], none⟩

/-- A document with that logical node. -/
def revisionDocument (type : String) : Document :=
  ⟨⟨none, none, none, none, none, [⟨"E", none, none, none,
    [⟨"A", some ⟨[⟨"LD", none, none, some (revisionNode type), []⟩]⟩⟩]⟩], none⟩, revisionTypes, []⟩

/-- The entry without a value is reported where the type does not declare the revision. -/
theorem revisions_checked_undeclared : ∃ res dev ln config,
    resolve (revisionDocument "M") "E" none {} = .ok res ∧
      Branch.IsNodeOf res.model dev "LD" ln config ∧ config.lnClass = "LLN0" ∧
      ln.ref = "ELD/LLN0" ∧ EmptyRevision ln config ∧
      emptyRevisionIssue "ELD/LLN0" "LD" ∈ res.issues.errors := by
  have hresolve : ∃ res, resolve (revisionDocument "M") "E" none {} = .ok res ∧
      res.model.inst? 0 = some "LD" ∧
      (res.model.branch? 0).any fun dev => dev.branches.any fun ln =>
        ln.node.kind.config?.any fun config => config.lnClass = "LLN0" ∧ ln.ref = "ELD/LLN0" ∧
          ((namePlate? ln).bind (·.leaf? "configRev")).isSome = false ∧
          plateLeaf? config "configRev" = some ⟨"configRev", none, none, []⟩ :=
    ⟨_, rfl, by decide +kernel, by decide +kernel⟩
  obtain ⟨res, hres, hinst, hcheck⟩ := hresolve
  obtain ⟨i, a, -, -, hstage⟩ := stage_of_resolve hres
  obtain ⟨dev, ln, config, hnode, hcheck⟩ :=
    Branch.exists_isNodeOf hstage.lawful.forest hinst hcheck
  obtain ⟨hclass, href, hdeclared, hentry⟩ := of_decide_eq_true hcheck
  have hempty : EmptyRevision ln config := by
    refine ⟨?_, _, hentry, by simp⟩
    rw [← declaresRevision_iff, hdeclared]
    exact Bool.false_ne_true
  refine ⟨res, dev, ln, config, hres, hnode, hclass, href, hempty, ?_⟩
  exact (revisions_checked.2 _ "E" none {} res hres rfl "ELD/LLN0" "LD").2.mpr
    ⟨dev, ln, config, hnode, hclass, href, hempty⟩

/-- It is not reported where the type declares the revision. -/
theorem declared_revision_not_reported : ∃ res dev ln config,
    resolve (revisionDocument "L") "E" none {} = .ok res ∧
      Branch.IsNodeOf res.model dev "LD" ln config ∧ config.lnClass = "LLN0" ∧
      ln.ref = "ELD/LLN0" ∧
      plateLeaf? config "configRev" = some ⟨"configRev", none, none, []⟩ ∧
      emptyRevisionIssue "ELD/LLN0" "LD" ∉ res.issues.errors := by
  have hresolve : ∃ res, resolve (revisionDocument "L") "E" none {} = .ok res ∧
      res.model.inst? 0 = some "LD" ∧
      ((res.model.branch? 0).any fun dev => dev.branches.any fun ln =>
        ln.node.kind.config?.any fun config => config.lnClass = "LLN0" ∧ ln.ref = "ELD/LLN0" ∧
          plateLeaf? config "configRev" = some ⟨"configRev", none, none, []⟩) ∧
      emptyRevisionIssue "ELD/LLN0" "LD" ∉ res.issues.errors :=
    ⟨_, rfl, by decide +kernel, by decide +kernel, by decide +kernel⟩
  obtain ⟨res, hres, hinst, hcheck, herrors⟩ := hresolve
  obtain ⟨i, a, -, -, hstage⟩ := stage_of_resolve hres
  obtain ⟨dev, ln, config, hnode, hcheck⟩ :=
    Branch.exists_isNodeOf hstage.lawful.forest hinst hcheck
  obtain ⟨hclass, href, hentry⟩ := of_decide_eq_true hcheck
  exact ⟨res, dev, ln, config, hres, hnode, hclass, href, hentry, herrors⟩

end Substation
