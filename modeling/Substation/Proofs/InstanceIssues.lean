import Mathlib.Data.List.Basic
import Mathlib.Tactic.Common
import Substation.Proofs.CheckedValues
import Substation.Proofs.Repetitions

/-!
# The issues about instance values

The values of a logical node stand in a tree, and the check of them walks through that tree with the
path to where it is. What it finds is determined by the places of the values alone: `Doi.placed`
lists the values in document order, each with the nested parts around it, and `placeIssues` gives
the issues about the values at one place. The check of a logical node reports these issues one after
the other, each place once and with its own path (`instance_issues`), and its part of the journal is
in one piece.

Results:
* `instance_issues` (`validate_logical_node`, `validate_sdi`): the issues about a logical node, in
  order and with their paths.
-/

namespace Substation

open Substation.Config
open Substation.Journal
open Substation.Model
open Substation.Template

/-! ## Document order -/

namespace Config

mutual

/-- The values of a nested part in document order: those directly in it come before those of the
parts nested further. Each stands with the parts around it, the outermost first. -/
def Sdi.placed : Sdi → List (List Sdi × Dai)
  | s@(.mk _ _ nested leaves) =>
    leaves.map ([s], ·) ++ (Sdi.allPlaced nested).map fun place => (s :: place.1, place.2)

/-- The values of several nested parts, one part after the other. -/
def Sdi.allPlaced : List Sdi → List (List Sdi × Dai)
  | [] => []
  | s :: rest => s.placed ++ Sdi.allPlaced rest

end

/-- The values of a data object in document order; those directly in it have no parts around. -/
def Doi.placed (doi : Doi) : List (List Sdi × Dai) :=
  doi.leaves.map ([], ·) ++ Sdi.allPlaced doi.nested

/-- The part as it is reported: its name, with the element of an array that is meant. -/
def Sdi.label (s : Sdi) : String := stepLabel s.name s.index

end Config

/-! ## The issues of one place -/

namespace Model

variable (r : Registry) (ln : Branch)

/-- The issues about the values that are bound to an attribute: one for each that does not fit. -/
def valueIssues (leaf : Branch) (dai : Dai) : List Issue :=
  match leaf.node.kind with
  | .leaf _ a => dai.values.filterMap fun v => (valueFault? r a v.text).map fun fault =>
      { severity := .error, message := fault.message leaf.ref, object := leaf.ref }
  | _ => []

/-- Whether the first data object of a name has an attribute of a name at some depth. -/
def hasLeaf (object name : String) : Bool :=
  (ln.child? object).any fun top => top.descendants.any fun b => b.node.kind.isLeaf ∧ b.name = name

/-- The issue that there is no attribute for the values inside the parts `chain`. -/
def unboundIssue (chain : List Sdi) (dai : Dai) : Issue where
  severity := .error
  message :=
    if chain = [] then
      "There is no DataAttribute definition for DAI " ++ dai.name ++ " on LogicalNode " ++ ln.ref
    else
      "There is no SubDataAttribute for DAI " ++ ".".intercalate (chain.map Sdi.label) ++
        " on LogicalNode " ++ ln.ref
  object := ln.ref

/-- The issues about the values inside the parts `chain` of a data object. -/
def placeIssues (doi : Doi) (chain : List Sdi) (dai : Dai) : List Issue :=
  match bind? ln (doi.name :: chain.map Sdi.name ++ [dai.name]) with
  | some leaf => valueIssues r leaf dai
  | none => if chain ≠ [] ∧ hasLeaf ln doi.name dai.name then [] else [unboundIssue ln chain dai]

/-- The issues about all values of a logical node, in document order. -/
def nodeIssues (config : LogicalNode) : List Issue :=
  config.instances.flatMap fun doi =>
    doi.placed.flatMap fun (chain, dai) => placeIssues r ln doi chain dai

variable {r : Registry} {ln : Branch} {doi : Doi}

/-! ## The walk through the tree -/

mutual

/-- The check of a nested part that is reached by `path` finds what there is to be found at each
place in the part, with the path continued to that place. -/
theorem nestedFindings_eq (path labels : List String) : ∀ s : Sdi,
    nestedFindings r ln doi path labels s = s.placed.flatMap fun (chain, dai) =>
      nestedLeafFindings r ln (path ++ chain.map Sdi.name)
        (".".intercalate (labels ++ chain.map Sdi.label)) doi dai
  | .mk name index nested leaves => by
    rw [nestedFindings, Sdi.placed, List.flatMap_append, List.flatMap_map, List.flatMap_map]
    refine congrArg₂ (· ++ ·) rfl ?_
    rw [allNestedFindings_eq]
    simp only [List.map_cons, List.append_assoc, List.singleton_append]
    rfl

theorem allNestedFindings_eq (path labels : List String) : ∀ ss : List Sdi,
    allNestedFindings r ln doi path labels ss = (Sdi.allPlaced ss).flatMap fun (chain, dai) =>
      nestedLeafFindings r ln (path ++ chain.map Sdi.name)
        (".".intercalate (labels ++ chain.map Sdi.label)) doi dai
  | [] => rfl
  | s :: rest => by
    rw [allNestedFindings, Sdi.allPlaced, List.flatMap_append, nestedFindings_eq,
      allNestedFindings_eq]

end

mutual

/-- What stands in a part has that part around it. -/
theorem ne_nil_of_mem_placed {place : List Sdi × Dai} : ∀ {s : Sdi}, place ∈ s.placed →
    place.1 ≠ []
  | .mk name index nested leaves, h => by
    rw [Sdi.placed, List.mem_append, List.mem_map, List.mem_map] at h
    rcases h with ⟨dai, -, rfl⟩ | ⟨inner, -, rfl⟩ <;> exact List.cons_ne_nil _ _

theorem ne_nil_of_mem_allPlaced {place : List Sdi × Dai} : ∀ {ss : List Sdi},
    place ∈ Sdi.allPlaced ss → place.1 ≠ []
  | s :: rest, h => by
    rw [Sdi.allPlaced, List.mem_append] at h
    exact h.elim ne_nil_of_mem_placed ne_nil_of_mem_allPlaced

end

/-! ## The issues of each place -/

theorem map_issue_valueFindings (leaf : Branch) (dai : Dai) :
    (valueFindings r leaf dai).map Finding.issue = valueIssues r leaf dai := by
  unfold valueFindings valueIssues
  cases leaf.node.kind with
  | leaf fc a =>
    rw [List.map_filterMap]
    refine congrArg (List.filterMap · dai.values) (funext fun v => ?_)
    rw [Option.map_map]
    rfl
  | _ => rfl

theorem isSome_leafNamed? (object name : String) :
    (leafNamed? ln object name).isSome = hasLeaf ln object name := by
  rw [leafNamed?, hasLeaf, Option.isSome_bind]
  refine congrArg (Option.any · _) (funext fun top => ?_)
  rw [Bool.eq_iff_iff, List.find?_isSome, List.any_eq_true]

/-- What is found about values directly in a data object. -/
theorem map_issue_directFindings (dai : Dai) :
    (directFindings r ln doi dai).map Finding.issue = placeIssues r ln doi [] dai := by
  unfold directFindings placeIssues
  rw [List.map_nil, List.singleton_append]
  cases bind? ln [doi.name, dai.name] with
  | some leaf => exact map_issue_valueFindings leaf dai
  | none => rfl

/-- What is found about values in a nested part. -/
theorem map_issue_nestedLeafFindings {chain : List Sdi} (hchain : chain ≠ []) (dai : Dai) :
    (nestedLeafFindings r ln (chain.map Sdi.name) (".".intercalate (chain.map Sdi.label)) doi
      dai).map Finding.issue = placeIssues r ln doi chain dai := by
  unfold nestedLeafFindings placeIssues
  cases bind? ln (doi.name :: chain.map Sdi.name ++ [dai.name]) with
  | some leaf => exact map_issue_valueFindings leaf dai
  | none =>
    simp only [← isSome_leafNamed?, unboundIssue, if_neg hchain]
    cases leafNamed? ln doi.name dai.name with
    | some found => exact (if_pos ⟨hchain, rfl⟩).symm
    | none => exact (if_neg fun h => Bool.false_ne_true h.2).symm

theorem map_issue_objectFindings (doi : Doi) : (objectFindings r ln doi).map Finding.issue =
    doi.placed.flatMap fun (chain, dai) => placeIssues r ln doi chain dai := by
  rw [objectFindings, Doi.placed, allNestedFindings_eq, List.map_append, List.flatMap_append,
    List.map_flatMap, List.map_flatMap, List.flatMap_map]
  refine congrArg₂ (· ++ ·) (List.flatMap_congr fun dai _ => map_issue_directFindings dai)
    (List.flatMap_congr fun place hplace => ?_)
  exact map_issue_nestedLeafFindings (ne_nil_of_mem_allPlaced hplace) place.2

/-- The check of a logical node finds the issues of each place, in document order. -/
theorem map_issue_instanceFindings {config : LogicalNode}
    (hconfig : ln.node.kind.config? = some config) :
    (instanceFindings r ln).map Finding.issue = nodeIssues r ln config := by
  rw [instanceFindings, hconfig, nodeIssues]
  exact List.map_flatMap.trans (List.flatMap_congr fun doi _ => map_issue_objectFindings doi)

/-! ## The part of the journal -/

section Alike

variable {b b' : Branch} (h : b.Alike b')
include h

theorem directFindings_alike : directFindings r b' doi = directFindings r b doi := by
  funext dai
  rw [directFindings, directFindings, bind?_alike h, h.ref]

theorem nestedLeafFindings_alike (path : List String) (label : String) (dai : Dai) :
    nestedLeafFindings r b' path label doi dai = nestedLeafFindings r b path label doi dai := by
  rw [nestedLeafFindings, nestedLeafFindings, List.cons_append, bind?_alike h,
    leafNamed?_alike h, h.ref]

/-- The check of a logical node does not depend on its namespace. -/
theorem instanceFindings_alike : instanceFindings r b' = instanceFindings r b := by
  unfold instanceFindings objectFindings
  rw [h.config]
  simp only [allNestedFindings_eq, directFindings_alike h, nestedLeafFindings_alike h]

end Alike

end Model

namespace Resolution

/-- **What is found about the instance values of a logical node is in the journal in one piece.** -/
theorem journal_of_resolve {d : Document} {ied : String} {ap : Option String} {o : ResolveOptions}
    {res : Resolution} (h : resolve d ied ap o = .ok res) {b : Branch} (hb : b.Stands res.model)
    (hk : b.node.kind.isLogicalNode) : ∃ before after : List Entry,
      res.journal = before ++ (instanceFindings d.registry b).map .finding ++ after := by
  refine logicalNodes_of_resolve (P := fun es b => ∃ before after : List Entry,
    es = before ++ (instanceFindings d.registry b).map .finding ++ after) ?_ ?_ ?_ h hb hk
  · rintro _ _ b ⟨more, rfl⟩ ⟨before, after, rfl⟩
    exact ⟨before, after ++ more, List.append_assoc ..⟩
  · rintro _ b b' halike ⟨before, after, rfl⟩
    exact ⟨before, after, by rw [instanceFindings_alike halike]⟩
  · intro g₁ inst device config b hcut hkind hentries
    obtain ⟨after, hafter, -⟩ :=
      remarked_checkNode (r := d.registry) o inst device b.id config g₁
    refine ⟨g₁.journal.toList, after, ?_⟩
    rw [hafter, hcut, Growth.report, Array.toList_appendList, Option.toList_some,
      List.flatMap_singleton]

end Resolution

/-! ## From the journal to the log -/

namespace Journal

theorem IssueLog.news_eq (log : IssueLog) (is : List Issue) :
    log.news is = (is.removeAll log.issues).eraseDups := by
  induction is generalizing log with
  | nil => rfl
  | cons i is ih =>
    rw [news]
    by_cases hi : log.contains i
    · have hskip : (i :: is).removeAll log.issues = is.removeAll log.issues :=
        List.filter_cons_of_neg (by simpa [contains] using hi)
      rw [if_pos hi, ih, hskip]
    · have hkeep : (i :: is).removeAll log.issues = i :: is.removeAll log.issues :=
        List.filter_cons_of_pos (by simpa [contains] using hi)
      rw [if_neg hi, ih, hkeep, List.eraseDups_cons, push, if_neg hi, List.removeAll,
        List.removeAll, List.filter_filter]
      -- what differs from the head and is not in the log is not in the log with the head
      refine congrArg (fun l => i :: l.eraseDups) (List.filter_congr fun j _ => ?_)
      simp [Bool.and_comm, beq_eq_decide]

theorem issueLog_append (es es' : List Entry) :
    issueLog (es ++ es') = (issueLog es).pushAll (issuesOf es') := by
  rw [issueLog, issuesOf_append, IssueLog.ofList, IssueLog.pushAll, List.foldl_append]
  rfl

theorem issuesOf_map_finding (fs : List Finding) :
    issuesOf (fs.map .finding) = fs.map Finding.issue := by
  rw [issuesOf, List.filterMap_map]
  exact congrFun List.filterMap_eq_map fs

end Journal

/-- **The check of a logical node adds the issues of its instance values in document order.** To
each log it appends those issues of `nodeIssues` that the log does not have yet, the first of each;
and what it finds is a part of the journal of the resolution, so the log of the resolution arises by
appending them to the log of what comes before. -/
theorem instance_issues {d : Document} {ied : String} {ap : Option String} {o : ResolveOptions}
    {res : Resolution} (h : resolve d ied ap o = .ok res) {id : Nat} {ln : Branch}
    (hln : res.model.branch? id = some ln) {config : LogicalNode}
    (hconfig : ln.node.kind.config? = some config) :
    let found := instanceFindings d.registry ln
    (∀ log : IssueLog, (log.pushAll (found.map Finding.issue)).issues =
      log.issues ++ ((nodeIssues d.registry ln config).removeAll log.issues).eraseDups) ∧
    ∃ before after, res.journal = before ++ found.map .finding ++ after ∧
      res.issues =
        ((issueLog before).pushAll (found.map Finding.issue)).pushAll (issuesOf after) := by
  intro found
  obtain ⟨i, a, -, -, hstage⟩ := Resolution.stage_of_resolve h
  obtain ⟨hstands, -⟩ := (Branch.branch?_eq_some_iff hstage.lawful.forest).mp hln
  have hk : ln.node.kind.isLogicalNode := by rw [NodeKind.isLogicalNode_eq, hconfig]; rfl
  obtain ⟨before, after, hjournal⟩ := Resolution.journal_of_resolve h hstands hk
  refine ⟨fun log => ?_, before, after, hjournal, ?_⟩
  · rw [IssueLog.issues_pushAll, IssueLog.news_eq, map_issue_instanceFindings hconfig]
  · rw [Resolution.issues, hjournal, issueLog_append, issueLog_append, issuesOf_map_finding]

/-- Values directly in a data object, in one of its parts, in a part of that, and in a part after
it; only those in the first part have an attribute. -/
def placedValues : Doi :=
  ⟨"Mod", none,
    [.mk "origin" (some "1") [.mk "deep" none [] [⟨"z", none, none, []⟩]]
      [⟨"q", none, none, [⟨none, "x"⟩, ⟨none, "3"⟩, ⟨none, "y"⟩]⟩],
      .mk "other" (some "2") [] [⟨"w", none, none, []⟩]],
    [⟨"u", none, none, []⟩]⟩

/-- A logical node with these values. -/
def placedNode : LogicalNode :=
  ⟨"GGIO", "L", "1", none, none, [], [], [], [placedValues], [], [], [], none⟩

/-- An IED with that logical node. -/
def placedIed : Ied :=
  ⟨"E", none, none, none, [⟨"A", some ⟨[⟨"LD", none, none, none, [placedNode]⟩]⟩⟩]⟩

/-- A document with that IED. -/
def placedDocument : Document :=
  ⟨⟨none, none, none, none, none, [placedIed], none⟩, nestedTypes, []⟩

/-- What the issues of that logical node say. -/
def placedMessages : List String :=
  ["There is no DataAttribute definition for DAI u on LogicalNode ELD/GGIO1",
    "Value x in DAI ELD/GGIO1.Mod.origin.q wrong for attribute type INT32",
    "Value y in DAI ELD/GGIO1.Mod.origin.q wrong for attribute type INT32",
    "There is no SubDataAttribute for DAI origin[1].deep on LogicalNode ELD/GGIO1",
    "There is no SubDataAttribute for DAI other[2] on LogicalNode ELD/GGIO1"]

/-- The issues stand in document order. Each has the path to its own place, also that of the part
that comes after a nested one. -/
theorem instance_issues_placed : ∃ res ln,
    resolve placedDocument "E" none misplacedOptions = .ok res ∧
      res.model.branch? 1 = some ln ∧ ln.node.kind.config? = some placedNode ∧
      (IssueLog.pushAll {} ((instanceFindings nestedTypes ln).map Finding.issue)).issues.map
        Issue.message = placedMessages := by
  have hresolve : ∃ res, resolve placedDocument "E" none misplacedOptions = .ok res ∧
      (∃ n, res.model.node? 1 = some n ∧ n.kind.config? = some placedNode) ∧
      (res.model.branch? 1).any fun ln =>
        ((nodeIssues nestedTypes ln placedNode).removeAll []).eraseDups.map Issue.message =
          placedMessages :=
    ⟨_, rfl, ⟨_, rfl, rfl⟩, by decide +kernel⟩
  obtain ⟨res, hres, ⟨n, hn, hconfig⟩, hcheck⟩ := hresolve
  obtain ⟨ln, hln, hissues⟩ := (Option.any_eq_true _ _).mp hcheck
  obtain ⟨i, a, -, -, hstage⟩ := Resolution.stage_of_resolve hres
  obtain rfl := Branch.node_of_branch? hstage.lawful.forest hln hn
  refine ⟨res, ln, hres, hln, hconfig, ?_⟩
  have hlog := (instance_issues hres hln hconfig).1 {}
  exact (congrArg (List.map Issue.message) hlog).trans (of_decide_eq_true hissues)

end Substation
