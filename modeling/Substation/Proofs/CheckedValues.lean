import Mathlib.Data.List.Basic
import Mathlib.Tactic.Common
import Substation.Proofs.EnumValues
import Substation.Proofs.NodeEntries

/-!
# Instance values are checked

Every logical node is checked when it is planted, so what its instance values are found to be wrong
with is in the journal of the whole resolution (`checked_of_resolve`). For a configured value this
means (`instance_values_checked`): the attribute it is for is found and what is wrong with the value
is reported, or it is reported that there is no such attribute. A value in a nested part goes
unreported in one case, where the data object has an attribute of its name in some other place.

Results:
* `checked_of_resolve` (`resolve_ied`): the check of every logical node is in the journal;
* `instance_values_checked` (`validate_logical_node`, `validate_sdi`, `check_dai_value`): what is
  reported about one value;
* `misplaced_value_not_reported` (`leaf_named`): the case in which nothing is.
-/

namespace Substation

open Substation.Config
open Substation.Journal
open Substation.Model
open Substation.Template

namespace Resolution

/-! ## Every logical node is checked -/

/-- What is wrong with the instance values of a logical node is in the journal. -/
def Checked (r : Registry) (es : List Entry) (b : Branch) : Prop :=
  ∃ b₀ : Branch, b₀.Alike b ∧ ∀ f ∈ instanceFindings r b₀, .finding f ∈ es

/-- **Every logical node of a resolved model has been checked.** -/
theorem checked_of_resolve {d : Document} {ied : String} {ap : Option String} {o : ResolveOptions}
    {res : Resolution} (h : resolve d ied ap o = .ok res) {b : Branch} (hb : b.Stands res.model)
    (hk : b.node.kind.isLogicalNode) : Checked d.registry res.journal b := by
  refine logicalNodes_of_resolve (P := Checked d.registry) ?_ ?_ ?_ h hb hk
  · rintro es es' b hkept ⟨b₀, hb₀, hf⟩
    exact ⟨b₀, hb₀, fun f hmem => hkept.subset (hf f hmem)⟩
  · rintro es b b' hb ⟨b₀, hb₀, hf⟩
    exact ⟨b₀, hb₀.trans hb, hf⟩
  · intro g₁ inst device config b hcut hkind hentries
    refine ⟨b, .refl b, fun f hf => Array.mem_toList_iff.mpr ?_⟩
    refine (remarked_checkNode o inst device b.id config g₁).mem ?_
    rw [hcut]
    exact mem_report_iff.mpr (Or.inr ⟨f, List.mem_flatMap.mpr ⟨b, List.mem_singleton.mpr rfl, hf⟩,
      rfl⟩)

end Resolution

/-! ## Values in nested parts -/

namespace Config

/-- The values stand in the part, or in a part nested in it. The names of the parts on the way are
`path`; `labels` are the same as they are reported, with the elements of arrays that are meant. -/
inductive Sdi.Leads : Sdi → List String → List String → Dai → Prop
  | leaf {s : Sdi} {a : Dai} (ha : a ∈ s.leaves) : Leads s [s.name] [stepLabel s.name s.index] a
  | nested {s t : Sdi} {path labels : List String} {a : Dai} (ht : t ∈ s.nested)
      (h : Leads t path labels a) :
      Leads s (s.name :: path) (stepLabel s.name s.index :: labels) a

end Config

namespace Model

variable {r : Registry} {ln : Branch} {doi : Doi}

theorem mem_allNestedFindings {path labels : List String} {ss : List Sdi} {f : Finding} :
    f ∈ allNestedFindings r ln doi path labels ss ↔
      ∃ s ∈ ss, f ∈ nestedFindings r ln doi path labels s := by
  induction ss with
  | nil => simp [allNestedFindings]
  | cons s ss ih => simp [allNestedFindings, ih]

/-- What is found about a leaf is found about every part that it lies in. -/
theorem mem_nestedFindings {s : Sdi} {path labels : List String} {a : Dai} {f : Finding}
    (h : s.Leads path labels a) : ∀ {front frontLabels : List String},
      f ∈ nestedLeafFindings r ln (front ++ path) (".".intercalate (frontLabels ++ labels)) doi a →
      f ∈ nestedFindings r ln doi front frontLabels s := by
  induction h with
  | @leaf s a ha =>
    intro front frontLabels hf
    obtain ⟨name, index, nested, leaves⟩ := s
    rw [nestedFindings]
    exact List.mem_append_left _ (List.mem_flatMap.mpr ⟨a, ha, hf⟩)
  | @nested s t path labels a ht h ih =>
    intro front frontLabels hf
    obtain ⟨name, index, nested, leaves⟩ := s
    rw [nestedFindings]
    refine List.mem_append_right _ (mem_allNestedFindings.mpr ⟨t, ht, ih ?_⟩)
    rw [List.append_assoc, List.append_assoc]
    exact hf

/-! ## What the checks look at -/

variable {b b' : Branch}

theorem bind?_alike (h : b.Alike b') (name : String) (path : List String) :
    bind? b' (name :: path) = bind? b (name :: path) := by
  have hwalk : Branch.walk? (name :: path) b' = Branch.walk? (name :: path) b := by
    rw [Branch.walk?, Branch.walk?, Branch.child?, Branch.child?, h.branches]
  rw [bind?, bind?, hwalk, Branch.descendants, Branch.descendants, h.branches, refBelow, refBelow,
    h.ref]

theorem leafNamed?_alike (h : b.Alike b') (object name : String) :
    leafNamed? b' object name = leafNamed? b object name := by
  rw [leafNamed?, leafNamed?, Branch.child?, Branch.child?, h.branches]

/-- What values are bound to is an attribute below the logical node. -/
theorem bind?_spec {leaf : Branch} {name : String} {path : List String}
    (h : bind? ln (name :: path) = some leaf) : leaf ∈ ln.descendants ∧ leaf.node.kind.isLeaf := by
  unfold bind? at h
  simp only at h
  split at h
  · rename_i found hfound
    cases h
    have hprop := List.find?_some hfound
    exact ⟨List.mem_of_find?_eq_some hfound, (of_decide_eq_true hprop).2⟩
  · obtain ⟨hwalk, hleaf⟩ := Option.filter_eq_some_iff.mp h
    obtain ⟨c, hc, hw⟩ := Option.bind_eq_some_iff.mp hwalk
    have hmem : c ∈ ln.branches := List.mem_of_find?_eq_some hc
    exact ⟨Branch.mem_descendants.mpr ⟨c, hmem, (Branch.reaches_of_walk? hw).mem_preorder⟩, hleaf⟩

/-- The values of a leaf are for an attribute below the logical node, and what is wrong with any of
them is among the errors. -/
def ValuesChecked (r : Registry) (errors : List Issue) (ln : Branch) (path : List String)
    (dai : Dai) : Prop :=
  ∃ leaf fc a, bind? ln path = some leaf ∧ leaf ∈ ln.descendants ∧ leaf.node.kind = .leaf fc a ∧
    ∀ v ∈ dai.values, ∀ fault, valueFault? r a v.text = some fault →
      (Finding.badValue leaf.ref fault).issue ∈ errors

theorem valuesChecked_of_bind? {leaf : Branch} {name : String} {path : List String} {dai : Dai}
    {entries : List Entry} (hbind : bind? ln (name :: path) = some leaf)
    (h : ∀ f ∈ valueFindings r leaf dai, .finding f ∈ entries) :
    ValuesChecked r (issueLog entries).errors ln (name :: path) dai := by
  obtain ⟨hmem, hleaf⟩ := bind?_spec hbind
  cases hkind : leaf.node.kind with
  | leaf fc a =>
    refine ⟨leaf, fc, a, hbind, hmem, hkind, fun v hv fault hfault => ?_⟩
    have hfinding : Finding.badValue leaf.ref fault ∈ valueFindings r leaf dai :=
      (mem_valueFindings hkind).mpr ⟨v, hv, fault, hfault, rfl⟩
    exact mem_errors_of_finding (h _ hfinding) rfl
  | _ =>
    rw [hkind] at hleaf
    exact absurd hleaf Bool.false_ne_true

/-- A value directly below a data object, if its findings are in the journal. -/
theorem checked_of_directFindings (halike : b.Alike ln) {dai : Dai} {entries : List Entry}
    (h : ∀ f ∈ directFindings r b doi dai, .finding f ∈ entries) :
    ValuesChecked r (issueLog entries).errors ln [doi.name, dai.name] dai ∨
      bind? ln [doi.name, dai.name] = none ∧
        (Finding.unboundLeaf ln.ref dai.name).issue ∈ (issueLog entries).errors := by
  rw [directFindings, ← bind?_alike halike] at h
  cases hbind : bind? ln [doi.name, dai.name] with
  | some leaf =>
    rw [hbind] at h
    exact Or.inl (valuesChecked_of_bind? hbind h)
  | none =>
    rw [hbind, ← halike.ref] at h
    exact Or.inr ⟨rfl, mem_errors_of_finding (h _ (List.mem_singleton.mpr rfl)) rfl⟩

/-- A value in a nested part, if its findings are in the journal. -/
theorem checked_of_nestedLeafFindings (halike : b.Alike ln) {path : List String} {label : String}
    {dai : Dai} {entries : List Entry}
    (h : ∀ f ∈ nestedLeafFindings r b path label doi dai, .finding f ∈ entries) :
    ValuesChecked r (issueLog entries).errors ln (doi.name :: path ++ [dai.name]) dai ∨
      bind? ln (doi.name :: path ++ [dai.name]) = none ∧
        ((Finding.unboundNested ln.ref label).issue ∈ (issueLog entries).errors ∨
          ∃ object leaf, ln.child? doi.name = some object ∧ leaf ∈ object.descendants ∧
            leaf.node.kind.isLeaf ∧ leaf.name = dai.name) := by
  rw [nestedLeafFindings, List.cons_append, ← bind?_alike halike, ← List.cons_append] at h
  cases hbind : bind? ln (doi.name :: path ++ [dai.name]) with
  | some leaf =>
    rw [hbind] at h
    exact Or.inl (valuesChecked_of_bind? hbind h)
  | none =>
    rw [hbind, ← leafNamed?_alike halike, ← halike.ref] at h
    refine Or.inr ⟨rfl, ?_⟩
    cases hother : leafNamed? ln doi.name dai.name with
    | none =>
      rw [hother] at h
      exact Or.inl (mem_errors_of_finding (h _ (List.mem_singleton.mpr rfl)) rfl)
    | some leaf =>
      right
      obtain ⟨object, hchild, hfind⟩ := Option.bind_eq_some_iff.mp hother
      have hprop := List.find?_some hfind
      obtain ⟨hleaf, hname⟩ := of_decide_eq_true hprop
      exact ⟨object, leaf, hchild, List.mem_of_find?_eq_some hfind, hleaf, hname⟩

end Model

/-- **What a configured value is checked for.** A value that stands directly below a data object is
bound to an attribute, and reported where it does not fit it, or reported as having none. So is a
value in a nested part, but for one case: a value that has no attribute in its place is not reported
if there is an attribute of its name in another place of the data object. -/
theorem instance_values_checked {d : Document} {ied : String} {ap : Option String}
    {o : ResolveOptions} {res : Resolution} (h : resolve d ied ap o = .ok res) {id : Nat}
    {ln : Branch} (hln : res.model.branch? id = some ln) {config : LogicalNode}
    (hconfig : ln.node.kind.config? = some config) {doi : Doi} (hdoi : doi ∈ config.instances) :
    (∀ dai ∈ doi.leaves,
      ValuesChecked d.registry res.issues.errors ln [doi.name, dai.name] dai ∨
      bind? ln [doi.name, dai.name] = none ∧
        (Finding.unboundLeaf ln.ref dai.name).issue ∈ res.issues.errors) ∧
    ∀ s ∈ doi.nested, ∀ path labels dai, s.Leads path labels dai →
      ValuesChecked d.registry res.issues.errors ln (doi.name :: path ++ [dai.name]) dai ∨
      bind? ln (doi.name :: path ++ [dai.name]) = none ∧
        ((Finding.unboundNested ln.ref (".".intercalate labels)).issue ∈ res.issues.errors ∨
          ∃ object leaf, ln.child? doi.name = some object ∧ leaf ∈ object.descendants ∧
            leaf.node.kind.isLeaf ∧ leaf.name = dai.name) := by
  obtain ⟨i, a, -, -, hstage⟩ := Resolution.stage_of_resolve h
  obtain ⟨hstands, -⟩ := (Branch.branch?_eq_some_iff hstage.lawful.forest).mp hln
  have hk : ln.node.kind.isLogicalNode := by rw [NodeKind.isLogicalNode_eq, hconfig]; rfl
  obtain ⟨b, halike, hfound⟩ := Resolution.checked_of_resolve h hstands hk
  have hobject : ∀ f ∈ objectFindings d.registry b doi, .finding f ∈ res.journal := by
    refine fun f hf => hfound f ?_
    rw [instanceFindings, ← halike.config, hconfig]
    exact List.mem_flatMap.mpr ⟨doi, hdoi, hf⟩
  refine ⟨fun dai hdai => checked_of_directFindings halike fun f hf => ?_,
    fun s hs path labels dai hleads => checked_of_nestedLeafFindings halike fun f hf => ?_⟩
  · exact hobject f (List.mem_append_left _ (List.mem_flatMap.mpr ⟨dai, hdai, hf⟩))
  · refine hobject f (List.mem_append_right _ ?_)
    exact mem_allNestedFindings.mpr ⟨s, hs, mem_nestedFindings hleads hf⟩

/-- A value that does not fit its attribute, and one in a part that does not exist. -/
def misplacedValues : Doi :=
  ⟨"Mod", none, [.mk "origin" none [] [⟨"q", none, none, [⟨none, "x"⟩]⟩],
    .mk "other" none [] [⟨"q", none, none, [⟨none, "3"⟩]⟩]], []⟩

/-- A logical node with these values. -/
def misplacedNode : LogicalNode :=
  ⟨"GGIO", "L", "1", none, none, [], [], [], [misplacedValues], [], [], [], none⟩

/-- An IED with that logical node. -/
def misplacedIed : Ied :=
  ⟨"E", none, none, none, [⟨"A", some ⟨[⟨"LD", none, none, none, [misplacedNode]⟩]⟩⟩]⟩

/-- A document with that IED. -/
def misplacedDocument : Document :=
  ⟨⟨none, none, none, none, none, [misplacedIed], none⟩, nestedTypes, []⟩

/-- What a resolution of that document is asked to check. -/
def misplacedOptions : ResolveOptions := { checkNamespaces := false }

/-- The model of that document. -/
def misplacedResolution : Resolution :=
  .ofAccessPoint misplacedDocument misplacedOptions misplacedIed
    ⟨"A", some ⟨[⟨"LD", none, none, none, [misplacedNode]⟩]⟩⟩

theorem branch?_misplacedResolution : ∃ ln, misplacedResolution.model.branch? 1 = some ln ∧
    ln.node.kind.config? = some misplacedNode ∧ ln.ref = "ELD/GGIO1" ∧
    (bind? ln ["Mod", "origin", "q"]).isSome ∧ (bind? ln ["Mod", "other", "q"]).isNone := by
  have hcheck : (misplacedResolution.model.branch? 1).any fun ln => ln.ref = "ELD/GGIO1" ∧
      (bind? ln ["Mod", "origin", "q"]).isSome ∧ (bind? ln ["Mod", "other", "q"]).isNone := by
    decide +kernel
  obtain ⟨ln, hln, hcheck⟩ := (Option.any_eq_true _ _).mp hcheck
  have hm := (Resolution.stage_ofAccessPoint misplacedDocument misplacedOptions misplacedIed
    ⟨"A", some ⟨[⟨"LD", none, none, none, [misplacedNode]⟩]⟩⟩).lawful
  have hnode : ∃ n, misplacedResolution.model.node? 1 = some n ∧
      n.kind.config? = some misplacedNode := ⟨_, rfl, rfl⟩
  obtain ⟨n, hn, hconfig⟩ := hnode
  obtain rfl := Branch.node_of_branch? hm.forest hln hn
  exact ⟨ln, hln, hconfig, of_decide_eq_true hcheck⟩

/-- The value that does not fit is reported. -/
theorem instance_values_checked_misplaced : ∃ res ln,
    resolve misplacedDocument "E" none misplacedOptions = .ok res ∧
      res.model.branch? 1 = some ln ∧ ln.node.kind.config? = some misplacedNode ∧
      misplacedValues ∈ misplacedNode.instances ∧
      ValuesChecked nestedTypes res.issues.errors ln ["Mod", "origin", "q"]
        ⟨"q", none, none, [⟨none, "x"⟩]⟩ ∧
      res.issues.errors.map Issue.object = ["ELD/GGIO1.Mod.origin.q"] := by
  obtain ⟨ln, hln, hconfig, -, hsome, -⟩ := branch?_misplacedResolution
  have hmem : misplacedValues ∈ misplacedNode.instances := List.mem_singleton.mpr rfl
  have hres : resolve misplacedDocument "E" none misplacedOptions = .ok misplacedResolution := rfl
  refine ⟨misplacedResolution, ln, hres, hln, hconfig, hmem, ?_, by decide +kernel⟩
  rcases (instance_values_checked hres hln hconfig hmem).2 _ List.mem_cons_self ["origin"]
    ["origin"] _ (.leaf List.mem_cons_self) with hchecked | ⟨hnone, -⟩
  · exact hchecked
  · have hnone : bind? ln ["Mod", "origin", "q"] = none := hnone
    rw [hnone] at hsome
    exact absurd hsome Bool.false_ne_true

/-- The other value has no attribute, and that is not reported. -/
theorem misplaced_value_not_reported : ∃ res ln s,
    resolve misplacedDocument "E" none misplacedOptions = .ok res ∧
      res.model.branch? 1 = some ln ∧ ln.node.kind.config? = some misplacedNode ∧
      misplacedValues ∈ misplacedNode.instances ∧ s ∈ misplacedValues.nested ∧
      s.Leads ["other"] ["other"] ⟨"q", none, none, [⟨none, "3"⟩]⟩ ∧
      bind? ln ["Mod", "other", "q"] = none ∧
      (Finding.unboundNested ln.ref "other").issue ∉ res.issues.issues := by
  obtain ⟨ln, hln, hconfig, href, -, hnone⟩ := branch?_misplacedResolution
  refine ⟨misplacedResolution, ln, _, rfl, hln, hconfig, List.mem_singleton.mpr rfl,
    List.mem_cons_of_mem _ List.mem_cons_self, .leaf List.mem_cons_self,
    Option.isNone_iff_eq_none.mp hnone, ?_⟩
  rw [href]
  decide +kernel

end Substation
