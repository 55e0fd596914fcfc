import Mathlib.Data.List.Basic
import Mathlib.Tactic.Common
import Substation.Proofs.NodeEntries

/-!
# What findings are about

Each stage of the work has a topic of its own (`Finding.topic`): reading a document refuses
templates, the expansion of types finds types that are missing or nested too deeply, the checks of
a logical node look at its values, at its configuration revision and at its namespaces, and so on.
`About` is followed through the stages, so it is known for each finding of a journal which stage
it comes from: a resolution finds nothing about templates and nothing about array indices
(`about_ofAccessPoint`).
-/

namespace Substation

open Substation.Config
open Substation.Journal
open Substation.Model
open Substation.Template

namespace Journal

/-- What a finding is about. -/
inductive Topic where
  /-- A template that is refused. -/
  | template
  /-- A type that is missing, or types that are nested too deeply. -/
  | type
  /-- A configured value. -/
  | value
  /-- The configuration revision of a logical device. -/
  | revision
  /-- A namespace. -/
  | space
  /-- A member of a data set. -/
  | member
  /-- An address. -/
  | address
  /-- The array index of a member of a data set. -/
  | index
deriving DecidableEq

/-- The topic of a finding. -/
def Finding.topic : Finding → Topic
  | refused _ => .template
  | noNodeType .. => .type
  | noObjectType .. => .type
  | noAttributeType .. => .type
  | noEnumType .. => .type
  | tooDeep .. => .type
  | badValue .. => .value
  | unboundLeaf .. => .value
  | unboundNested .. => .value
  | noConfigRev .. => .revision
  | emptyConfigRev .. => .revision
  | unknownNamespace .. => .space
  | emptyNamespace .. => .space
  | unknownMember .. => .member
  | badAddress .. => .address
  | badIndex .. => .index

/-- How the messages about a topic begin. Those about refused templates are left out. -/
def Topic.openings : Topic → List (List Char)
  | template => []
  | type => [['L', 'N', 'T'], ['D', 'O', 'T'], ['D', 'A', 'T'], ['E', 'n', 'u'], ['t', 'y', 'p']]
  | value => [['W', 'r', 'o'], ['V', 'a', 'l'], ['T', 'h', 'e']]
  | revision => [['D', 'A', ' '], ['D', 'A', 'I']]
  | space => [['N', 'a', 'm']]
  | member => [['F', 'C', 'D']]
  | address => [['P', ' ', 'a']]
  | index => [['F', 'C', 'D']]

/-- How the message of a finding begins. -/
def Finding.opening : Finding → List Char
  | refused _ => []
  | noNodeType .. => ['L', 'N', 'T']
  | noObjectType .. => ['D', 'O', 'T']
  | noAttributeType .. => ['D', 'A', 'T']
  | noEnumType .. => ['E', 'n', 'u']
  | tooDeep .. => ['t', 'y', 'p']
  | badValue _ .noEnum => ['W', 'r', 'o']
  | badValue _ (.unknownEnum _) => ['W', 'r', 'o']
  | badValue _ _ => ['V', 'a', 'l']
  | unboundLeaf .. => ['T', 'h', 'e']
  | unboundNested .. => ['T', 'h', 'e']
  | noConfigRev .. => ['D', 'A', ' ']
  | emptyConfigRev .. => ['D', 'A', 'I']
  | unknownNamespace .. => ['N', 'a', 'm']
  | emptyNamespace .. => ['N', 'a', 'm']
  | unknownMember .. => ['F', 'C', 'D']
  | badAddress .. => ['P', ' ', 'a']
  | badIndex .. => ['F', 'C', 'D']

theorem isPrefix_toList_append {opening rest : List Char} {front : String}
    (h : front = String.ofList (opening ++ rest)) (back : String) :
    opening <+: (front ++ back).toList := by
  rw [h, String.toList_append, String.toList_ofList, List.append_assoc]
  exact List.prefix_append _ _

theorem Finding.opening_isPrefix (f : Finding) : f.opening <+: f.issue.message.toList := by
  cases f with
  | refused => exact List.nil_prefix
  | badValue leaf fault =>
    rw [issue]
    unfold ValueFault.message
    cases fault <;> simp only [fail, String.append_assoc] <;> exact isPrefix_toList_append rfl _
  | badAddress object fault =>
    rw [issue]
    unfold Address.PartFault.message
    cases fault <;> simp only [fail, String.append_assoc] <;> exact isPrefix_toList_append rfl _
  | _ =>
    simp only [issue, fail, caution, undefinedType, String.append_assoc]
    exact isPrefix_toList_append rfl _

theorem Finding.opening_mem_openings {f : Finding} (h : f.topic ≠ .template) :
    f.opening ∈ f.topic.openings := by
  cases f with
  | refused => exact absurd rfl h
  | badValue leaf fault => cases fault <;> simp [opening, topic, Topic.openings]
  | _ => simp [opening, topic, Topic.openings]

/-- The findings among the entries are about some topics. -/
def About (ts : List Topic) (es : List Entry) : Prop := ∀ f, .finding f ∈ es → f.topic ∈ ts

section About

variable {ts ts' : List Topic} {es es' : List Entry}

@[simp] theorem about_nil : About ts [] := fun _ h => absurd h List.not_mem_nil

@[simp] theorem about_finding_cons {f : Finding} :
    About ts (.finding f :: es) ↔ f.topic ∈ ts ∧ About ts es := by
  simp [About, or_imp, forall_and]

@[simp] theorem about_mark_cons {m : Template.Mark} : About ts (.mark m :: es) ↔ About ts es := by
  simp [About]

@[simp] theorem about_note_cons {n : Note} : About ts (.note n :: es) ↔ About ts es := by
  simp [About]

@[simp] theorem about_append : About ts (es ++ es') ↔ About ts es ∧ About ts es' := by
  simp [About, or_imp, forall_and]

@[simp] theorem about_map_finding {fs : List Finding} :
    About ts (fs.map .finding) ↔ ∀ f ∈ fs, f.topic ∈ ts := by
  simp [About]

@[simp] theorem about_flatMap {α : Type} {l : List α} {f : α → List Entry} :
    About ts (l.flatMap f) ↔ ∀ a ∈ l, About ts (f a) := by
  simp only [About, List.mem_flatMap]
  exact ⟨fun h a ha g hg => h g ⟨a, ha, hg⟩, fun h g ⟨a, ha, hg⟩ => h a ha g hg⟩

theorem About.mono (h : About ts es) (hts : ts ⊆ ts') : About ts' es :=
  fun f hf => hts (h f hf)

end About

end Journal

namespace Model

variable {r : Registry}

/-! ## Expansion -/

section Harvests

variable {h next : Harvest} {ts : List Topic}

theorem about_andThen (hh : About ts h.entries) (hnext : About ts next.entries) :
    About ts (h.andThen next).entries := by
  unfold Harvest.andThen
  split
  · exact hh
  · exact about_append.mpr ⟨hh, hnext⟩

theorem about_all {hs : List Harvest} (h : ∀ h ∈ hs, About ts h.entries) :
    About ts (Harvest.all hs).entries := by
  induction hs with
  | nil => exact about_nil
  | cons x xs ih =>
    obtain ⟨hx, hxs⟩ := List.forall_mem_cons.mp h
    exact about_andThen hx (ih hxs)

theorem about_leafEntries (ref : String) (a : AttributeDef) :
    About [.type] (leafEntries r ref a) := by
  unfold leafEntries
  simp only
  split
  · split <;> simp [Finding.topic]
  · split <;> simp [Finding.topic]
  · exact about_nil

theorem about_leafHarvest {ref : String} {fc : Constraint} {a : AttributeDef}
    {inner : AttributeType → Harvest} (h : ∀ t, About [.type] (inner t).entries) :
    About [.type] (leafHarvest r ref fc a inner).entries := by
  refine about_append.mpr ⟨about_leafEntries ref a, ?_⟩
  split
  · exact h _
  · exact about_nil

theorem about_objectHarvest {ref : String} {d : ObjectDef} {inner : ObjectType → Harvest}
    (h : ∀ t, About [.type] (inner t).entries) :
    About [.type] (objectHarvest r ref d inner).entries := by
  unfold objectHarvest
  split
  · simp [Finding.topic]
  · exact about_mark_cons.mpr (h _)

/-- By induction on the levels that are left. -/
theorem about_harvest (n : Nat) (s : Site) : About [.type] (harvest r n s).entries := by
  induction n generalizing s with
  | zero => exact about_nil
  | succ n ih =>
    cases s with
    | object ref type =>
      refine about_andThen (about_all ?_) (about_all ?_)
      · exact List.forall_mem_map.mpr fun d _ => about_objectHarvest fun t => ih _
      · refine List.forall_mem_map.mpr fun a _ => about_leafHarvest fun t => ?_
        split
        · exact about_nil
        · exact ih _
    | group ref fc type =>
      exact about_all <| List.forall_mem_map.mpr fun a _ => about_leafHarvest fun t => ih _

theorem about_settle (limit : Nat) (hh : About [.type] h.entries) :
    About [.type] (h.settle limit).entries := by
  unfold Harvest.settle
  split
  · exact hh
  · exact about_append.mpr ⟨hh, by simp [Finding.topic]⟩

theorem about_nodeHarvest (limit : Nat) (ref : String) (objects : List ObjectDef) :
    About [.type] (nodeHarvest r limit ref objects).entries :=
  about_all <| List.forall_mem_map.mpr fun _ _ =>
    about_settle limit <| about_objectHarvest fun _ => about_harvest limit _

end Harvests

/-! ## Checks of logical nodes -/

section Checks

variable {ln : Branch} {doi : Doi} {f : Finding}

theorem topic_valueFindings {leaf : Branch} {dai : Dai} (h : f ∈ valueFindings r leaf dai) :
    f.topic = .value := by
  unfold valueFindings at h
  split at h
  · obtain ⟨v, -, hv⟩ := List.mem_filterMap.mp h
    obtain ⟨fault, -, rfl⟩ := Option.map_eq_some_iff.mp hv
    rfl
  · exact absurd h List.not_mem_nil

theorem topic_directFindings {dai : Dai} (h : f ∈ directFindings r ln doi dai) :
    f.topic = .value := by
  unfold directFindings at h
  split at h
  · exact topic_valueFindings h
  · obtain rfl := List.mem_singleton.mp h
    rfl

theorem topic_nestedLeafFindings {path : List String} {label : String} {dai : Dai}
    (h : f ∈ nestedLeafFindings r ln path label doi dai) : f.topic = .value := by
  unfold nestedLeafFindings at h
  split at h
  · exact topic_valueFindings h
  · split at h
    · exact absurd h List.not_mem_nil
    · obtain rfl := List.mem_singleton.mp h
      rfl

mutual

theorem topic_nestedFindings : ∀ (s : Sdi) {path labels : List String},
    f ∈ nestedFindings r ln doi path labels s → f.topic = .value
  | .mk name index nested leaves, path, labels, h => by
    rw [nestedFindings] at h
    rcases List.mem_append.mp h with h | h
    · obtain ⟨a, -, h⟩ := List.mem_flatMap.mp h
      exact topic_nestedLeafFindings h
    · exact topic_allNestedFindings nested h

theorem topic_allNestedFindings : ∀ (ss : List Sdi) {path labels : List String},
    f ∈ allNestedFindings r ln doi path labels ss → f.topic = .value
  | [], _, _, h => absurd h List.not_mem_nil
  | s :: ss, path, labels, h => by
    rw [allNestedFindings] at h
    rcases List.mem_append.mp h with h | h
    · exact topic_nestedFindings s h
    · exact topic_allNestedFindings ss h

end

theorem topic_instanceFindings (h : f ∈ instanceFindings r ln) : f.topic = .value := by
  unfold instanceFindings at h
  split at h
  · exact absurd h List.not_mem_nil
  · obtain ⟨doi, -, h⟩ := List.mem_flatMap.mp h
    rcases List.mem_append.mp h with h | h
    · obtain ⟨dai, -, h⟩ := List.mem_flatMap.mp h
      exact topic_directFindings h
    · exact topic_allNestedFindings doi.nested h

theorem topic_configRevFindings {device : String} (h : f ∈ configRevFindings device ln) :
    f.topic = .revision := by
  unfold configRevFindings at h
  split at h
  · exact absurd h List.not_mem_nil
  · split at h
    · exact absurd h List.not_mem_nil
    · split at h
      · obtain rfl := List.mem_singleton.mp h
        rfl
      · split at h
        · exact absurd h List.not_mem_nil
        · obtain rfl := List.mem_singleton.mp h
          rfl

theorem topic_spaceFindings {location : String} {value : SpaceValue}
    (h : f ∈ spaceFindings ln location value) : f.topic = .space := by
  cases value with
  | absent => exact absurd h List.not_mem_nil
  | empty =>
    obtain rfl := List.mem_singleton.mp h
    rfl
  | given text =>
    rw [spaceFindings] at h
    split at h
    · exact absurd h List.not_mem_nil
    · obtain rfl := List.mem_singleton.mp h
      rfl

theorem topic_memberFindings {m : IedModel} (h : f ∈ memberFindings r m) : f.topic = .member := by
  obtain ⟨id, -, h⟩ := List.mem_flatMap.mp h
  split at h
  · exact absurd h List.not_mem_nil
  · obtain ⟨set, -, h⟩ := List.mem_flatMap.mp h
    obtain ⟨member, -, rfl⟩ := List.mem_map.mp h
    rfl

end Checks

end Model

namespace Resolution

variable {r : Registry} {g : Growth} {ts : List Topic}

/-! ## The journal so far -/

theorem about_expansionEntries (limit : Nat) (ref : String) (config : LogicalNode) :
    About [.type] (expansionEntries r limit ref config) := by
  unfold expansionEntries nodeEntries
  split
  · simp [Finding.topic]
  · simp [about_nodeHarvest]

theorem about_report {fs : List Finding} (hg : About ts g.journal.toList)
    (h : ∀ f ∈ fs, f.topic ∈ ts) : About ts (g.report fs).journal.toList := by
  rw [Growth.report, Array.toList_appendList]
  exact about_append.mpr ⟨hg, about_map_finding.mpr h⟩

theorem about_checkSpace (hts : .space ∈ ts) (device ln target : Nat) (name : String)
    (hg : About ts g.journal.toList) :
    About ts (checkSpace device ln target name g).journal.toList := by
  unfold checkSpace
  split
  · exact hg
  · split
    · exact hg
    · simp only
      split
      · exact about_report hg fun f hf => topic_spaceFindings hf ▸ hts
      · exact about_report hg fun f hf => topic_spaceFindings hf ▸ hts

/-- The topics of the checks of a logical node. -/
def nodeTopics : List Topic := [.value, .revision, .space]

theorem about_checkNode (hts : nodeTopics ⊆ ts) (o : ResolveOptions) (inst : String)
    (device ln : Nat) (config : LogicalNode) (hg : About ts g.journal.toList) :
    About ts (checkNode r o inst device ln config g).journal.toList := by
  have hvalues : About ts
      (g.report ((g.model.branch? ln).toList.flatMap (instanceFindings r))).journal.toList := by
    refine about_report hg fun f hf => ?_
    obtain ⟨b, -, hf⟩ := List.mem_flatMap.mp hf
    exact topic_instanceFindings hf ▸ hts (by decide)
  have hrevision : ∀ g' : Growth, About ts g'.journal.toList →
      About ts (g'.report
        ((g.model.branch? ln).toList.flatMap (configRevFindings inst))).journal.toList := by
    intro g' hg'
    refine about_report hg' fun f hf => ?_
    obtain ⟨b, -, hf⟩ := List.mem_flatMap.mp hf
    exact topic_configRevFindings hf ▸ hts (by decide)
  have hspaces : ∀ g' : Growth, About ts g'.journal.toList →
      About ts (checkSpaces device ln config g').journal.toList := by
    intro g' hg'
    have hspace : Topic.space ∈ ts := hts (by decide)
    unfold checkSpaces
    refine about_checkSpace hspace _ _ _ _ ?_
    split
    · exact about_checkSpace hspace _ _ _ _ hg'
    · exact hg'
  unfold checkNode
  simp only
  split
  · split
    · exact hspaces _ (hrevision _ hvalues)
    · exact hspaces _ hvalues
  · split
    · exact hrevision _ hvalues
    · exact hvalues

/-- The topics of the building of a model. -/
def builtTopics : List Topic := .type :: nodeTopics

theorem about_addNode {device : Nat} {d : Node} (hm : g.model.Lawful)
    (hd : g.model.node? device = some d) (o : ResolveOptions) (subject : Subject) (inst : String)
    (config : LogicalNode) (hg : About builtTopics g.journal.toList) :
    About builtTopics (addNode r o subject inst device g config).journal.toList := by
  obtain ⟨g', n, -, hjournal, hadd⟩ := exists_of_addNode (r := r) hm.forest hd o subject inst config
  rw [hadd]
  refine about_checkNode (List.subset_cons_self _ _) o inst device _ config ?_
  rw [hjournal]
  have hentries : About builtTopics (expansionEntries r o.maxDepth
      (d.ref ++ d.kind.separator ++ config.name) config) :=
    (about_expansionEntries o.maxDepth _ config).mono (by decide)
  exact about_append.mpr ⟨about_append.mpr ⟨hg, hentries⟩, by simp⟩

/-! ## The whole journal -/

variable (d : Document) (o : ResolveOptions) (i : Ied) (a : AccessPoint)

theorem about_built : About builtTopics (built d o i a).journal.toList :=
  (built_induction d o i a (Q := fun g => About builtTopics g.journal.toList)
    (about_note_cons.mpr about_nil) (fun _ _ _ _ hg => hg)
    (fun _ _ _ inst config hm hn _ hg => about_addNode hm hn o _ inst config hg)).2

theorem about_connectionEntries (subject : Subject) : ∀ cap?,
    About [.address] (connectionEntries subject cap?)
  | none => about_note_cons.mpr about_nil
  | some cap => by
    refine about_map_finding.mpr fun f hf => ?_
    obtain ⟨fault, -, rfl⟩ := List.mem_map.mp hf
    simp [Finding.topic]

/-- What follows the building of the model is about members and addresses. -/
theorem ofAccessPoint_adds : ∃ es,
    (ofAccessPoint d o i a).journal = (built d o i a).journal.toList ++ es ∧
      About [.member, .address] es := by
  obtain ⟨n, hjournal⟩ := exists_journal_ofAccessPoint d o i a
  have hmembers : About [.member, .address] (memberEntries d o (built d o i a).model) := by
    unfold memberEntries
    split
    · refine about_map_finding.mpr fun f hf => ?_
      simp [topic_memberFindings hf]
    · exact about_nil
  refine ⟨_, hjournal, about_append.mpr ⟨about_append.mpr ⟨hmembers, ?_⟩, by simp⟩⟩
  exact (about_connectionEntries _ _).mono (by simp)

/-- The topics of a resolution. -/
def resolutionTopics : List Topic := builtTopics ++ [.member, .address]

theorem not_template_of_mem_resolutionTopics {t : Topic} (h : t ∈ resolutionTopics) :
    t ≠ .template := by
  rintro rfl
  exact absurd h (by decide)

/-- The topic of a finding of a resolution can be told from how its message begins. -/
theorem topic_eq_of_isPrefix {f : Finding} {t : Topic} (hf : f.topic ∈ resolutionTopics)
    (ht : t ∈ resolutionTopics) {opening : List Char} (hopening : opening ∈ t.openings)
    (hmessage : opening <+: f.issue.message.toList) : f.topic = t := by
  have hlength : ∀ t ∈ resolutionTopics, ∀ c ∈ t.openings, c.length = 3 := by decide
  have hdisjoint : ∀ t ∈ resolutionTopics, ∀ t' ∈ resolutionTopics, ∀ c ∈ t.openings,
      c ∈ t'.openings → t = t' := by decide
  have hmem := Finding.opening_mem_openings (not_template_of_mem_resolutionTopics hf)
  have heq : f.opening = opening := by
    have hprefix := List.prefix_of_prefix_length_le f.opening_isPrefix hmessage
      (Nat.le_of_eq ((hlength _ hf _ hmem).trans (hlength _ ht _ hopening).symm))
    exact hprefix.eq_of_length ((hlength _ hf _ hmem).trans (hlength _ ht _ hopening).symm)
  rw [heq] at hmem
  exact hdisjoint _ hf _ ht _ hmem hopening

/-- **A resolution finds nothing about templates and nothing about array indices.** -/
theorem about_ofAccessPoint : About resolutionTopics (ofAccessPoint d o i a).journal := by
  obtain ⟨es, hes, habout⟩ := ofAccessPoint_adds d o i a
  rw [hes]
  exact about_append.mpr ⟨(about_built d o i a).mono (by decide), habout.mono (by decide)⟩

end Resolution

end Substation
