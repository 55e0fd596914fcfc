import Mathlib.Data.List.Basic
import Mathlib.Tactic.Common
import Substation.Proofs.NamePlates
import Substation.Proofs.Topics

/-!
# Name plates through a resolution

Every logical node is checked right after it was planted, when it stands last below its logical
device. `Plated` says what all these checks together leave behind: a logical device has the last of
the namespaces that its logical nodes give it (`Settled`), and the findings about revisions and
namespaces are those of the logical nodes, each with its logical device (`deviceFindings`). A
logical device more and a logical node more keep it (`Plated.addDevice`, `Plated.addNode`), so it
holds of every resolution (`plated_ofAccessPoint`).
-/

namespace Substation.Resolution

open Substation.Config
open Substation.Journal
open Substation.Model
open Substation.Template

variable {r : Registry} {o : ResolveOptions} {g : Growth} {dev ln : Branch}

/-! ## One logical node -/

/-- What is found about the name plate of a logical node, apart from its values. -/
def plateFindings (o : ResolveOptions) (inst device : String) (ln : Branch) : List Finding :=
  match ln.node.kind.config? with
  | none => []
  | some config =>
    (if o.checkConfigRev && config.lnClass = "LLN0" then configRevFindings inst ln else []) ++
      if o.checkNamespaces then plateSpacesFindings device ln config else []

/-- The namespace that the check of a logical node sets on its logical device. -/
def givenSpace? (o : ResolveOptions) (ln : Branch) : Option Namespace :=
  if o.checkNamespaces then
    (ln.node.kind.config?.bind (deviceSpace? ln)).bind Namespace.parse?
  else none

/-- The namespace that the check of a logical node sets on the logical node. -/
def ownSpace? (o : ResolveOptions) (ln : Branch) : Option Namespace :=
  if o.checkNamespaces then
    (ln.node.kind.config?.bind fun config => effectiveSpace? ln config "lnNs").bind Namespace.parse?
  else none

/-- **The check of a logical node** reports on its values and on its name plate, and sets the
namespaces that stand there. -/
theorem checkNode_eq (hdev : dev.Stands g.model) (hln : ln ∈ dev.branches) {config : LogicalNode}
    (hconfig : ln.node.kind.config? = some config) (inst : String) :
    checkNode r o inst dev.id ln.id config g =
      (g.report (instanceFindings r ln ++ plateFindings o inst dev.name ln)).onModel fun m =>
        (m.setSpace? dev.id (givenSpace? o ln)).setSpace? ln.id (ownSpace? o ln) := by
  have hbranch := (hdev.of_mem hln).branch?
  -- whether the revision is looked at makes no difference to the table
  let revision := if o.checkConfigRev && config.lnClass = "LLN0" then configRevFindings inst ln
    else []
  have hrevision : (if o.checkConfigRev && config.lnClass = "LLN0" then
      (g.report (instanceFindings r ln)).report (configRevFindings inst ln)
      else g.report (instanceFindings r ln)) = g.report (instanceFindings r ln ++ revision) := by
    unfold revision
    split
    · rw [report_append]
    · rw [List.append_nil]
  unfold checkNode plateFindings givenSpace? ownSpace?
  simp only [hbranch, hconfig, Option.toList_some, List.flatMap_singleton, Option.bind_some]
  rw [hrevision]
  by_cases hspaces : o.checkNamespaces
  · simp only [hspaces, if_true]
    rw [checkSpaces_eq (g := g.report (instanceFindings r ln ++ revision)) hdev hln hconfig,
      ← report_append, List.append_assoc]
  · simp only [hspaces, Bool.false_eq_true, if_false, List.append_nil]
    rfl

/-- **Adding a logical node** extends its logical device by it, sets the namespaces that stand on
its name plate, and reports on it. -/
theorem addNode_eq (hm : g.model.Lawful) (hdev : dev.Stands g.model) (subject : Subject)
    (inst : String) (config : LogicalNode) :
    let s := nodeSprout r o.maxDepth o.maxDepth
      (dev.ref ++ dev.node.kind.separator ++ config.name) config
    let ln := s.grown dev.id (dev.ref ++ dev.node.kind.separator) g.model.size
    let g' := addNode r o subject inst dev.id g config
    g'.model = g.model.plantSpaced dev.id s (givenSpace? o ln) (ownSpace? o ln) ∧
      ∃ n, g'.journal.toList = g.journal.toList ++
        expansionEntries r o.maxDepth (dev.ref ++ dev.node.kind.separator ++ config.name) config ++
        [.note n] ++ (instanceFindings r ln ++ plateFindings o inst dev.name ln).map .finding := by
  intro s ln g'
  obtain ⟨g₁, n, hmodel, hjournal, hadd⟩ :=
    exists_of_addNode (r := r) hm.forest hdev.node? o subject inst config
  have hid : ln.id = g.model.size := Sprout.id_grown ..
  have hconfig : ln.node.kind.config? = some config := by
    simp only [ln, s, nodeSprout, Sprout.grown]
    rfl
  -- the planted logical node stands below its logical device before it is checked
  have hstands : (dev.adopt ln).Stands g₁.model := by
    have hextended := Branch.stands_extended hdev s none none
    simp only [Branch.extended, Branch.withSpace?_none] at hextended
    rw [hmodel]
    exact hextended
  have hbelow : ln ∈ (dev.adopt ln).branches := by simp
  have hcheck := checkNode_eq (r := r) (o := o) hstands hbelow hconfig inst
  simp only [Branch.id_adopt, hid] at hcheck
  show (addNode r o subject inst dev.id g config).model = _ ∧
    ∃ n, (addNode r o subject inst dev.id g config).journal.toList = _
  rw [hadd, hcheck]
  refine ⟨?_, n, ?_⟩
  · simp only [Growth.onModel, Growth.report, hmodel]
    rfl
  · simp only [Growth.onModel, Growth.report, Array.toList_appendList, hjournal, Branch.name_adopt]
    rfl

/-! ## Logical devices -/

section Alike

variable {b b' : Branch} (h : b.Alike b')
include h

theorem plateFindings_alike (inst device : String) :
    plateFindings o inst device b' = plateFindings o inst device b := by
  unfold plateFindings plateSpacesFindings
  simp only [h.config, configRevFindings_alike h, plateSpaceFindings_alike h]

theorem givenSpace?_alike : givenSpace? o b' = givenSpace? o b := by
  unfold givenSpace? deviceSpace?
  simp only [h.config, effectiveSpace?_alike h]

theorem ownSpace?_alike : ownSpace? o b' = ownSpace? o b := by
  unfold ownSpace?
  simp only [h.config, effectiveSpace?_alike h]

end Alike

/-- The namespaces of a logical device and of its logical nodes are those that the checks of the
logical nodes have set; the last one that the logical device was given counts. -/
structure Settled (o : ResolveOptions) (dev : Branch) : Prop where
  device : ∀ {inst space}, dev.node.kind = .device inst space →
    space = (dev.branches.filterMap (givenSpace? o)).getLast?
  nodes : ∀ ln ∈ dev.branches, ∀ {config space}, ln.node.kind = .logicalNode config space →
    space = ownSpace? o ln

/-- What is found about the name plates of the logical nodes of a logical device. -/
def deviceFindings (o : ResolveOptions) (dev : Branch) : List Finding :=
  match dev.node.kind with
  | .device inst _ => dev.branches.flatMap (plateFindings o inst dev.name)
  | _ => []

section Extended

variable {s : Sprout} {inst : String} {id : Nat} (hk : dev.node.kind.bare = .device inst none)
include hk

theorem deviceFindings_extended (space space' : Option Namespace) :
    deviceFindings o (dev.extended s id space space') = deviceFindings o dev ++
      plateFindings o inst dev.name
        (s.grown dev.id (dev.ref ++ dev.node.kind.separator) id) := by
  obtain ⟨space₀, hkind⟩ := NodeKind.exists_of_bare hk
  unfold deviceFindings Branch.extended
  simp [Node.withSpace?, Node.adopt, hkind, NodeKind.withSpace?,
    plateFindings_alike (Branch.alike_withSpace? ..)]

theorem Settled.extended (h : Settled o dev) {config : LogicalNode}
    (hs : (s.grown dev.id (dev.ref ++ dev.node.kind.separator) id).node.kind =
      .logicalNode config none) :
    let ln := s.grown dev.id (dev.ref ++ dev.node.kind.separator) id
    Settled o (dev.extended s id (givenSpace? o ln) (ownSpace? o ln)) := by
  intro ln
  obtain ⟨space₀, hkind⟩ := NodeKind.exists_of_bare hk
  have halike := Branch.alike_withSpace? (ownSpace? o ln) ln
  constructor
  · intro inst' space hspace
    simp only [Branch.extended, Branch.node_withSpace?, Branch.node_adopt, Node.withSpace?,
      Node.adopt, hkind, NodeKind.withSpace?, NodeKind.device.injEq] at hspace
    obtain ⟨-, rfl⟩ := hspace
    simp only [Branch.extended, Branch.branches_withSpace?, Branch.branches_adopt,
      List.filterMap_append, List.getLast?_append, ← h.device hkind]
    -- the last one given is that of the new logical node, if it has one
    have hgiven : givenSpace? o (ln.withSpace? (ownSpace? o ln)) = givenSpace? o ln :=
      givenSpace?_alike halike
    cases hln : givenSpace? o ln <;> simp [ln, hgiven, hln]
  · intro b hb config' space hspace
    simp only [Branch.extended, Branch.branches_withSpace?, Branch.branches_adopt, List.mem_append,
      List.mem_singleton] at hb
    rcases hb with hb | rfl
    · exact h.nodes b hb hspace
    · rw [ownSpace?_alike halike]
      simp only [Branch.node_withSpace?, Node.withSpace?, ln, hs, NodeKind.withSpace?,
        Option.or_none, NodeKind.logicalNode.injEq] at hspace
      exact hspace.2.symm

end Extended

/-! ## What is found, by topic -/

section Topics

variable {f : Finding} {inst device : String}

theorem topic_plateSpacesFindings {config : LogicalNode}
    (h : f ∈ plateSpacesFindings device ln config) : f.topic = .space := by
  unfold plateSpacesFindings plateSpaceFindings at h
  rcases List.mem_append.mp h with h | h
  · split at h
    · exact topic_spaceFindings h
    · exact absurd h List.not_mem_nil
  · exact topic_spaceFindings h

variable {m : IedModel} {config : LogicalNode}

/-- What is found about the revision. -/
theorem mem_plateFindings_revision (hconfig : ln.node.kind.config? = some config) :
    f ∈ plateFindings o inst device ln ∧ f.topic = .revision ↔
      o.checkConfigRev ∧ config.lnClass = "LLN0" ∧ f ∈ configRevFindings inst ln := by
  simp only [plateFindings, hconfig, List.mem_append]
  constructor
  · rintro ⟨h | h, htopic⟩
    · split at h
      · rename_i hrev
        simp only [Bool.and_eq_true, decide_eq_true_eq] at hrev
        exact ⟨hrev.1, hrev.2, h⟩
      · exact absurd h List.not_mem_nil
    · split at h
      · simp [topic_plateSpacesFindings h] at htopic
      · exact absurd h List.not_mem_nil
  · rintro ⟨hrev, hclass, h⟩
    simp [hrev, hclass, h, topic_configRevFindings h]

/-- What is found about the namespaces. -/
theorem mem_plateFindings_space (hconfig : ln.node.kind.config? = some config) :
    f ∈ plateFindings o inst device ln ∧ f.topic = .space ↔
      o.checkNamespaces ∧ f ∈ plateSpacesFindings device ln config := by
  simp only [plateFindings, hconfig, List.mem_append]
  constructor
  · rintro ⟨h | h, htopic⟩
    · split at h
      · simp [topic_configRevFindings h] at htopic
      · exact absurd h List.not_mem_nil
    · split at h
      · rename_i hspaces
        exact ⟨hspaces, h⟩
      · exact absurd h List.not_mem_nil
  · rintro ⟨hspaces, h⟩
    simp [hspaces, h, topic_plateSpacesFindings h]

theorem topic_plateFindings (h : f ∈ plateFindings o inst device ln) :
    f.topic = .revision ∨ f.topic = .space := by
  unfold plateFindings at h
  split at h
  · exact absurd h List.not_mem_nil
  · rcases List.mem_append.mp h with h | h
    · split at h
      · exact Or.inl (topic_configRevFindings h)
      · exact absurd h List.not_mem_nil
    · split at h
      · exact Or.inr (topic_plateSpacesFindings h)
      · exact absurd h List.not_mem_nil

theorem exists_deviceFindings_iff : (∃ dev, dev.Stands m ∧ dev.node.kind.isDevice ∧
    f ∈ deviceFindings o dev) ↔ ∃ dev inst ln config, Branch.IsNodeOf m dev inst ln config ∧
      f ∈ plateFindings o inst dev.name ln := by
  constructor
  · rintro ⟨dev, hdev, hk, hf⟩
    obtain ⟨inst, space, hkind⟩ := NodeKind.exists_of_isDevice hk
    rw [deviceFindings, hkind] at hf
    obtain ⟨ln, hln, hf⟩ := List.mem_flatMap.mp hf
    cases hconfig : ln.node.kind.config? with
    | none => simp [plateFindings, hconfig] at hf
    | some config => exact ⟨dev, inst, ln, config, ⟨hdev, ⟨space, hkind⟩, hln, hconfig⟩, hf⟩
  · rintro ⟨dev, inst, ln, config, ⟨hdev, ⟨space, hkind⟩, hln, -⟩, hf⟩
    refine ⟨dev, hdev, by simp [hkind, NodeKind.isDevice], ?_⟩
    rw [deviceFindings, hkind]
    exact List.mem_flatMap.mpr ⟨ln, hln, hf⟩

end Topics

/-! ## All logical devices -/

/-- The topics of what is found about the name plates, apart from values. -/
def plateTopics : List Topic := [.revision, .space]

/-- What the checks of the logical nodes so far have left behind. -/
structure Plated (o : ResolveOptions) (m : IedModel) (es : List Entry) : Prop where
  settled : ∀ dev, dev.Stands m → dev.node.kind.isDevice → Settled o dev
  found : ∀ f, f.topic ∈ plateTopics → (.finding f ∈ es ↔
    ∃ dev, dev.Stands m ∧ dev.node.kind.isDevice ∧ f ∈ deviceFindings o dev)

namespace Plated

variable {m : IedModel} {es es' : List Entry}

theorem start (o : ResolveOptions) (name : String) (n : Note) :
    Plated o { name } [.note n] where
  settled dev hdev := absurd (IedModel.lt_size_of_node? hdev.node?) (Nat.not_lt_zero _)
  found f _ := by
    refine iff_of_false (by simp) ?_
    rintro ⟨dev, hdev, -⟩
    exact absurd (IedModel.lt_size_of_node? hdev.node?) (Nat.not_lt_zero _)

theorem addDevice (h : Plated o m es) (hm : m.Lawful) (name inst : String) :
    Plated o (m.addDevice name inst) es where
  settled dev hdev hk := by
    rcases (Branch.stands_addDevice_iff hm name inst).mp ⟨hdev, hk⟩ with ⟨hold, -⟩ | rfl
    · exact h.settled dev hold hk
    · constructor
      · intro inst' space hkind
        obtain ⟨-, rfl⟩ := NodeKind.device.inj hkind
        rfl
      · intro ln hln
        exact absurd hln List.not_mem_nil
  found f hf := by
    rw [h.found f hf]
    constructor
    · rintro ⟨dev, hdev, hk, hfound⟩
      obtain ⟨hnew, -⟩ := (Branch.stands_addDevice_iff hm name inst).mpr (Or.inl ⟨hdev, hk⟩)
      exact ⟨dev, hnew, hk, hfound⟩
    · rintro ⟨dev, hdev, hk, hfound⟩
      rcases (Branch.stands_addDevice_iff hm name inst).mp ⟨hdev, hk⟩ with ⟨hold, -⟩ | rfl
      · exact ⟨dev, hold, hk, hfound⟩
      · exact absurd hfound List.not_mem_nil

/-- Entries about other things make no difference. -/
theorem append (h : Plated o m es) {ts : List Topic} (hts : ∀ t ∈ ts, t ∉ plateTopics)
    (hes : About ts es') : Plated o m (es ++ es') where
  settled := h.settled
  found f hf := by
    rw [List.mem_append, or_iff_left fun hmem => hts _ (hes f hmem) hf, h.found f hf]

/-- A logical node more, with what is found about its name plate. -/
theorem plant (h : Plated o m es) (hm : m.Lawful) (hdev : dev.Stands m) {inst : String}
    (hk : dev.node.kind.bare = .device inst none) {s : Sprout} (hs : s.Under dev.node.kind)
    {config : LogicalNode}
    (hkind : (s.grown dev.id (dev.ref ++ dev.node.kind.separator) m.size).node.kind =
      .logicalNode config none) :
    let ln := s.grown dev.id (dev.ref ++ dev.node.kind.separator) m.size
    Plated o (m.plantSpaced dev.id s (givenSpace? o ln) (ownSpace? o ln))
      (es ++ (plateFindings o inst dev.name ln).map .finding) := by
  intro ln
  have hdevice := NodeKind.isDevice_of_bare hk
  have hstands {c : Branch} := Branch.stands_plantSpaced_iff (c := c) hm hdev s (givenSpace? o ln)
    (ownSpace? o ln) hdevice hs
  constructor
  · intro c hc hck
    rcases hstands.mp ⟨hc, hck⟩ with ⟨hold, -, -⟩ | rfl
    · exact h.settled c hold hck
    · exact (h.settled dev hdev hdevice).extended hk hkind
  · intro f hf
    have hfound : f ∈ deviceFindings o (dev.extended s m.size (givenSpace? o ln) (ownSpace? o ln)) ↔
        f ∈ deviceFindings o dev ∨ f ∈ plateFindings o inst dev.name ln := by
      rw [deviceFindings_extended hk, List.mem_append]
    rw [List.mem_append, h.found f hf]
    simp only [List.mem_map, Entry.finding.injEq, exists_eq_right]
    constructor
    · rintro (⟨c, hc, hck, hcf⟩ | hnew)
      · by_cases hid : c.id = dev.id
        · obtain rfl := hc.unique hdev hid
          obtain ⟨hext, hextk⟩ := hstands.mpr (Or.inr rfl)
          exact ⟨_, hext, hextk, hfound.mpr (Or.inl hcf)⟩
        · obtain ⟨hc', -⟩ := hstands.mpr (Or.inl ⟨hc, hck, hid⟩)
          exact ⟨c, hc', hck, hcf⟩
      · obtain ⟨hext, hextk⟩ := hstands.mpr (Or.inr rfl)
        exact ⟨_, hext, hextk, hfound.mpr (Or.inr hnew)⟩
    · rintro ⟨c, hc, hck, hcf⟩
      rcases hstands.mp ⟨hc, hck⟩ with ⟨hold, -, -⟩ | rfl
      · exact Or.inl ⟨c, hold, hck, hcf⟩
      · exact (hfound.mp hcf).imp_left fun hcf => ⟨dev, hdev, hdevice, hcf⟩

/-- A logical node more, with all that it brings into the journal. -/
theorem addNode (h : Plated o g.model g.journal.toList) (hm : g.model.Lawful)
    (hdev : dev.Stands g.model) {inst : String} (hk : dev.node.kind.bare = .device inst none)
    (subject : Subject) (config : LogicalNode) :
    let g' := addNode r o subject inst dev.id g config
    Plated o g'.model g'.journal.toList := by
  intro g'
  obtain ⟨hmodel, n, hjournal⟩ := addNode_eq (r := r) (o := o) hm hdev subject inst config
  let ref := dev.ref ++ dev.node.kind.separator ++ config.name
  let s := nodeSprout r o.maxDepth o.maxDepth ref config
  let ln := s.grown dev.id (dev.ref ++ dev.node.kind.separator) g.model.size
  have hvalues : About [.value] ((instanceFindings r ln).map .finding) :=
    about_map_finding.mpr fun f hf => by simp [topic_instanceFindings hf]
  have hnote : About [] [.note n] := about_note_cons.mpr about_nil
  have hbefore : Plated o g.model (g.journal.toList ++ expansionEntries r o.maxDepth ref config ++
      [.note n] ++ (instanceFindings r ln).map .finding) :=
    ((h.append (by decide) (about_expansionEntries o.maxDepth ref config)).append
      (by decide) hnote).append (by decide) hvalues
  have hunder : s.Under dev.node.kind :=
    nodeSprout_under (NodeKind.isDevice_of_bare hk) _ _ _ _
  have hkind : ln.node.kind = .logicalNode config none := by
    simp only [ln, s, nodeSprout, Sprout.grown]
    rfl
  have hplanted := hbefore.plant hm hdev hk hunder hkind
  show Plated o (Resolution.addNode r o subject inst dev.id g config).model
    (Resolution.addNode r o subject inst dev.id g config).journal.toList
  rw [hmodel, hjournal, List.map_append, ← List.append_assoc]
  exact hplanted

end Plated

/-! ## The whole resolution -/

variable (d : Document) (i : Ied) (a : AccessPoint)

theorem plated_built :
    Plated o (built d o i a).model (built d o i a).journal.toList :=
  (built_induction d o i a (Q := fun g => Plated o g.model g.journal.toList)
    (.start o i.name (.resolving ⟨i.name, a.name⟩))
    (fun _ name inst hm hg => hg.addDevice hm name inst)
    (fun g device n inst config hm hn hk hg => by
      obtain ⟨dev, hdev, rfl⟩ := Branch.exists_stands hm.forest (IedModel.lt_size_of_node? hn)
      obtain rfl := Option.some.inj (hdev.node?.symm.trans hn)
      exact hg.addNode hm hdev hk _ config)).2

/-- **What a resolution leaves on the name plates and says about them.** -/
theorem plated_ofAccessPoint :
    Plated o (ofAccessPoint d o i a).model (ofAccessPoint d o i a).journal := by
  obtain ⟨es, hes, habout⟩ := ofAccessPoint_adds d o i a
  rw [hes, model_ofAccessPoint]
  exact (plated_built d i a).append (by decide) habout

theorem plated_of_resolve {d : Document} {ied : String} {ap : Option String} {res : Resolution}
    (h : resolve d ied ap o = .ok res) : Plated o res.model res.journal := by
  obtain ⟨i, a, -, -, rfl⟩ := exists_of_resolve h
  exact plated_ofAccessPoint d i a

/-- The log has an issue about a name plate, which can be told from how the message begins, if and
only if it was found on that of a logical node. -/
theorem mem_issues_iff_of_isPrefix {d : Document} {ied : String} {ap : Option String}
    {res : Resolution} (h : resolve d ied ap o = .ok res) {t : Topic} (ht : t ∈ plateTopics)
    {opening : List Char} (hopening : opening ∈ t.openings) {i : Issue}
    (hi : opening <+: i.message.toList) : i ∈ res.issues.issues ↔
      ∃ dev inst ln config, Branch.IsNodeOf res.model dev inst ln config ∧
        ∃ f, (f ∈ plateFindings o inst dev.name ln ∧ f.topic = t) ∧ f.issue = i := by
  have hplated := plated_of_resolve h
  obtain ⟨ied, ap, -, -, rfl⟩ := exists_of_resolve h
  have hresolution : t ∈ resolutionTopics :=
    (by decide : ∀ t ∈ plateTopics, t ∈ resolutionTopics) t ht
  rw [Resolution.issues, mem_issueLog, mem_issuesOf]
  constructor
  · rintro ⟨f, hmem, rfl⟩
    have htopic : f.topic = t :=
      topic_eq_of_isPrefix (about_ofAccessPoint d o ied ap f hmem) hresolution hopening hi
    have hfound := (hplated.found f (htopic ▸ ht)).mp hmem
    obtain ⟨dev, inst, ln, config, hnode, hf⟩ := exists_deviceFindings_iff.mp hfound
    exact ⟨dev, inst, ln, config, hnode, f, ⟨hf, htopic⟩, rfl⟩
  · rintro ⟨dev, inst, ln, config, hnode, f, ⟨hf, htopic⟩, rfl⟩
    have hfound := exists_deviceFindings_iff.mpr ⟨dev, inst, ln, config, hnode, hf⟩
    exact ⟨f, (hplated.found f (htopic ▸ ht)).mpr hfound, rfl⟩

end Substation.Resolution
