import Mathlib.Data.List.Basic
import Mathlib.Tactic.Common
import Substation.Proofs.DeviceSpaces

/-!
# Namespaces with a definition file

A namespace is accepted if at least four characters follow its first colon (`Namespace.Complete`)
and the path of the whole text is one of those known (`listed_iff`). All but one of these paths are
those of namespaces as the standard writes them (`Namespace.inForm`). The path without a version is
the exception: a text with this path has one separator only, so it is accepted if and only if that
one is the colon.

Results:
* `listed_iff` (`KNOWN_NSD_NAMESPACES`): which paths are known;
* `unlisted_namespaces_reported` (`check_one`): which namespaces are warned about;
* `namespace_without_version_reported`: a known path without a version.
-/

namespace Substation

open Substation.Config
open Substation.Journal
open Substation.Model
open Substation.Resolution
open Substation.Template

namespace Model.Namespace

/-- At least four characters follow the first colon. -/
def Complete (text : String) : Prop :=
  ∃ front back : List Char, text.toList = front ++ ':' :: back ∧ ':' ∉ front ∧ 4 ≤ back.length

/-- A character as it stands in a path. -/
def pathChar (c : Char) : Char := if c = ' ' ∨ c = ':' then '_' else c

/-- A namespace as the standard writes it: a part of the standard and an edition of that. -/
def inForm (part edition : String) : String := "IEC 61850-" ++ part ++ ":" ++ edition

theorem pathOf_eq (text : String) : pathOf text = String.ofList (text.toList.map pathChar) := by
  unfold pathOf Text.replaceChars
  refine congrArg String.ofList (List.map_congr_left fun c _ => ?_)
  by_cases hspace : c = ' '
  · simp [pathChar, hspace]
  · by_cases hcolon : c = ':'
    · simp [pathChar, hcolon]
    · simp [pathChar, hspace, hcolon]

theorem parse?_of_first_colon {text : String} {front back : List Char}
    (htext : text.toList = front ++ ':' :: back) (hfront : ':' ∉ front) :
    (parse? text).isSome ↔ 4 ≤ back.length := by
  unfold parse?
  rw [Text.splitFirst?_append hfront htext]
  simp only [String.toList_ofList, List.length_take]
  split
  · simp
    omega
  · simp
    omega

/-- **A namespace can be read if and only if four characters follow its first colon.** -/
theorem isSome_parse?_iff (text : String) : (parse? text).isSome ↔ Complete text := by
  by_cases hcolon : ':' ∈ text.toList
  · obtain ⟨front, back, htext, hfront⟩ := List.eq_append_cons_of_mem hcolon
    rw [parse?_of_first_colon htext hfront]
    constructor
    · intro hback
      exact ⟨front, back, htext, hfront, hback⟩
    · rintro ⟨front', back', htext', hfront', hback⟩
      obtain ⟨-, rfl⟩ := Text.append_cons_inj_left hfront hfront' (htext.symm.trans htext')
      exact hback
  · refine iff_of_false ?_ ?_
    · rw [parse?, Text.splitFirst?_of_not_mem hcolon]
      simp
    · rintro ⟨front, back, htext, -⟩
      exact hcolon (htext ▸ by simp)

/-- **A namespace is listed** if it can be read and its path is known. -/
theorem listed_iff (text : String) : Listed text ↔
    Complete text ∧ String.ofList (text.toList.map pathChar) ∈ knownPaths := by
  rw [← isSome_parse?_iff, ← pathOf_eq, Option.isSome_iff_exists]
  constructor
  · rintro ⟨space, hspace, hpath⟩
    rw [(isKnown_of_parse? hspace).1] at hpath
    exact ⟨⟨space, hspace⟩, hpath⟩
  · rintro ⟨⟨space, hspace⟩, hpath⟩
    refine ⟨space, hspace, ?_⟩
    rwa [(isKnown_of_parse? hspace).1]

/-! ## Which paths are reached -/

theorem eq_of_map_pathChar {l l' : List Char} (h : l.map pathChar = l') (hl : '_' ∉ l') :
    l = l' := by
  induction l generalizing l' with
  | nil => exact h
  | cons c l ih =>
    subst h
    rw [List.map_cons, List.mem_cons, not_or] at hl
    have hc : pathChar c = c := by
      by_cases hsep : c = ' ' ∨ c = ':'
      · exact absurd (by simp [pathChar, hsep]) hl.1
      · simp [pathChar, hsep]
    rw [List.map_cons, hc, ← ih rfl hl.2]

/-- The path without a version. -/
def barePath : String := "IEC_61850-7-4"

/-- A text with the path without a version has one separator. -/
theorem toList_of_barePath {text : String}
    (h : String.ofList (text.toList.map pathChar) = barePath) :
    ∃ c, text.toList = ['I', 'E', 'C'] ++ c :: ['6', '1', '8', '5', '0', '-', '7', '-', '4'] := by
  have hmap : text.toList.map pathChar =
      ['I', 'E', 'C'] ++ '_' :: ['6', '1', '8', '5', '0', '-', '7', '-', '4'] := by
    have hlist := congrArg String.toList h
    rw [String.toList_ofList] at hlist
    exact hlist
  obtain ⟨front, rest, hrest, hfront, htail⟩ := List.map_eq_append_iff.mp hmap
  obtain ⟨c, back, rfl, -, hback⟩ := List.map_eq_cons_iff.mp htail
  have hfront := eq_of_map_pathChar hfront (by decide)
  have hback := eq_of_map_pathChar hback (by decide)
  exact ⟨c, by rw [hrest, hfront, hback]⟩

/-- **The path without a version is reached by one text only**, which is not how the standard writes
a namespace. -/
theorem complete_iff_of_barePath {text : String}
    (h : String.ofList (text.toList.map pathChar) = barePath) :
    Complete text ↔ text = "IEC:61850-7-4" := by
  obtain ⟨c, htext⟩ := toList_of_barePath h
  constructor
  · rintro ⟨front, back, hcolon, -⟩
    have hmem : ':' ∈ text.toList := by
      rw [hcolon]
      simp
    have hc : c = ':' := by
      rw [htext] at hmem
      simpa [eq_comm] using hmem
    rw [← String.toList_inj, htext, hc]
    rfl
  · rintro rfl
    refine ⟨['I', 'E', 'C'], ['6', '1', '8', '5', '0', '-', '7', '-', '4'], rfl, ?_, ?_⟩ <;> decide

/-- A namespace as the standard writes it has two separators. -/
theorem path_inForm_ne (part edition : String) :
    String.ofList ((inForm part edition).toList.map pathChar) ≠ barePath := by
  intro h
  obtain ⟨c, htext⟩ := toList_of_barePath h
  have hcolon : ':' ∈ (inForm part edition).toList.drop 4 := by simp [inForm]
  rw [htext] at hcolon
  simp at hcolon

/-- The parts and editions of the standard that are known. -/
def editions : List (String × String) :=
  [("7-4", "2003"), ("7-4", "2007"), ("7-4", "2007A"), ("7-4", "2007B"), ("7-2", "2007A3"),
    ("7-2", "2007B3"), ("7-3", "2007A3"), ("7-3", "2007B3"), ("7-4", "2007A3"), ("7-4", "2007B3"),
    ("7-420", "2019A4"), ("7-420", "2019A"), ("8-1", "2003A2")]

theorem exists_edition : ∀ path ∈ knownPaths, path ≠ barePath → ∃ e ∈ editions,
    Listed (inForm e.1 e.2) ∧ pathOf (inForm e.1 e.2) = path := by
  decide +kernel

/-- **Every path but the one without a version** is that of a namespace as the standard writes
it. -/
theorem exists_inForm_iff {path : String} (hpath : path ∈ knownPaths) :
    (∃ part edition, Listed (inForm part edition) ∧
      String.ofList ((inForm part edition).toList.map pathChar) = path) ↔ path ≠ barePath := by
  constructor
  · rintro ⟨part, edition, -, rfl⟩
    exact path_inForm_ne part edition
  · intro hne
    obtain ⟨e, -, hlisted, he⟩ := exists_edition path hpath hne
    exact ⟨e.1, e.2, hlisted, by rw [← pathOf_eq, he]⟩

end Model.Namespace

namespace Model.Branch.IsNodeOf

variable {m : IedModel} {dev ln : Branch} {inst : String} {config : LogicalNode}

/-- The reference of a logical node is the name of its logical device and its own name. -/
theorem ref_eq (hm : m.Lawful) (h : IsNodeOf m dev inst ln config) :
    ln.ref = dev.name ++ "/" ++ ln.name := by
  obtain ⟨space, hkind⟩ := h.kind
  have htop : dev.node.parent = none :=
    (hm.parent_eq_none_iff h.stands.node?).mpr (by rw [hkind]; rfl)
  have hdev : dev.ref = dev.name := (hm.of_parent_eq_none h.stands.node? htop).2.2
  rw [(h.stands.law_of_mem hm h.mem).2, hdev, hkind]
  rfl

theorem spaceLocation_eq (hm : m.Lawful) (h : IsNodeOf m dev inst ln config) (name : String) :
    spaceLocation dev.name ln.name name = ln.ref ++ ".NamPlt." ++ name := by
  rw [h.ref_eq hm]
  rfl

end Model.Branch.IsNodeOf

/-- The names of the namespaces are of the same length. -/
theorem length_of_mem_spaceNames {config : LogicalNode} {name : String}
    (h : name ∈ spaceNames config) : name.toList.length = 4 := by
  unfold spaceNames at h
  split at h
  · rcases List.mem_cons.mp h with rfl | h
    · rfl
    · obtain rfl := List.mem_singleton.mp h
      rfl
  · obtain rfl := List.mem_singleton.mp h
    rfl

/-- The warning about a namespace tells its value. -/
theorem text_of_unlistedIssue {m : IedModel} (hm : m.Lawful) {dev ln dev' ln' : Branch}
    {inst inst' : String} {config config' : LogicalNode}
    (h : Branch.IsNodeOf m dev inst ln config) (h' : Branch.IsNodeOf m dev' inst' ln' config')
    {name name' : String} (hname : name ∈ spaceNames config) (hname' : name' ∈ spaceNames config')
    {text text' : String}
    (heq : unlistedIssue dev.name ln name text = unlistedIssue dev'.name ln' name' text') :
    text = text' := by
  have href : ln.ref = ln'.ref := congrArg Issue.object heq
  have hmessage := congrArg (fun i : Issue => i.message.toList) heq
  simp only [unlistedIssue, h.spaceLocation_eq hm, h'.spaceLocation_eq hm, href,
    String.toList_append, List.append_assoc, List.append_cancel_left_eq] at hmessage
  obtain ⟨-, hrest⟩ := List.append_inj hmessage
    ((length_of_mem_spaceNames hname).trans (length_of_mem_spaceNames hname').symm)
  exact String.toList_inj.mp (List.append_cancel_left hrest)

/-- **Listed namespaces are not warned about.** The warning about an effective value is in the log
if and only if the value cannot be read or its path is not known; and of the paths that are known
all but one are those of namespaces as the standard writes them. -/
theorem unlisted_namespaces_reported {d : Document} {ied : String} {ap : Option String}
    {o : ResolveOptions} {res : Resolution} (h : resolve d ied ap o = .ok res)
    (hspaces : o.checkNamespaces) :
    (∀ dev inst ln config, Branch.IsNodeOf res.model dev inst ln config →
      ∀ name ∈ spaceNames config, ∀ text, effectiveSpace? ln config name = some text →
        (unlistedIssue dev.name ln name text ∈ res.issues.warnings ↔
          ¬ (Namespace.Complete text ∧
            String.ofList (text.toList.map Namespace.pathChar) ∈ Namespace.knownPaths))) ∧
    (∀ path ∈ Namespace.knownPaths, (∃ part edition,
      Namespace.Listed (Namespace.inForm part edition) ∧
        String.ofList ((Namespace.inForm part edition).toList.map Namespace.pathChar) = path) ↔
      path ≠ Namespace.barePath) ∧
    ∀ text, String.ofList (text.toList.map Namespace.pathChar) = Namespace.barePath →
      (Namespace.Listed text ↔ text = "IEC:61850-7-4") := by
  obtain ⟨i, a, -, -, hstage⟩ := stage_of_resolve h
  refine ⟨?_, fun path => Namespace.exists_inForm_iff, ?_⟩
  · intro dev inst ln config hnode name hname text heff
    have hopening : ['N', 'a', 'm'] <+: (unlistedIssue dev.name ln name text).message.toList := by
      simp [unlistedIssue]
    have hwarning : (unlistedIssue dev.name ln name text).severity = .warning := rfl
    rw [IssueLog.warnings, IssueLog.mem_ofSeverity_iff hwarning, ← Namespace.listed_iff,
      mem_issues_iff_spaceIssue h hspaces hopening]
    constructor
    · rintro ⟨dev', inst', ln', config', hnode', name', hname', hreport⟩
      generalize heq : unlistedIssue dev.name ln name text = issue at hreport
      cases hreport with
      | noValue =>
        have hseverity := congrArg Issue.severity heq
        simp [unlistedIssue, noSpaceIssue] at hseverity
      | notListed heff' hlisted =>
        obtain rfl := text_of_unlistedIssue hstage.lawful hnode hnode' hname hname' heq
        exact hlisted
    · intro hlisted
      exact ⟨dev, inst, ln, config, hnode, name, hname, .notListed heff hlisted⟩
  · intro text hpath
    have hknown : String.ofList (text.toList.map Namespace.pathChar) ∈ Namespace.knownPaths := by
      rw [hpath]
      decide
    rw [Namespace.listed_iff, Namespace.complete_iff_of_barePath hpath]
    exact and_iff_left hknown

/-- A logical device with the namespace that has no version; that of its logical node has one. -/
def bareDevice : LogicalDevice :=
  ⟨"LD", none, none,
    some (plateNode "" [("ldNs", "IEC 61850-7-4"), ("lnNs", "IEC 61850-7-4:2007B3")]), []⟩

/-- A document with that logical device. -/
def bareDocument : Document :=
  ⟨⟨none, none, none, none, none, [⟨"E", none, none, none, [⟨"A", some ⟨[bareDevice]⟩⟩]⟩], none⟩,
    plateTypes, []⟩

/-- The warning about that namespace. -/
def bareWarning : Issue :=
  ⟨.warning, "Model integrity",
    "Namespace on ELD/LLN0.NamPlt.ldNs not found on NSD files. Value: IEC 61850-7-4", "ELD/LLN0"⟩

/-- The logical node of that document, with the warnings about it. -/
theorem exists_bareNode : ∃ res dev ln config, resolve bareDocument "E" none {} = .ok res ∧
    Branch.IsNodeOf res.model dev "LD" ln config ∧ spaceNames config = ["ldNs", "lnNs"] ∧
      effectiveSpace? ln config "ldNs" = some "IEC 61850-7-4" ∧
      effectiveSpace? ln config "lnNs" = some "IEC 61850-7-4:2007B3" ∧
      unlistedIssue dev.name ln "ldNs" "IEC 61850-7-4" = bareWarning ∧
      res.issues.warnings = [bareWarning] := by
  have hresolve : ∃ res, resolve bareDocument "E" none {} = .ok res ∧
      res.model.inst? 0 = some "LD" ∧
      ((res.model.branch? 0).any fun dev => dev.branches.any fun ln =>
        ln.node.kind.config?.any fun config => spaceNames config = ["ldNs", "lnNs"] ∧
          effectiveSpace? ln config "ldNs" = some "IEC 61850-7-4" ∧
          effectiveSpace? ln config "lnNs" = some "IEC 61850-7-4:2007B3" ∧
          unlistedIssue dev.name ln "ldNs" "IEC 61850-7-4" = bareWarning) ∧
      res.issues.warnings = [bareWarning] :=
    ⟨_, rfl, by decide +kernel, by decide +kernel, by decide +kernel⟩
  obtain ⟨res, hres, hinst, hcheck, hwarnings⟩ := hresolve
  obtain ⟨i, a, -, -, hstage⟩ := stage_of_resolve hres
  obtain ⟨dev, ln, config, hnode, hcheck⟩ :=
    Branch.exists_isNodeOf hstage.lawful.forest hinst hcheck
  obtain ⟨hnames, hbare, hlisted, hissue⟩ := of_decide_eq_true hcheck
  exact ⟨res, dev, ln, config, hres, hnode, hnames, hbare, hlisted, hissue, hwarnings⟩

/-- The namespace of the logical node is not warned about. -/
theorem unlisted_namespaces_reported_versioned : ∃ res dev ln config,
    resolve bareDocument "E" none {} = .ok res ∧ Branch.IsNodeOf res.model dev "LD" ln config ∧
      "lnNs" ∈ spaceNames config ∧
      effectiveSpace? ln config "lnNs" = some "IEC 61850-7-4:2007B3" ∧
      unlistedIssue dev.name ln "lnNs" "IEC 61850-7-4:2007B3" ∉ res.issues.warnings := by
  obtain ⟨res, dev, ln, config, hres, hnode, hnames, -, heff, -⟩ := exists_bareNode
  have hname : "lnNs" ∈ spaceNames config := by simp [hnames]
  refine ⟨res, dev, ln, config, hres, hnode, hname, heff, ?_⟩
  rw [(unlisted_namespaces_reported hres rfl).1 dev "LD" ln config hnode "lnNs" hname _ heff,
    not_not, ← Namespace.listed_iff]
  decide +kernel

/-- The namespace of the logical device is warned about, although its path is known. -/
theorem namespace_without_version_reported : ∃ res dev ln config,
    resolve bareDocument "E" none {} = .ok res ∧ Branch.IsNodeOf res.model dev "LD" ln config ∧
      "ldNs" ∈ spaceNames config ∧ effectiveSpace? ln config "ldNs" = some "IEC 61850-7-4" ∧
      String.ofList ("IEC 61850-7-4".toList.map Namespace.pathChar) ∈ Namespace.knownPaths ∧
      unlistedIssue dev.name ln "ldNs" "IEC 61850-7-4" ∈ res.issues.warnings := by
  obtain ⟨res, dev, ln, config, hres, hnode, hnames, heff, -, hissue, hwarnings⟩ := exists_bareNode
  refine ⟨res, dev, ln, config, hres, hnode, by simp [hnames], heff, by decide +kernel, ?_⟩
  rw [hissue, hwarnings]
  exact List.mem_singleton.mpr rfl

end Substation
