import Mathlib.Data.List.DropRight
import Mathlib.Data.List.Nodup
import Mathlib.Tactic.Common
import Substation.Proofs.EmittedBlocks

/-!
# Instances of report control blocks

A report control block with several instances is written once for each of them, with the number of
the instance behind its name (`report_instances_written`). The number can be read off the name
again, and what is left is the name of the block, as long as that does not end in a digit itself.
So the lines of a control block have names of their own (`InstanceNames.nodup`), and so have the
lines of all control blocks of a logical node (`nodup_flatMap_instanceNames`), up to any number of
instances.

Results:
* `InstanceNames.nodup`, `nodup_flatMap_instanceNames` (`write_report_instance`): the lines have
  names of their own;
* `report_instances_written` (`write_report_control`): the lines of report control blocks.
-/

namespace Substation

open Substation.Config
open Substation.Emission
open Substation.Model

namespace Text

/-! ## Numbers behind a name -/

/-- A number in decimal digits, two of them at least. -/
def twoDigits (n : Nat) : String := if n < 10 then "0" ++ toString n else toString n

theorem padded_two (n : Nat) : padded 2 n = twoDigits n := by
  have hlength := Nat.length_toDigits_le_iff (b := 10) (n := n) (k := 1) (by decide) (by decide)
  have hpos := Nat.length_toDigits_pos (b := 10) (n := n)
  rw [← String.toList_inj, toList_padded, twoDigits]
  split
  · have hone : (Nat.toDigits 10 n).length = 1 := by omega
    rw [hone, String.toList_append, toList_toString_nat]
    rfl
  · have hnone : 2 - (Nat.toDigits 10 n).length = 0 := by omega
    rw [hnone, toList_toString_nat]
    rfl

theorem twoDigits_inj {n n' : Nat} (h : twoDigits n = twoDigits n') : n = n' := by
  rw [← padded_two, ← padded_two] at h
  rw [← digitsValue_padded 2 n, h, digitsValue_padded]

theorem isDigit_twoDigits {n : Nat} {c : Char} (h : c ∈ (twoDigits n).toList) :
    c.isDigit = true := by
  rw [← padded_two] at h
  exact isDigit_padded h

/-- The last character is a digit. -/
def EndsInDigit (s : String) : Prop := s.toList.getLast?.any Char.isDigit = true

instance : DecidablePred EndsInDigit := fun s =>
  inferInstanceAs (Decidable (s.toList.getLast?.any Char.isDigit = true))

/-- Digits behind a text can be taken away again. -/
theorem rdropWhile_isDigit {s t : String} (hs : ¬ EndsInDigit s)
    (ht : ∀ c ∈ t.toList, c.isDigit = true) :
    (s ++ t).toList.rdropWhile Char.isDigit = s.toList := by
  have hself : s.toList.rdropWhile Char.isDigit = s.toList :=
    List.rdropWhile_eq_self_iff.mpr fun hne hdigit => hs <| by
      rwa [EndsInDigit, List.getLast?_eq_some_getLast hne]
  have hdrop : (t.toList.reverse ++ s.toList.reverse).dropWhile Char.isDigit =
      s.toList.reverse.dropWhile Char.isDigit :=
    List.dropWhile_append_of_pos fun c hc => ht c (List.mem_reverse.mp hc)
  rw [String.toList_append, List.rdropWhile, List.reverse_append, hdrop]
  exact hself

end Text

open Substation.Text

/-! ## Names of the instances -/

namespace Config.ReportControl

/-- The instances of the control block are numbered up to `m`, as there are several of them and
numbering is not switched off. -/
def NumberedUpTo (c : ReportControl) (m : Int) : Prop :=
  flag c.indexed true = true ∧ (∃ i, c.instances = some i ∧ Config.integer? i.max = some m) ∧ 1 < m

/-- The names that a control block is written with: that of each instance if they are numbered, or
else the one of the block. -/
inductive InstanceNames (c : ReportControl) : List String → Prop
  | numbered {m : Int} (h : c.NumberedUpTo m) :
    InstanceNames c ((List.range m.toNat).map fun i => c.name ++ twoDigits (i + 1))
  | single (h : ∀ m, ¬ c.NumberedUpTo m) : InstanceNames c [c.name]

variable {c : ReportControl} {names names' : List String} {m m' : Int}

theorem NumberedUpTo.eq (h : c.NumberedUpTo m) (h' : c.NumberedUpTo m') : m = m' := by
  obtain ⟨-, ⟨i, hi, hm⟩, -⟩ := h
  obtain ⟨-, ⟨i', hi', hm'⟩, -⟩ := h'
  obtain rfl : i = i' := Option.some.inj (hi.symm.trans hi')
  exact Option.some.inj (hm.symm.trans hm')

/-- The names are determined. -/
theorem InstanceNames.eq (h : c.InstanceNames names) (h' : c.InstanceNames names') :
    names = names' := by
  cases h with
  | numbered hm =>
    cases h' with
    | numbered hm' => rw [hm.eq hm']
    | single hnone => exact absurd hm (hnone _)
  | single hnone =>
    cases h' with
    | numbered hm => exact absurd hm (hnone _)
    | single _ => rfl

theorem InstanceNames.nodup (h : c.InstanceNames names) : names.Nodup := by
  cases h with
  | single _ => exact List.nodup_singleton _
  | numbered _ =>
    refine List.nodup_range.map fun i j hij => ?_
    have hlist := congrArg String.toList hij
    rw [String.toList_append, String.toList_append] at hlist
    have hdigits := String.toList_inj.mp (List.append_cancel_left hlist)
    exact Nat.succ.inj (twoDigits_inj hdigits)

/-- The name of the block can be read off the name of each instance. -/
theorem InstanceNames.rdropWhile_eq (h : c.InstanceNames names) (hend : ¬ EndsInDigit c.name)
    {name : String} (hname : name ∈ names) :
    name.toList.rdropWhile Char.isDigit = c.name.toList := by
  cases h with
  | single _ =>
    have hself := rdropWhile_isDigit (t := "") hend (List.forall_mem_nil _)
    rw [String.append_empty] at hself
    rw [List.mem_singleton.mp hname, hself]
  | numbered _ =>
    obtain ⟨i, -, rfl⟩ := List.mem_map.mp hname
    exact rdropWhile_isDigit hend fun x hx => isDigit_twoDigits hx

/-- Control blocks of different names have no instances of one name. -/
theorem nodup_flatMap_instanceNames {cs : List ReportControl} {names : ReportControl → List String}
    (h : ∀ c : ReportControl, c.InstanceNames (names c)) (hnodup : (cs.map (·.name)).Nodup)
    (hend : ∀ c ∈ cs, ¬ EndsInDigit c.name) : (cs.flatMap names).Nodup := by
  refine List.nodup_flatMap.mpr ⟨fun c _ => (h c).nodup, ?_⟩
  refine (List.pairwise_map.mp hnodup).imp_of_mem fun {c c'} hc hc' hne => ?_
  intro name hname hname'
  apply hne
  rw [← String.toList_inj, ← (h c).rdropWhile_eq (hend c hc) hname,
    (h c').rdropWhile_eq (hend c' hc') hname']

end Config.ReportControl

namespace Emission

/-! ## What is written -/

open Config.ReportControl

theorem instanceCount_cases (c : ReportControl) :
    (∃ m, c.NumberedUpTo m ∧ instanceCount c = some m.toNat) ∨
      (∀ m, ¬ c.NumberedUpTo m) ∧ instanceCount c = none := by
  have hgiven {m : Int} (h : c.NumberedUpTo m) :
      (c.instances.bind fun i => Config.integer? i.max) = some m :=
    Option.bind_eq_some_iff.mpr h.2.1
  unfold instanceCount
  cases hmax : c.instances.bind fun i => Config.integer? i.max with
  | none =>
    refine .inr ⟨fun m hm => ?_, by simp⟩
    exact absurd (hmax.symm.trans (hgiven hm)) (Option.some_ne_none m).symm
  | some max =>
    by_cases h : flag c.indexed true = true ∧ 1 < max
    · exact .inl ⟨max, ⟨h.1, Option.bind_eq_some_iff.mp hmax, h.2⟩, by simp [h.1, h.2]⟩
    · refine .inr ⟨fun m hm => h ⟨hm.1, ?_⟩, by simpa using h⟩
      rw [Option.some.inj (hmax.symm.trans (hgiven hm))]
      exact hm.2.2

namespace ReportStatement

/-- The names of what is written for a control block. -/
theorem instanceNames_expanded (hasOwner : Bool) (c : ReportControl) :
    c.InstanceNames ((ofControl hasOwner c).expanded.map (·.name)) := by
  have hinstances : (ofControl hasOwner c).instances = instanceCount c := rfl
  unfold expanded
  rw [hinstances]
  rcases instanceCount_cases c with ⟨m, hm, hcount⟩ | ⟨hnone, hcount⟩
  · have hnumbered := InstanceNames.numbered hm
    simp only [← padded_two] at hnumbered
    rw [hcount, List.map_map]
    exact hnumbered
  · rw [hcount]
    exact .single hnone

/-- The name is the only field in which the instances of a control block differ. -/
theorem expanded_layout (s : ReportStatement) : s.expanded.map layout =
    (s.expanded.map (·.name)).map fun name =>
      .single (.call "RC" (name :: s.fields.tail.map Field.shown)) (.assignment none) := by
  rw [List.map_map]
  refine List.map_congr_left fun t ht => ?_
  obtain ⟨name, rfl, -⟩ := exists_of_mem_expanded ht
  rfl

end ReportStatement

/-- The report control blocks within the block of a logical node. -/
theorem Setting.exists_reports (w : Setting) (inst : String) (ln : Branch) (config : LogicalNode) :
    ∃ before after, (w.nodeStatement inst ln config).layout =
        .block (.ofName "LN" ln.node.name) (before ++
          (config.reports.flatMap fun c =>
            ((ReportStatement.ofControl w.hasOwner c).expanded.map (·.name)).map fun name =>
              .single (.call "RC" (name ::
                (ReportStatement.ofControl w.hasOwner c).fields.tail.map Field.shown))
                (.assignment none)) ++ after) ∧
      ∀ t ∈ before ++ after, t.tag ≠ "RC" := by
  have hreports := List.flatMap_congr (l := config.reports) fun c _ =>
    (ReportStatement.ofControl w.hasOwner c).expanded_layout
  obtain ⟨before, after, hparts, htags⟩ :=
    (w.nodeStatement inst ln config).exists_split (List.mem_of_getElem? (i := 3) rfl)
  refine ⟨before, after, ?_, fun t ht htag => htags t ht (List.mem_singleton.mpr htag)⟩
  rw [← hreports, ← List.map_flatMap, ← List.flatMap_map]
  exact congrArg (Layout.block (.ofName "LN" ln.node.name)) hparts

end Emission

/-- **Report control blocks are written instance by instance.** In the block of a logical node,
which stands in that of its logical device, the report control blocks stand together and in their
order, nothing in between. One that is numbered up to `m` is a line for each number from one to `m`,
with the number in at least two digits behind the name; every other one is a single line with its
name. The lines of a control block are the same except for the name. If the control blocks of the
logical node have different names, none of which ends in a digit, then no two lines have the same
name. -/
theorem report_instances_written {d : Document} {ied : String} {ap : Option String}
    {ro : ResolveOptions} {res : Resolution} (hres : resolve d ied ap ro = .ok res)
    (o : EmitOptions) :
    ∃ names details : ReportControl → List String,
      (∀ c : ReportControl, c.InstanceNames (names c)) ∧
      ∀ {ln : Nat} {n : Node} {config : LogicalNode} {space : Option Namespace},
        res.model.node? ln = some n → n.kind = .logicalNode config space →
        (∃ dev inst before after, n.parent = some dev ∧ res.model.inst? dev = some inst ∧
          HasBlock (emit d res o none).text inst n.name (before ++
            (config.reports.flatMap fun c => (names c).map fun name =>
              .single (.call "RC" (name :: details c)) (.assignment none)) ++ after) ∧
          ∀ t ∈ before ++ after, t.tag ≠ "RC") ∧
        ((config.reports.map (·.name)).Nodup → (∀ c ∈ config.reports, ¬ EndsInDigit c.name) →
          (config.reports.flatMap names).Nodup) := by
  obtain ⟨i, a, hi, ha, rfl⟩ := Resolution.exists_of_resolve hres
  have hm := (Resolution.stage_ofAccessPoint d ro i a).lawful
  have hnames := ReportStatement.instanceNames_expanded o.hasOwner
  refine ⟨_, fun c => (ReportStatement.ofControl o.hasOwner c).fields.tail.map Field.shown, hnames,
    ?_⟩
  intro ln n config space hn hconfig
  refine ⟨?_, ReportControl.nodup_flatMap_instanceNames hnames⟩
  obtain ⟨b, hb, rfl⟩ := Branch.exists_stands hm.forest (IedModel.lt_size_of_node? hn)
  obtain rfl : b.node = n := Option.some.inj (hb.node?.symm.trans hn)
  obtain ⟨dev, inst, hparent, hinst, hblock⟩ := exists_hasBlock (d := d) (o := o) hm hb hconfig
  obtain ⟨before, after, hlayout, htags⟩ :=
    ((Resolution.ofAccessPoint d ro i a).setting d o).exists_reports inst b config
  rw [hlayout] at hblock
  exact ⟨dev, inst, before, after, hparent, hinst, hblock, htags⟩

/-- A control block with more instances than two digits can number. -/
def manyReports : ReportControl :=
  ⟨"urcb", none, none, none, none, none, none, none, none, none, some ⟨some "100"⟩⟩

/-- A control block whose instances are not numbered. -/
def sharedReport : ReportControl :=
  ⟨"brcb", none, none, none, none, none, none, some "false", none, none, some ⟨some "3"⟩⟩

/-- A logical node with these control blocks. -/
def reportingNode : LogicalNode where
  lnClass := "LLN0"
  lnType := "L"
  inst := ""
  lnPrefix := none
  desc := none
  dataSets := []
  reports := [manyReports, sharedReport]
  logControls := []
  instances := []
  logs := []
  gseControls := []
  sampledControls := []
  settings := none

/-- An access point with that logical node. -/
def reportingPoint : AccessPoint := ⟨"A", some ⟨[⟨"LD", none, none, some reportingNode, []⟩]⟩⟩

/-- A document with that access point. -/
def reportingDocument : Document :=
  ⟨⟨none, none, none, none, none, [⟨"E", none, none, none, [reportingPoint]⟩], none⟩,
    { nodeTypes := ⟨[("L", ⟨"L", "LLN0", []⟩)]⟩ }, []⟩

/-- Only members of data sets are checked. -/
def reportingOptions : ResolveOptions := { checkConfigRev := false, checkNamespaces := false }

/-- The resolution of the document. -/
def reportingResolution : Resolution :=
  .ofAccessPoint reportingDocument reportingOptions ⟨"E", none, none, none, [reportingPoint]⟩
    reportingPoint

/-- Of the two control blocks, a hundred and one lines are written, each with a name of its own. -/
theorem report_instances_written_many :
    resolve reportingDocument "E" none reportingOptions = .ok reportingResolution ∧
    ∃ (names : List String) (many shared : List String) (before after : List Layout),
      names = ((List.range 100).map fun i => "urcb" ++ twoDigits (i + 1)) ∧
      (names ++ ["brcb"]).Nodup ∧
      HasBlock (emit reportingDocument reportingResolution {} none).text "LD" "LLN0" (before ++
        (names.map (fun name => .single (.call "RC" (name :: many)) (.assignment none)) ++
          [.single (.call "RC" ("brcb" :: shared)) (.assignment none)]) ++ after) := by
  have hres : resolve reportingDocument "E" none reportingOptions = .ok reportingResolution := rfl
  obtain ⟨names, details, hnames, hln⟩ := report_instances_written hres {}
  obtain ⟨n, hn, hname, hkind, hparent⟩ : ∃ n, reportingResolution.model.node? 1 = some n ∧
      n.name = "LLN0" ∧ n.kind = .logicalNode reportingNode none ∧ n.parent = some 0 :=
    ⟨_, rfl, rfl, rfl, rfl⟩
  have hmany : manyReports.NumberedUpTo 100 := ⟨by decide, ⟨_, rfl, by decide +kernel⟩, by decide⟩
  have hnone : ∀ m, ¬ sharedReport.NumberedUpTo m := fun m h => absurd h.1 (by decide)
  have hshared := (hnames sharedReport).eq (.single hnone)
  obtain ⟨⟨dev, inst, before, after, hdev, hinst, hblock, -⟩, hnodup⟩ := hln hn hkind
  obtain rfl : 0 = dev := Option.some.inj (hparent.symm.trans hdev)
  obtain rfl : "LD" = inst := Option.some.inj hinst
  have hreports : reportingNode.reports = [manyReports, sharedReport] := rfl
  rw [hreports, List.flatMap_cons, List.flatMap_singleton, hshared] at hblock hnodup
  exact ⟨hres, _, _, _, before, after, (hnames manyReports).eq (.numbered hmany),
    hnodup (by decide) (by decide), hname ▸ hblock⟩

end Substation
