import Mathlib.Data.List.Forall2
import Mathlib.Tactic.Common
import Substation.Proofs.AgreeingRows

/-!
# Static models that agree

The static models of documents that are the same behind a mask agree row by row
(`agrees_of_masked`). What may differ is what the mask hides: a mask admits relations of literals
and of fields (`Hides`) if texts that are the same behind the mask are written as literals and
fields that are so related. The data of a logical node is the same up to the literals, and a control
block is the same up to the fields that hold what the mask hides.
-/

namespace Substation.Emission

open Substation.Config
open Substation.Model
open Substation.Template (Registry AttributeDef)

/-- The name of a log as it is written. -/
def logText (owner : String) (name : Option String) : String :=
  match name.filter (!·.isEmpty) with
  | some log => owner ++ log
  | none => "-"

/-- Texts that are the same behind the mask are written as related literals and fields. -/
structure Hides (k : Mask) (V : Option String → Option String → Prop)
    (F : String → String → Prop) : Prop where
  same : ∀ f, F f f
  optional : ∀ {x y}, k.optional x = k.optional y →
    ∀ default ∈ ["-", "0", "null"], F (textOr default x) (textOr default y)
  log : ∀ {device node x y}, k.log (logOwner device node) x = k.log (logOwner device node) y →
    F (logText (logOwner device node) x) (logText (logOwner device node) y)
  unset : V none none
  value : ∀ {x y}, k.value x = k.value y → ∀ r a, V (literal? r a x) (literal? r a y)

variable {k : Mask} {m m' : IedModel} {V : Option String → Option String → Prop}
  {F : String → String → Prop}

/-! ## Data -/

section Data

variable (lit : Nat → AttributeDef → Option String)

theorem nodeData_masked (ln : Branch) : nodeData lit (ln.masked k m) = nodeData lit ln := by
  rw [Branch.masked_eq_mapNodes]
  exact nodeData_mapNodes lit (m.spares_masked k) ln

theorem agrees_nodeData {lit' : Nat → AttributeDef → Option String}
    (h : ∀ id a, V (lit id a) (lit' id a)) (ln : Branch) :
    List.Forall₂ (Layout.Agrees V F) ((nodeData lit ln).map DataStatement.layout)
      ((nodeData lit' ln).map DataStatement.layout) := by
  rw [List.forall₂_map_left_iff, List.forall₂_map_right_iff, nodeData, nodeData]
  refine List.rel_filterMap (R := (· = ·)) ?_ (List.forall₂_same.mpr fun _ _ => rfl)
  rintro b _ rfl
  exact DataStatement.agrees_dataStatement? h false b

end Data

/-! ## Control blocks -/

theorem agrees_ofCall {tag : String} (htag : tag ∈ controlTags) (name : String)
    {fs fs' : List Field} (h : List.Forall₂ F (fs.map Field.shown) (fs'.map Field.shown)) :
    (Layout.ofCall tag (.text name :: fs)).Agrees V F (.ofCall tag (.text name :: fs')) :=
  .single (.control htag name h) _

theorem agrees_frame {tag : String} (htag : tag ∈ controlTags) (name : String)
    {fs fs' : List Field} (h : List.Forall₂ F (fs.map Field.shown) (fs'.map Field.shown))
    (frame : Option Frame) : (Frame.layout tag (.text name :: fs) frame).Agrees V F
      (Frame.layout tag (.text name :: fs') frame) := by
  cases frame with
  | none => exact agrees_ofCall htag name h
  | some f => exact .block (.control htag name h) (agrees_all _)

section Controls

variable (hk : Hides k V F)
include hk

theorem agrees_report (hasOwner : Bool) {c c' : ReportControl} (h : c.masked k = c'.masked k) :
    List.Forall₂ (Layout.Agrees V F)
      ((ReportStatement.ofControl hasOwner c).expanded.map ReportStatement.layout)
      ((ReportStatement.ofControl hasOwner c').expanded.map ReportStatement.layout) := by
  obtain ⟨rptId, dataSet, bufTime, intgPd, rfl⟩ : ∃ rptId dataSet bufTime intgPd,
      c' = { c with rptId, dataSet, bufTime, intgPd } := by
    cases c
    cases c'
    simp_all [ReportControl.masked]
  let s := ReportStatement.ofControl hasOwner c
  let s' := ReportStatement.ofControl hasOwner { c with rptId, dataSet, bufTime, intgPd }
  have hnamed (name : String) : (s.named name).layout.Agrees V F (s'.named name).layout :=
    agrees_ofCall (by decide) name <|
      .cons (hk.optional (congrArg ReportControl.rptId h :) _ (by decide)) <|
      .cons (hk.same _) <|
      .cons (hk.optional (congrArg ReportControl.dataSet h :) _ (by decide)) <|
      .cons (hk.same _) <| .cons (hk.same _) <| .cons (hk.same _) <|
      .cons (hk.optional (congrArg ReportControl.bufTime h :) _ (by decide)) <|
      .cons (hk.optional (congrArg ReportControl.intgPd h :) _ (by decide)) .nil
  rw [List.forall₂_map_left_iff, List.forall₂_map_right_iff]
  show List.Forall₂ _ s.expanded s'.expanded
  have hinstances : s'.instances = s.instances := rfl
  rw [ReportStatement.expanded, ReportStatement.expanded, hinstances]
  cases s.instances with
  | none => exact .cons (hnamed c.name) .nil
  | some n =>
    show List.Forall₂ _ ((List.range n).map _) ((List.range n).map _)
    rw [List.forall₂_map_left_iff, List.forall₂_map_right_iff, List.forall₂_same]
    exact fun i _ => hnamed (s.instanceName (i + 1))

theorem agrees_logControl (device node : String) {c c' : LogControl}
    (h : c.masked k (logOwner device node) = c'.masked k (logOwner device node)) :
    (LogControlStatement.ofControl device node c).layout.Agrees V F
      (LogControlStatement.ofControl device node c').layout := by
  obtain ⟨dataSet, intgPd, logName, rfl⟩ : ∃ dataSet intgPd logName,
      c' = { c with dataSet, intgPd, logName } := by
    cases c
    cases c'
    simp_all [LogControl.masked]
  exact agrees_ofCall (by decide) c.name <|
    .cons (hk.optional (congrArg LogControl.dataSet h :) _ (by decide)) <|
    .cons (hk.log (congrArg LogControl.logName h :)) <| .cons (hk.same _) <|
    .cons (hk.optional (congrArg LogControl.intgPd h :) _ (by decide)) <| .cons (hk.same _) <|
    .cons (hk.same _) .nil

theorem agrees_gse {codec codec' : Text.HexCodec} (hcodec : codec' = codec)
    {connection connection' : Option ConnectedAp} (hsame : connection' = connection)
    {c c' : GseControl} (h : c.masked k = c'.masked k) :
    (GseStatement.ofControl codec (connection.bind (·.gse? c.name)) c).layout.Agrees V F
      (GseStatement.ofControl codec' (connection'.bind (·.gse? c'.name)) c').layout := by
  subst hcodec hsame
  obtain ⟨appId, dataSet, rfl⟩ : ∃ appId dataSet, c' = { c with appId, dataSet } := by
    cases c
    cases c'
    simp_all [GseControl.masked]
  refine agrees_frame (by decide) c.name ?_ _
  exact .cons (hk.optional (congrArg GseControl.appId h :) _ (by decide)) <|
    .cons (hk.optional (congrArg GseControl.dataSet h :) _ (by decide)) <|
    .cons (hk.same _) <| .cons (hk.same _) <| .cons (hk.same _) <| .cons (hk.same _) .nil

theorem agrees_sampled {codec codec' : Text.HexCodec} (hcodec : codec' = codec)
    {connection connection' : Option ConnectedAp} (hsame : connection' = connection)
    {c c' : SampledControl} (h : c.masked k = c'.masked k) :
    (SampledStatement.ofControl codec (connection.bind (·.sampled? c.name)) c).layout.Agrees V F
      (SampledStatement.ofControl codec' (connection'.bind (·.sampled? c'.name)) c').layout := by
  subst hcodec hsame
  obtain ⟨smvId, dataSet, smpMod, rfl⟩ : ∃ smvId dataSet smpMod,
      c' = { c with smvId, dataSet, smpMod } := by
    cases c
    cases c'
    simp_all [SampledControl.masked]
  refine agrees_frame (by decide) c.name ?_ _
  exact .cons (hk.optional (congrArg SampledControl.smvId h :) _ (by decide)) <|
    .cons (hk.optional (congrArg SampledControl.dataSet h :) _ (by decide)) <|
    .cons (hk.same _) <|
    .cons (hk.optional (congrArg SampledControl.smpMod h :) _ (by decide)) <|
    .cons (hk.same _) <| .cons (hk.same _) <| .cons (hk.same _) .nil

end Controls

/-! ## Models -/

section Models

variable (hk : Hides k V F) {w w' : Setting} (hregistry : w'.registry = w.registry)
  (howner : w'.hasOwner = w.hasOwner) (hcodec : w'.codec = w.codec)
  (hconnection : w'.connection = w.connection) (hmodel : w.model.masked k = w'.model.masked k)
include hk hregistry hmodel

theorem agrees_initialValue? (id : Nat) (a : AttributeDef) :
    V (w.initialValue? id a) (w'.initialValue? id a) := by
  have hvalue (m : IedModel) : ((m.configured? id).bind Dai.value?).map k.value =
      ((m.masked k).configured? id).bind Dai.value? := by
    rw [IedModel.configured?_masked, Option.map_bind, Option.bind_map]
    exact Option.bind_congr fun d _ => (d.value?_masked k).symm
  have hsame := (hvalue w.model).trans ((hmodel ▸ hvalue w'.model).symm)
  rw [Setting.initialValue?, Setting.initialValue?, hregistry]
  generalize (w.model.configured? id).bind Dai.value? = x at hsame ⊢
  generalize (w'.model.configured? id).bind Dai.value? = y at hsame ⊢
  cases x with
  | none =>
    rw [Option.map_eq_none_iff.mp hsame.symm]
    exact hk.unset
  | some x =>
    obtain ⟨y, rfl, hxy⟩ := Option.map_eq_some_iff.mp hsame.symm
    exact hk.value hxy.symm w.registry a

include howner hcodec hconnection

/-- A logical node that is the same behind the mask. -/
theorem agrees_nodeStatement (inst : String) {ln ln' : Branch} {config config' : LogicalNode}
    (hln : ln.masked k w.model = ln'.masked k w'.model)
    (hconfig : config.masked k (logOwner inst ln.name) =
      config'.masked k (logOwner inst ln.name)) :
    (w.nodeStatement inst ln config).layout.Agrees V F
      (w'.nodeStatement inst ln' config').layout := by
  have hnode : ln.node.masked k (w.model.ownerOf ln.node) =
      ln'.node.masked k (w'.model.ownerOf ln'.node) := by
    rw [← Branch.node_masked, ← Branch.node_masked, hln]
  have hname : ln'.name = ln.name := (congrArg Node.name hnode.symm :)
  have href : ln'.ref = ln.ref := (congrArg Node.ref hnode.symm :)
  have hdata : nodeData w'.initialValue? ln' = nodeData w'.initialValue? ln := by
    rw [← nodeData_masked (k := k) (m := w'.model), ← hln, nodeData_masked]
  -- what is not masked is the same
  obtain ⟨reports, logControls, instances, gseControls, sampledControls, rfl⟩ :
      ∃ reports logControls instances gseControls sampledControls, config' =
        { config with reports, logControls, instances, gseControls, sampledControls } := by
    cases config
    cases config'
    simp_all [LogicalNode.masked]
  have hreports := forall₂_of_map_eq (congrArg LogicalNode.reports hconfig)
  have hlogs := forall₂_of_map_eq (congrArg LogicalNode.logControls hconfig)
  have hgse := forall₂_of_map_eq (congrArg LogicalNode.gseControls hconfig)
  have hsampled := forall₂_of_map_eq (congrArg LogicalNode.sampledControls hconfig)
  unfold Setting.nodeStatement NodeStatement.layout NodeStatement.sections
  rw [hname, hdata, howner]
  refine .block (.same _) (List.rel_flatMap (R := fun s s' =>
    List.Forall₂ (Layout.Agrees V F) s.entries s'.entries) ?_ fun _ _ h => h)
  refine .cons (agrees_all _) <| .cons ?_ <| .cons ?_ <| .cons ?_ <| .cons ?_ <|
    .cons (agrees_all _) <| .cons ?_ <| .cons ?_ .nil
  · exact agrees_nodeData _ (agrees_initialValue? hk hregistry hmodel) ln
  · unfold Setting.dataSetStatement
    rw [href]
    exact agrees_all _
  · simp only [List.map_flatMap, List.flatMap_map]
    exact List.rel_flatMap hreports fun _ _ h => agrees_report hk _ h
  · simp only [List.map_map, List.forall₂_map_left_iff, List.forall₂_map_right_iff]
    exact hlogs.imp fun _ _ h => agrees_logControl hk inst ln.name h
  · simp only [List.map_map, List.forall₂_map_left_iff, List.forall₂_map_right_iff]
    exact hgse.imp fun _ _ h => agrees_gse hk hcodec hconnection h
  · simp only [List.map_map, List.forall₂_map_left_iff, List.forall₂_map_right_iff]
    exact hsampled.imp fun _ _ h => agrees_sampled hk hcodec hconnection h

theorem agrees_nodeStatement? {inst : String} {c c' : Branch}
    (howned : w.model.ownerOf c.node = logOwner inst c.name)
    (hsame : c.masked k w.model = c'.masked k w'.model) :
    Option.Rel (fun s s' => s.layout.Agrees V F s'.layout) (w.nodeStatement? inst c)
      (w'.nodeStatement? inst c') := by
  have hnode : c.node.masked k (w.model.ownerOf c.node) =
      c'.node.masked k (w'.model.ownerOf c'.node) := by
    rw [← Branch.node_masked, ← Branch.node_masked, hsame]
  have howned' : w'.model.ownerOf c'.node = logOwner inst c.name := by
    rw [← IedModel.ownerOf_masked k (w'.model.ownerOf c'.node), ← hmodel, ← hnode,
      IedModel.ownerOf_masked, howned]
  have hconfig : c.node.kind.config?.map (LogicalNode.masked k (logOwner inst c.name)) =
      c'.node.kind.config?.map (LogicalNode.masked k (logOwner inst c.name)) := by
    rw [howned, howned'] at hnode
    rw [← NodeKind.config?_masked, ← NodeKind.config?_masked]
    exact congrArg (fun n : Node => n.kind.config?) hnode
  unfold Setting.nodeStatement?
  cases hc : c.node.kind.config? with
  | none =>
    rw [hc] at hconfig
    rw [Option.map_eq_none_iff.mp hconfig.symm]
    exact .none
  | some config =>
    rw [hc] at hconfig
    obtain ⟨config', hc', heq⟩ := Option.map_eq_some_iff.mp hconfig.symm
    rw [hc']
    exact .some
      (agrees_nodeStatement hk hregistry howner hcodec hconnection hmodel inst hsame heq.symm)

theorem agrees_deviceStatement? (hm : w.model.Lawful) {b b' : Branch} (hb : b.Stands w.model)
    (hsame : b.masked k w.model = b'.masked k w'.model) :
    Option.Rel (fun s s' => s.layout.Agrees V F s'.layout) (w.deviceStatement? b)
      (w'.deviceStatement? b') := by
  have hkind : b.node.kind.masked k (w.model.ownerOf b.node) =
      b'.node.kind.masked k (w'.model.ownerOf b'.node) := by
    have hnode := congrArg Branch.node hsame
    rw [Branch.node_masked, Branch.node_masked] at hnode
    exact congrArg Node.kind hnode
  have hbranches : b.branches.map (Branch.masked k w.model) =
      b'.branches.map (Branch.masked k w'.model) := by
    rw [← Branch.branches_masked, ← Branch.branches_masked, hsame]
  unfold Setting.deviceStatement?
  cases hdev : b.node.kind with
  | device inst space =>
    cases hdev' : b'.node.kind with
    | device inst' space' =>
      rw [hdev, hdev'] at hkind
      cases hkind
      refine .some (.block (.same _) ?_)
      rw [List.forall₂_map_left_iff, List.forall₂_map_right_iff]
      refine List.rel_filterMap (R := fun c c' => c ∈ b.branches ∧
        c.masked k w.model = c'.masked k w'.model) ?_ ?_
      · rintro c c' ⟨hc, hsame⟩
        have howned : w.model.ownerOf c.node = logOwner inst c.name := by
          rw [IedModel.ownerOf, hb.parent_of_mem hm hc, Option.bind_some, IedModel.inst?, hb.node?,
            Option.map_some, hdev]
          rfl
        exact agrees_nodeStatement? hk hregistry howner hcodec hconnection hmodel howned hsame
      · obtain ⟨hlength, hzip⟩ := List.forall₂_iff_zip.mp (forall₂_of_map_eq hbranches)
        exact List.forall₂_iff_zip.mpr ⟨hlength, fun h => ⟨(List.of_mem_zip h).1, hzip h⟩⟩
    | _ =>
      rw [hdev, hdev'] at hkind
      cases hkind
  | _ =>
    cases hdev' : b'.node.kind with
    | device inst' space' =>
      rw [hdev, hdev'] at hkind
      cases hkind
    | _ => exact .none

/-- Models that are the same behind a mask are written as static models that agree. -/
theorem agrees_modelStatement (hm : w.model.Lawful) (hm' : w'.model.Lawful) :
    w.modelStatement.layout.Agrees V F w'.modelStatement.layout := by
  have hname : w'.model.name = w.model.name := (congrArg IedModel.name hmodel.symm :)
  have hdevices : w'.model.devices = w.model.devices :=
    (congrArg IedModel.devices hmodel.symm :)
  have hbranch (id : Nat) : (w.model.branch? id).map (Branch.masked k w.model) =
      (w'.model.branch? id).map (Branch.masked k w'.model) := by
    rw [← IedModel.branch?_masked k hm.forest, ← IedModel.branch?_masked k hm'.forest, hmodel]
  unfold Setting.modelStatement ModelStatement.layout
  rw [hname, hdevices, List.filterMap_filterMap, List.filterMap_filterMap]
  refine .block (.same _) ?_
  rw [List.forall₂_map_left_iff, List.forall₂_map_right_iff]
  refine List.rel_filterMap (R := (· = ·)) ?_ (List.forall₂_same.mpr fun _ _ => rfl)
  rintro id _ rfl
  show Option.Rel _ ((w.model.branch? id).bind w.deviceStatement?)
    ((w'.model.branch? id).bind w'.deviceStatement?)
  have hid := hbranch id
  cases hb : w.model.branch? id with
  | none =>
    rw [hb] at hid
    rw [Option.map_eq_none_iff.mp hid.symm]
    exact .none
  | some b =>
    rw [hb] at hid
    obtain ⟨b', hb', hsame⟩ := Option.map_eq_some_iff.mp hid.symm
    rw [hb']
    obtain ⟨hstands, -⟩ := (Branch.branch?_eq_some_iff hm.forest).mp hb
    exact
      agrees_deviceStatement? hk hregistry howner hcodec hconnection hmodel hm hstands hsame.symm

end Models

end Substation.Emission

namespace Substation

open Substation.Config
open Substation.Emission

/-- **Documents that are the same behind a mask are written as static models that agree.** -/
theorem agrees_of_masked {k : Mask} {V : Option String → Option String → Prop}
    {F : String → String → Prop} (hk : Hides k V F) {d d' : Document}
    (h : d.masked k = d'.masked k) {ied : String} {ap : Option String} {o : ResolveOptions}
    {res res' : Resolution} (hres : resolve d ied ap o = .ok res)
    (hres' : resolve d' ied ap o = .ok res') (eo : EmitOptions) :
    (res.statement d eo).layout.Agrees V F (res'.statement d' eo).layout := by
  have hsame := Resolution.masked_resolve k h ied ap o
  rw [hres, hres'] at hsame
  obtain ⟨hsubject, hmodel⟩ := Prod.mk.inj (Except.ok.inj hsame)
  have hregistry : d'.registry = d.registry := (congrArg Document.registry h.symm :)
  have hconnected : d'.connectedAp? = d.connectedAp? :=
    (congrArg Document.connectedAp? h.symm :)
  have hconnection : (res'.setting d' eo).connection = (res.setting d eo).connection := by
    show d'.connectedAp? res'.subject.ap res'.subject.ied = _
    rw [hconnected, ← hsubject]
    rfl
  obtain ⟨_, _, -, -, hstage⟩ := Resolution.stage_of_resolve hres
  obtain ⟨_, _, -, -, hstage'⟩ := Resolution.stage_of_resolve hres'
  show (res.setting d eo).modelStatement.layout.Agrees V F
    (res'.setting d' eo).modelStatement.layout
  exact agrees_modelStatement hk hregistry rfl rfl hconnection hmodel hstage.lawful hstage'.lawful

end Substation
