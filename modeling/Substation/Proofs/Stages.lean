import Mathlib.Data.List.Basic
import Mathlib.Tactic.Common
import Substation.Proofs.Expansion
import Substation.Proofs.Lawful
import Substation.Resolution

/-!
# Stages of a resolution

A resolution builds its table from the empty one by three kinds of steps only: it adds a logical
device, it plants a logical node below a logical device, or it sets a namespace. `Stage` is the
relation of the tables that arise so, with the names of their logical devices, and
`stage_ofAccessPoint` says that every table a resolution ends with is one. What holds of the empty
table and survives the three steps then holds of every resolution; `Stage.lawful` is the first such
law. What follows the building leaves the table alone (`model_ofAccessPoint`) and adds to the
journal (`exists_journal_ofAccessPoint`).
-/

namespace Substation.Model

open Substation.Template

variable {r : Registry}

/-! ## What a logical node plants -/

theorem underAll_unfold_group (n : Nat) (ref : String) (fc fc' : Constraint) (type : AttributeType)
    (a : AttributeDef) : Sprout.UnderAll (.leaf fc' a) (unfold r n (.group ref fc type)) := by
  induction n generalizing ref fc type fc' a with
  | zero => exact trivial
  | succ n ih =>
    rw [unfold, Sprout.underAll_iff, List.forall_mem_map]
    intro b _
    refine ⟨trivial, ?_⟩
    split
    · exact ih _ _ _ _ _
    · exact trivial

theorem underAll_unfold_object (n : Nat) (ref : String) (type t : ObjectType) (count : Nat)
    (transient : Bool) :
    Sprout.UnderAll (.object count t transient) (unfold r n (.object ref type)) := by
  induction n generalizing ref type count t transient with
  | zero => exact trivial
  | succ n ih =>
    rw [unfold, Sprout.underAll_iff]
    intro s hs
    rcases List.mem_append.mp hs with hs | hs
    · obtain ⟨d, -, hd⟩ := List.mem_filterMap.mp hs
      obtain ⟨t', -, rfl⟩ := Option.map_eq_some_iff.mp hd
      exact ⟨trivial, ih _ _ _ _ _⟩
    · obtain ⟨a, -, rfl⟩ := List.mem_map.mp hs
      refine ⟨trivial, ?_⟩
      split
      · exact trivial
      · split
        · exact underAll_unfold_group _ _ _ _ _ _
        · exact trivial

theorem nodeSprout_under {kind : NodeKind} (hk : kind.isDevice) (limit n : Nat) (ref : String)
    (config : Config.LogicalNode) : (nodeSprout r limit n ref config).Under kind := by
  refine ⟨?_, Sprout.underAll_iff.mpr fun s hs => ?_⟩
  · cases kind with
    | device => exact trivial
    | _ => exact absurd hk (by simp [NodeKind.isDevice])
  · obtain ⟨d, -, hd⟩ := List.mem_filterMap.mp hs
    obtain ⟨t, -, rfl⟩ := Option.map_eq_some_iff.mp hd
    exact ⟨trivial, underAll_unfold_object _ _ _ _ _ _⟩

/-! ## Stages -/

/-- A table that arises in a resolution, with the names of its logical devices in order. -/
inductive Stage (r : Registry) (limit : Nat) : List String → IedModel → Prop
  | empty (name : String) : Stage r limit [] { name }
  | device {names : List String} {m : IedModel} (h : Stage r limit names m) (name inst : String) :
      Stage r limit (names ++ [name]) (m.addDevice name inst)
  | node {names : List String} {m : IedModel} (h : Stage r limit names m) {device : Nat} {d : Node}
      (hd : m.node? device = some d) (hk : d.kind.isDevice) (config : Config.LogicalNode) :
      Stage r limit names (m.plant device
        (nodeSprout r limit limit (d.ref ++ d.kind.separator ++ config.name) config))
  | space {names : List String} {m : IedModel} (h : Stage r limit names m) (id : Nat)
      (space : Namespace) : Stage r limit names (m.setSpace id space)

namespace Stage

variable {limit : Nat} {names : List String} {m : IedModel}

/-- **Every table of a resolution is lawful.** -/
theorem lawful (h : Stage r limit names m) : m.Lawful := by
  induction h with
  | empty name => exact .empty name
  | device _ name inst ih => exact ih.addDevice name inst
  | node _ hd hk config ih => exact ih.plant hd (nodeSprout_under hk _ _ _ _)
  | space _ id space ih => exact ih.setSpace id space

/-- The logical devices keep their references when the faces stay. -/
theorem map_ref_congr {m m' : IedModel} (hm : m.Forest)
    (hface : ∀ id < m.size, m'.face? id = m.face? id) :
    m.devices.map m'.ref = m.devices.map m.ref :=
  List.map_congr_left fun id hid => by
    rw [IedModel.ref_eq_face?, hface id (hm.lt_size_of_mem_devices hid), ← IedModel.ref_eq_face?]

/-- The references of the logical devices are their names. -/
theorem devices_map_ref (h : Stage r limit names m) : m.devices.map m.ref = names := by
  induction h with
  | empty name => rfl
  | @device names m h name inst ih =>
    have hkept : ∀ id < m.size, (m.addDevice name inst).face? id = m.face? id := fun id hid => by
      rw [IedModel.face?_addDevice, if_neg (Nat.ne_of_lt hid)]
    rw [IedModel.devices_addDevice, List.map_append, map_ref_congr h.lawful.forest hkept, ih,
      List.map_singleton, IedModel.ref_eq_face?, IedModel.face?_addDevice, if_pos rfl]
    rfl
  | @node names m h device d hd _ config ih =>
    rw [(IedModel.plant_gains hd _).devices,
      map_ref_congr h.lawful.forest fun id hid => IedModel.face?_plant hd _ hid, ih]
  | @space names m h id space ih =>
    rw [← ih]
    exact map_ref_congr h.lawful.forest fun i _ => IedModel.face?_setSpace id space i

end Stage

end Substation.Model

namespace Substation.Resolution

open Substation.Config
open Substation.Journal
open Substation.Model
open Substation.Template

variable {r : Registry} {limit : Nat} {names : List String}

/-! ## Checks -/

/-- What checks do to a table: they set namespaces. -/
inductive Respaced (m : IedModel) : IedModel → Prop
  | refl : Respaced m m
  | step {m' : IedModel} (h : Respaced m m') (id : Nat) (space : Namespace) :
      Respaced m (m'.setSpace id space)

namespace Respaced

variable {m m' m'' : IedModel}

theorem trans (h : Respaced m m') (h' : Respaced m' m'') : Respaced m m'' := by
  induction h' with
  | refl => exact h
  | step _ id space ih => exact ih.step id space

theorem face? (h : Respaced m m') (id : Nat) : m'.face? id = m.face? id := by
  induction h with
  | refl => rfl
  | step _ target space ih => rw [IedModel.face?_setSpace, ih]

theorem stage (h : Respaced m m') (hm : Stage r limit names m) : Stage r limit names m' := by
  induction h with
  | refl => exact hm
  | step _ id space ih => exact ih.space id space

end Respaced

theorem respaced_checkSpace (device ln target : Nat) (name : String) (g : Growth) :
    Respaced g.model (checkSpace device ln target name g).model := by
  unfold checkSpace
  split
  · exact .refl
  · split
    · exact .refl
    · simp only
      split
      · exact .refl
      · exact .step .refl target _

theorem respaced_checkNode (o : ResolveOptions) (inst : String) (device ln : Nat)
    (config : LogicalNode) (g : Growth) :
    Respaced g.model (checkNode r o inst device ln config g).model := by
  -- findings do not touch the table
  have hspaces : ∀ g' : Growth, g'.model = g.model →
      Respaced g.model (checkSpaces device ln config g').model := by
    intro g' hg'
    rw [← hg']
    unfold checkSpaces
    split
    · exact (respaced_checkSpace device ln device "ldNs" g').trans (respaced_checkSpace ..)
    · exact respaced_checkSpace ..
  unfold checkNode
  simp only
  split
  · split
    · exact hspaces _ rfl
    · exact hspaces _ rfl
  · split
    · exact .refl
    · exact .refl

/-! ## Building -/

/-- Adding a logical node succeeds, plants it and makes its entries. -/
theorem grow_addLogicalNode {g : Growth} (hm : g.model.Forest) {device : Nat} {d : Node}
    (hd : g.model.node? device = some d) (limit : Nat) (config : LogicalNode) :
    let ref := d.ref ++ d.kind.separator ++ config.name
    ∃ g', grow (addLogicalNode r limit device config) g = (some g.model.size, g') ∧
      g'.model = g.model.plant device (nodeSprout r limit limit ref config) ∧
      g'.journal = g.journal ++
        nodeEntries r ref config (nodeHarvest r limit ref (nodeObjects r config)) := by
  intro ref
  obtain ⟨g', hrun, hgrown⟩ := addLogicalNode_enters (r := r) hm hd (Nat.le_refl limit) config
  refine ⟨g', ?_, hgrown⟩
  unfold grow
  rw [show (addLogicalNode r limit device config).run.run g = _ from hrun]
  rfl

/-- Adding a logical node plants it; its checks set namespaces. -/
theorem respaced_addNode (o : ResolveOptions) (subject : Subject) (inst : String) {g : Growth}
    (hm : g.model.Forest) {device : Nat} {d : Node} (hd : g.model.node? device = some d)
    (config : LogicalNode) :
    Respaced (g.model.plant device (nodeSprout r o.maxDepth o.maxDepth
      (d.ref ++ d.kind.separator ++ config.name) config))
      (addNode r o subject inst device g config).model := by
  obtain ⟨g', hgrow, hmodel, -⟩ := grow_addLogicalNode (r := r) hm hd o.maxDepth config
  unfold addNode
  rw [hgrow, ← hmodel]
  exact respaced_checkNode o inst device g.model.size config
    (g'.enter (.note (.resolvedNode subject inst
      (((g'.model.node? g.model.size).map Node.name).getD "")
      (g'.model.children g.model.size).length)))

theorem face?_addNode (o : ResolveOptions) (subject : Subject) (inst : String) {g : Growth}
    (hm : g.model.Forest) {device : Nat} {d : Node} (hd : g.model.node? device = some d)
    (config : LogicalNode) {id : Nat} (hid : id < g.model.size) :
    (addNode r o subject inst device g config).model.face? id = g.model.face? id := by
  rw [(respaced_addNode o subject inst hm hd config).face?, IedModel.face?_plant hd _ hid]

theorem addNode_stage (o : ResolveOptions) (subject : Subject) (inst : String) {device : Nat}
    {f : Node} (hk : f.kind.isDevice) {g : Growth} (hf : g.model.face? device = some f)
    (hg : Stage r o.maxDepth names g.model) (config : LogicalNode) :
    Stage r o.maxDepth names (addNode r o subject inst device g config).model ∧
      (addNode r o subject inst device g config).model.face? device = some f := by
  obtain ⟨d, hd, rfl⟩ := IedModel.node?_of_face? hf
  have hm := hg.lawful.forest
  refine ⟨(respaced_addNode o subject inst hm hd config).stage (hg.node hd ?_ config), ?_⟩
  · simpa [Node.face] using hk
  · rw [face?_addNode o subject inst hm hd config (IedModel.lt_size_of_node? hd), hf]

/-- What survives a logical node more survives the building of the logical nodes of a device. The
device keeps its face. -/
theorem addNodes_induction (o : ResolveOptions) (subject : Subject) (inst : String) {device : Nat}
    {f : Node} (hk : f.kind.isDevice) {Q : Growth → Prop}
    (hnode : ∀ (g : Growth) (d : Node) (config : LogicalNode), g.model.Lawful →
      g.model.node? device = some d → d.face = f → Q g →
      Q (addNode r o subject inst device g config))
    (configs : List LogicalNode) {g : Growth} (hf : g.model.face? device = some f)
    (hstage : Stage r o.maxDepth names g.model) (hg : Q g) :
    let g' := configs.foldl (addNode r o subject inst device) g
    Stage r o.maxDepth names g'.model ∧ g'.model.face? device = some f ∧ Q g' := by
  induction configs generalizing g with
  | nil => exact ⟨hstage, hf, hg⟩
  | cons config configs ih =>
    obtain ⟨d, hd, hface⟩ := IedModel.node?_of_face? hf
    obtain ⟨hnext, hstays⟩ := addNode_stage o subject inst hk hf hstage config
    exact ih hstays hnext (hnode g d config hstage.lawful hd hface hg)

/-- A logical device that was just added, as it shows itself. -/
theorem face?_addDevice_size (m : IedModel) (name inst : String) :
    (m.addDevice name inst).face? m.size = some (deviceFace name inst) := by
  rw [IedModel.face?_addDevice, if_pos rfl]

/-- The node of such a face, and what stands in front of the names below it. -/
theorem exists_of_deviceFace {m : IedModel} {id : Nat} {name inst : String}
    (h : m.face? id = some (deviceFace name inst)) :
    ∃ d, m.node? id = some d ∧ d.kind.isDevice ∧ d.ref ++ d.kind.separator = name ++ "/" := by
  obtain ⟨d, hd, hface⟩ := IedModel.node?_of_face? h
  have hkind : d.kind.bare = .device inst none := Node.bare_of_face hface
  refine ⟨d, hd, NodeKind.isDevice_of_bare hkind, ?_⟩
  rw [← NodeKind.separator_bare, hkind]
  exact congrArg (fun f : Node => f.ref ++ "/") hface

/-- **What survives a logical device and a logical node more survives the building of logical
devices.** The table is at a stage all along. -/
theorem addDevices_induction (o : ResolveOptions) (subject : Subject) {Q : Growth → Prop}
    (hdevice : ∀ (g : Growth) (name inst : String), g.model.Lawful → Q g →
      Q (g.onModel (·.addDevice name inst)))
    (hnode : ∀ (g : Growth) (device : Nat) (d : Node) (inst : String) (config : LogicalNode),
      g.model.Lawful → g.model.node? device = some d → d.kind.bare = .device inst none → Q g →
      Q (addNode r o subject inst device g config))
    (devices : List LogicalDevice) {g : Growth} (hstage : Stage r o.maxDepth names g.model)
    (hg : Q g) :
    Stage r o.maxDepth (names ++ devices.map (deviceName subject.ied))
      (devices.foldl (addDevice r o subject) g).model ∧
      Q (devices.foldl (addDevice r o subject) g) := by
  induction devices generalizing names g with
  | nil =>
    rw [List.map_nil, List.append_nil]
    exact ⟨hstage, hg⟩
  | cons d devices ih =>
    rw [List.map_cons, List.append_cons]
    obtain ⟨hbuilt, -, hQ⟩ := addNodes_induction o subject d.inst rfl
      (fun g up config hm hup hface hg =>
        hnode g _ up d.inst config hm hup (Node.bare_of_face hface) hg)
      d.logicalNodes (face?_addDevice_size g.model (deviceName subject.ied d) d.inst)
      (hstage.device (deviceName subject.ied d) d.inst) (hdevice g _ _ hstage.lawful hg)
    exact ih hbuilt hQ

/-- A resolution of an access point when nothing is built yet. -/
def start (i : Ied) (a : AccessPoint) : Growth :=
  Growth.enter (.note (.resolving ⟨i.name, a.name⟩)) { model := { name := i.name } }

/-- A resolution of an access point when all its logical devices are built. -/
def built (d : Document) (o : ResolveOptions) (i : Ied) (a : AccessPoint) : Growth :=
  a.devices.foldl (addDevice d.registry o ⟨i.name, a.name⟩) (start i a)

theorem built_induction (d : Document) (o : ResolveOptions) (i : Ied) (a : AccessPoint)
    {Q : Growth → Prop} (hstart : Q (start i a))
    (hdevice : ∀ (g : Growth) (name inst : String), g.model.Lawful → Q g →
      Q (g.onModel (·.addDevice name inst)))
    (hnode : ∀ (g : Growth) (device : Nat) (n : Node) (inst : String) (config : LogicalNode),
      g.model.Lawful → g.model.node? device = some n → n.kind.bare = .device inst none → Q g →
      Q (addNode d.registry o ⟨i.name, a.name⟩ inst device g config)) :
    Stage d.registry o.maxDepth (a.devices.map (deviceName i.name)) (built d o i a).model ∧
      Q (built d o i a) :=
  addDevices_induction o ⟨i.name, a.name⟩ hdevice hnode a.devices (.empty i.name) hstart

/-! ### What follows the building -/

/-- What is found about the members of data sets, if they are looked at. -/
def memberEntries (d : Document) (o : ResolveOptions) (m : IedModel) : List Entry :=
  if o.checkMembers then (memberFindings d.registry m).map .finding else []

/-- What is said about the connection of an access point. -/
def connectionEntries (subject : Subject) : Option ConnectedAp → List Entry
  | none => [.note (.notConnected subject)]
  | some cap => ((Address.connectionFaults cap).map fun (object, fault) =>
      Finding.badAddress object fault).map .finding

theorem model_checkConnection (subject : Subject) (g : Growth) (cap? : Option ConnectedAp) :
    (checkConnection subject g cap?).model = g.model := by
  cases cap? <;> rfl

theorem journal_checkConnection (subject : Subject) (g : Growth) (cap? : Option ConnectedAp) :
    (checkConnection subject g cap?).journal.toList =
      g.journal.toList ++ connectionEntries subject cap? := by
  cases cap? with
  | none => exact Array.toList_push
  | some cap => exact Array.toList_appendList

/-- **What follows the building of the model leaves it alone.** -/
theorem model_ofAccessPoint (d : Document) (o : ResolveOptions) (i : Ied) (a : AccessPoint) :
    (ofAccessPoint d o i a).model = (built d o i a).model := by
  let g := built d o i a
  show (checkConnection _ (if o.checkMembers then g.report (memberFindings d.registry g.model)
    else g) _).model = g.model
  rw [model_checkConnection]
  split <;> rfl

/-- **It adds to the journal** what is found about members, what is said about the connection, and
a note. -/
theorem exists_journal_ofAccessPoint (d : Document) (o : ResolveOptions) (i : Ied)
    (a : AccessPoint) : ∃ n : Note, (ofAccessPoint d o i a).journal =
      (built d o i a).journal.toList ++ (memberEntries d o (built d o i a).model ++
        connectionEntries ⟨i.name, a.name⟩ (d.connectedAp? a.name i.name) ++ [.note n]) := by
  let g := built d o i a
  let checked := if o.checkMembers then g.report (memberFindings d.registry g.model) else g
  have hchecked : checked.journal.toList = g.journal.toList ++ memberEntries d o g.model := by
    unfold checked memberEntries
    split
    · exact Array.toList_appendList
    · exact (List.append_nil _).symm
  let connected := checkConnection ⟨i.name, a.name⟩ checked (d.connectedAp? a.name i.name)
  refine ⟨closing ⟨i.name, a.name⟩ connected, ?_⟩
  show (connected.enter (.note (closing ⟨i.name, a.name⟩ connected))).journal.toList = _
  rw [Growth.enter, Array.toList_push, journal_checkConnection, hchecked, List.append_assoc,
    List.append_assoc, List.append_assoc]

theorem subject_ofAccessPoint (d : Document) (o : ResolveOptions) (i : Ied) (a : AccessPoint) :
    (ofAccessPoint d o i a).subject = ⟨i.name, a.name⟩ := rfl

/-- **The model of an access point arises by the steps of `Stage`**, with its logical devices in
order. -/
theorem stage_ofAccessPoint (d : Document) (o : ResolveOptions) (ied : Ied) (ap : AccessPoint) :
    Stage d.registry o.maxDepth (ap.devices.map (deviceName ied.name))
      (ofAccessPoint d o ied ap).model := by
  rw [model_ofAccessPoint]
  exact (built_induction d o ied ap (Q := fun _ => True) trivial
    (fun _ _ _ _ _ => trivial) (fun _ _ _ _ _ _ _ _ _ => trivial)).1

/-- A resolution that succeeds is that of an access point of an IED. -/
theorem exists_of_resolve {d : Document} {ied : String} {ap : Option String} {o : ResolveOptions}
    {res : Resolution} (h : resolve d ied ap o = .ok res) :
    ∃ i a, d.ied? ied = some i ∧ accessPoint? i ap = some a ∧ res = ofAccessPoint d o i a := by
  unfold resolve at h
  cases hi : d.ied? ied with
  | none => simp [hi] at h
  | some i =>
    cases ha : accessPoint? i ap with
    | none => simp [hi, ha] at h
    | some a =>
      simp only [hi, ha, Except.ok.injEq] at h
      exact ⟨i, a, rfl, ha, h.symm⟩

/-- The model of every successful resolution arises so. -/
theorem stage_of_resolve {d : Document} {ied : String} {ap : Option String} {o : ResolveOptions}
    {res : Resolution} (h : resolve d ied ap o = .ok res) :
    ∃ i a, d.ied? ied = some i ∧ accessPoint? i ap = some a ∧
      Stage d.registry o.maxDepth (a.devices.map (deviceName i.name)) res.model := by
  obtain ⟨i, a, hi, ha, rfl⟩ := exists_of_resolve h
  exact ⟨i, a, hi, ha, stage_ofAccessPoint d o i a⟩

/-! ## Configured logical nodes -/

/-- There is a logical node of this configuration and reference. -/
def Shows (config : LogicalNode) (ref : String) (g : Growth) : Prop :=
  ∃ id n, g.model.face? id = some n ∧ n.kind = .logicalNode config none ∧ n.ref = ref

variable {config : LogicalNode} {ref : String} {g : Growth}

theorem Shows.addDevice (h : Shows config ref g) (name inst : String) :
    Shows config ref (g.onModel (·.addDevice name inst)) := by
  obtain ⟨id, n, hn, hkind, href⟩ := h
  refine ⟨id, n, ?_, hkind, href⟩
  show (g.model.addDevice name inst).face? id = some n
  rw [IedModel.face?_addDevice, if_neg (Nat.ne_of_lt (IedModel.lt_size_of_face? hn)), hn]

theorem Shows.addNode (h : Shows config ref g) (o : ResolveOptions) (subject : Subject)
    (inst : String) (hm : g.model.Forest) {device : Nat} {d : Node}
    (hd : g.model.node? device = some d) (other : LogicalNode) :
    Shows config ref (addNode r o subject inst device g other) := by
  obtain ⟨id, n, hn, hkind, href⟩ := h
  refine ⟨id, n, ?_, hkind, href⟩
  rw [face?_addNode o subject inst hm hd other (IedModel.lt_size_of_face? hn), hn]

/-- The logical node that was just added is there. -/
theorem shows_addNode (o : ResolveOptions) (subject : Subject) (inst : String)
    (hm : g.model.Forest) {device : Nat} {d : Node} (hd : g.model.node? device = some d)
    (config : LogicalNode) : Shows config (d.ref ++ d.kind.separator ++ config.name)
      (addNode r o subject inst device g config) := by
  let s := nodeSprout r o.maxDepth o.maxDepth (d.ref ++ d.kind.separator ++ config.name) config
  have hnode := ((IedModel.plant_gains hd s).stands _ (List.mem_singleton.mpr rfl)).node?
  let b := s.grown device (d.ref ++ d.kind.separator) g.model.size
  refine ⟨b.id, b.node.face, ?_, ?_, ?_⟩
  · rw [(respaced_addNode o subject inst hm hd config).face?]
    exact IedModel.face?_of_node? hnode
  · simp only [b, s, nodeSprout, Sprout.grown]
    rfl
  · simp only [b, s, nodeSprout, Sprout.grown]
    rfl

theorem shows_of_mem_logicalNodes (o : ResolveOptions) (subject : Subject) (inst : String)
    {device : Nat} {name : String} {configs : List LogicalNode} (hconfig : config ∈ configs)
    (hf : g.model.face? device = some (deviceFace name inst))
    (hstage : Stage r o.maxDepth names g.model) :
    Shows config (name ++ "/" ++ config.name)
      (configs.foldl (addNode r o subject inst device) g) := by
  obtain ⟨front, back, rfl⟩ := List.append_of_mem hconfig
  rw [List.foldl_append, List.foldl_cons]
  -- the nodes before it, the node itself, and those after it
  obtain ⟨hfront, hface, -⟩ := addNodes_induction (Q := fun _ => True) o subject inst rfl
    (fun _ _ _ _ _ _ _ => trivial) front hf hstage trivial
  obtain ⟨up, hup, -, hstem⟩ := exists_of_deviceFace hface
  have hshows := shows_addNode (r := r) o subject inst hfront.lawful.forest hup config
  rw [hstem] at hshows
  obtain ⟨hnext, hface⟩ := addNode_stage o subject inst rfl hface hfront config
  exact (addNodes_induction o subject inst rfl
    (fun g d other hm hd _ hg => hg.addNode o subject inst hm.forest hd other) back hface hnext
    hshows).2.2

/-- **Every configured logical node of an access point is in its model.** -/
theorem shows_built (d : Document) (o : ResolveOptions) (i : Ied) (a : AccessPoint)
    {device : LogicalDevice} (hdevice : device ∈ a.devices)
    (hconfig : config ∈ device.logicalNodes) :
    Shows config (deviceName i.name device ++ "/" ++ config.name) (built d o i a) := by
  obtain ⟨front, back, hsplit⟩ := List.append_of_mem hdevice
  rw [built, hsplit, List.foldl_append, List.foldl_cons]
  have hstart : Stage d.registry o.maxDepth [] (start i a).model := .empty i.name
  obtain ⟨hfront, -⟩ := addDevices_induction (Q := fun _ => True) o ⟨i.name, a.name⟩
    (fun _ _ _ _ _ => trivial) (fun _ _ _ _ _ _ _ _ _ => trivial) front hstart trivial
  generalize front.foldl _ (start i a) = g at hfront ⊢
  have hstage := hfront.device (deviceName i.name device) device.inst
  have hface := face?_addDevice_size g.model (deviceName i.name device) device.inst
  let g' := g.onModel (·.addDevice (deviceName i.name device) device.inst)
  have hshows := shows_of_mem_logicalNodes (g := g') o ⟨i.name, a.name⟩ device.inst hconfig hface
    hstage
  obtain ⟨hnext, -, -⟩ := addNodes_induction (Q := fun _ => True) o ⟨i.name, a.name⟩ device.inst rfl
    (fun _ _ _ _ _ _ _ => trivial) device.logicalNodes (g := g') hface hstage trivial
  exact (addDevices_induction o ⟨i.name, a.name⟩ (fun g name inst _ hg => hg.addDevice name inst)
    (fun g device up inst other hm hup _ hg => hg.addNode o _ inst hm.forest hup other) back hnext
    hshows).2

end Substation.Resolution
