import Mathlib.Tactic.Common
import Substation.Proofs.Journals
import Substation.Proofs.MappedDevices
import Substation.Proofs.MappedModels
import Substation.Proofs.Masks

/-!
# Models behind a mask

In the table of a model a mask changes the configurations of the logical nodes, and namespaces are
left out, since they are read off values. The operations that build a table can be done behind a
mask, so the masked model of a resolution grows from the masked configuration alone
(`masked_ofAccessPoint`), and documents that are the same behind a mask are resolved alike
(`masked_resolve`). What the writing of a static model looks up is found behind a mask
(`configured?_masked`, `branch?_masked`).
-/

namespace Substation.Model

open Substation.Config
open Substation.Template

variable (k : Mask) {m m' : IedModel}

/-! ## Tables -/

/-- A kind of node behind a mask. -/
def NodeKind.masked (owner : String) : NodeKind → NodeKind
  | device inst _ => device inst none
  | logicalNode c _ => logicalNode (c.masked k owner) none
  | kind => kind

theorem NodeKind.masked_of_admits {up kind : NodeKind} (h : up.Admits kind)
    (hup : up.isDevice = false) (owner : String) : kind.masked k owner = kind := by
  have hdevice := h.isDevice_eq_false
  have hnode := h.isLogicalNode_eq_false hup
  cases kind with
  | device => exact Bool.noConfusion hdevice
  | logicalNode => exact Bool.noConfusion hnode
  | _ => rfl

theorem NodeKind.config?_masked (owner : String) (kind : NodeKind) :
    (kind.masked k owner).config? = kind.config?.map (LogicalNode.masked k owner) := by
  cases kind <;> rfl

/-- A node behind a mask. -/
def Node.masked (owner : String) (n : Node) : Node := { n with kind := n.kind.masked k owner }

namespace IedModel

/-- What stands in front of the logs of a node. -/
def ownerOf (m : IedModel) (n : Node) : String :=
  logOwner ((n.parent.bind m.inst?).getD "") n.name

/-- A model behind a mask. -/
def masked (m : IedModel) : IedModel :=
  { m with nodes := m.nodes.map fun n => n.masked k (m.ownerOf n) }

/-- A mask leaves data objects and attributes as they are. -/
theorem spares_masked (m : IedModel) : Node.Spares fun n => n.masked k (m.ownerOf n) where
  parent _ := rfl
  children _ := rfl
  isDevice n := by
    obtain ⟨_, _, _, _, kind⟩ := n
    cases kind <;> rfl
  isLogicalNode n := by
    obtain ⟨_, _, _, _, kind⟩ := n
    cases kind <;> rfl
  data n hdevice hnode := by
    obtain ⟨_, _, _, _, kind⟩ := n
    cases kind with
    | device => exact Bool.noConfusion hdevice
    | logicalNode => exact Bool.noConfusion hnode
    | _ => exact ⟨rfl, rfl⟩

theorem node?_masked (m : IedModel) (id : Nat) :
    (m.masked k).node? id = (m.node? id).map fun n => n.masked k (m.ownerOf n) :=
  node?_mapNodes id

theorem size_masked (m : IedModel) : (m.masked k).size = m.size := size_mapNodes

/-- The kind of a logical device shows its instance name without its namespace, too. -/
theorem inst?_eq_some_iff_face? {id : Nat} {inst : String} :
    m.inst? id = some inst ↔ (m.face? id).map Node.kind = some (.device inst none) := by
  unfold inst? face?
  cases m.node? id with
  | none => simp
  | some n =>
    obtain ⟨_, _, _, _, kind⟩ := n
    cases kind <;> simp [Node.face, NodeKind.bare]

theorem inst?_congr {id : Nat} (h : m'.face? id = m.face? id) : m'.inst? id = m.inst? id := by
  refine Option.ext fun inst => ?_
  rw [inst?_eq_some_iff_face?, inst?_eq_some_iff_face?, h]

theorem ownerOf_congr {n : Node} (h : ∀ p, n.parent = some p → m'.face? p = m.face? p) :
    m'.ownerOf n = m.ownerOf n := by
  unfold ownerOf
  cases hp : n.parent with
  | none => rfl
  | some p => rw [Option.bind_some, Option.bind_some, inst?_congr (h p hp)]

theorem inst?_masked (m : IedModel) (id : Nat) : (m.masked k).inst? id = m.inst? id := by
  unfold inst?
  rw [node?_masked]
  cases m.node? id with
  | none => rfl
  | some n =>
    obtain ⟨_, _, _, _, kind⟩ := n
    cases kind <;> rfl

theorem ownerOf_masked (owner : String) (m : IedModel) (n : Node) :
    (m.masked k).ownerOf (n.masked k owner) = m.ownerOf n := by
  unfold ownerOf
  rw [funext (m.inst?_masked k)]
  rfl

/-! ## Building -/

theorem masked_empty (name : String) : masked k { name } = { name } := by
  simp [masked]

theorem masked_setSpace (m : IedModel) (id : Nat) (space : Namespace) :
    (m.setSpace id space).masked k = m.masked k := by
  refine ext_node? rfl rfl fun i => ?_
  have howner (n : Node) : (m.setSpace id space).ownerOf n = m.ownerOf n :=
    ownerOf_congr fun p _ => face?_setSpace id space p
  rw [node?_masked, node?_masked, node?_setSpace]
  split
  · rw [Option.map_map]
    refine congrArg (Option.map · _) (funext fun n => ?_)
    obtain ⟨_, _, _, _, kind⟩ := n
    rw [Function.comp_apply, howner]
    cases kind <;> rfl
  · simp only [howner]

variable (hm : m.Forest)
include hm

theorem masked_addDevice (name inst : String) :
    (m.addDevice name inst).masked k = (m.masked k).addDevice name inst := by
  refine ext_node? rfl ?_ fun i => ?_
  · show _ = m.devices ++ [(m.masked k).size]
    rw [size_masked]
    rfl
  · rw [node?_masked, node?_addDevice, node?_addDevice, size_masked, node?_masked]
    split
    · rfl
    · refine Option.map_congr fun n hn => ?_
      have hface (p : Nat) (hp : n.parent = some p) :
          (m.addDevice name inst).face? p = m.face? p := by
        have hlt : p < i := hm.parent_lt (by rw [parent?, hn]; exact hp)
        rw [face?_addDevice, if_neg (Nat.ne_of_lt (Nat.lt_trans hlt (lt_size_of_node? hn)))]
      rw [ownerOf_congr hface]

theorem masked_addChild {parent : Nat} {p : Node} (hp : m.node? parent = some p) (name : String)
    (kind : NodeKind) : (m.addChild parent name kind).masked k =
      (m.masked k).addChild parent name
        (kind.masked k (logOwner ((m.inst? parent).getD "") name)) := by
  have hsep : (p.kind.masked k (m.ownerOf p)).separator = p.kind.separator := by
    cases p.kind <;> rfl
  have hold : ∀ {n : Node} {i : Nat}, m.parent? i = n.parent → i < m.size →
      (m.addChild parent name kind).ownerOf n = m.ownerOf n := by
    intro n i hpar hi
    refine ownerOf_congr fun q hq => ?_
    have hlt : q < i := hm.parent_lt (hpar.trans hq)
    rw [face?_addChild hp, if_neg (Nat.ne_of_lt (Nat.lt_trans hlt hi))]
  have hplt := lt_size_of_node? hp
  have hmp : (m.masked k).node? parent = some (p.masked k (m.ownerOf p)) := by
    rw [node?_masked, hp]
    rfl
  refine ext_node? ?_ ?_ fun i => ?_
  · rw [name_addChild]
    exact name_addChild name kind
  · rw [devices_addChild]
    exact devices_addChild name kind
  · rw [node?_masked, node?_addChild hp, node?_addChild hmp, size_masked, node?_masked]
    split
    · -- the new node lies below `parent`
      have howner : (m.addChild parent name kind).ownerOf (childNode parent p name kind) =
          logOwner ((m.inst? parent).getD "") name := by
        unfold ownerOf
        rw [childNode, Option.bind_some, inst?_congr]
        rw [face?_addChild hp, if_neg (Nat.ne_of_lt hplt)]
      rw [Option.map_some, howner]
      simp only [childNode, Node.masked, hsep]
    · split
      · have howner := hold (n := p.adopt m.size) (i := parent) (by rw [parent?, hp]; rfl) hplt
        rw [Option.map_some, howner]
        rfl
      · refine Option.map_congr fun n hn => ?_
        rw [hold (by rw [parent?, hn]; rfl) (lt_size_of_node? hn)]

omit hm

mutual

/-- Data objects and attributes are planted as they are. -/
theorem masked_plant {m : IedModel} (hm : m.Forest) {parent : Nat} {p : Node}
    (hp : m.node? parent = some p) {up : NodeKind} (hup : up.isDevice = false) :
    ∀ {s : Sprout}, s.Under up → (m.plant parent s).masked k = (m.masked k).plant parent s
  | .mk name kind parts, hs => by
    rw [Sprout.Under] at hs
    rw [plant, plant, masked_plantAll (hm.addChild parent name kind)
      (node?_addChild_size hp name kind) hs.1.isDevice_eq_false hs.2, masked_addChild k hm hp,
      NodeKind.masked_of_admits k hs.1 hup, size_masked]

theorem masked_plantAll {m : IedModel} (hm : m.Forest) {parent : Nat} {p : Node}
    (hp : m.node? parent = some p) {up : NodeKind} (hup : up.isDevice = false) :
    ∀ {ss : List Sprout}, Sprout.UnderAll up ss →
      (m.plantAll parent ss).masked k = (m.masked k).plantAll parent ss
  | [], _ => by rw [plantAll, plantAll]
  | s :: ss, hs => by
    rw [Sprout.UnderAll] at hs
    rw [plantAll, plantAll, masked_plantAll (hm.plant parent s) (plant_gains hp s).adopted hup hs.2,
      masked_plant hm hp hup hs.1]

end

/-! ## Looking up -/

theorem parent?_masked (m : IedModel) (id : Nat) : (m.masked k).parent? id = m.parent? id :=
  parent?_mapNodes (m.spares_masked k).parent id

theorem ref_masked (m : IedModel) (id : Nat) : (m.masked k).ref id = m.ref id := by
  unfold ref
  rw [node?_masked]
  cases m.node? id <;> rfl

theorem topObject?_masked (m : IedModel) (id : Nat) :
    (m.masked k).topObject? id = m.topObject? id :=
  topObject?_mapNodes (m.spares_masked k) id

/-- The value that is configured for an attribute is found behind a mask. -/
theorem configured?_masked (m : IedModel) (leaf : Nat) :
    (m.masked k).configured? leaf = (m.configured? leaf).map (Dai.masked k) := by
  unfold configured?
  simp only [bind]
  -- step by step, what is found has its name and its reference behind the mask, too
  rw [topObject?_masked, Option.map_bind]
  refine Option.bind_congr fun object _ => ?_
  rw [Function.comp_apply, parent?_masked, Option.map_bind]
  refine Option.bind_congr fun ln _ => ?_
  rw [Function.comp_apply, node?_masked, Option.bind_map, Option.map_bind]
  refine Option.bind_congr fun n _ => ?_
  rw [Function.comp_apply, Function.comp_apply, Node.masked, NodeKind.config?_masked,
    Option.bind_map, Option.map_bind]
  refine Option.bind_congr fun config _ => ?_
  rw [Function.comp_apply, Function.comp_apply, node?_masked, Option.bind_map, Option.map_bind]
  refine Option.bind_congr fun top _ => ?_
  rw [Function.comp_apply, Function.comp_apply, Node.masked, LogicalNode.instance?_masked,
    Option.bind_map, Option.map_bind]
  refine Option.bind_congr fun doi _ => ?_
  rw [Function.comp_apply, Function.comp_apply, node?_masked, Option.bind_map, Option.map_bind]
  refine Option.bind_congr fun node _ => ?_
  rw [Function.comp_apply, Function.comp_apply, Node.masked, Doi.leaf?_masked, ref_masked]
  -- the filter reads nothing that is masked
  have hfilter : ((doi.leaf? node.name).map (Dai.masked k)).filter
        (fun dai => node.ref = m.ref ln ++ "." ++ (doi.masked k).name ++ "." ++ dai.name) =
      ((doi.leaf? node.name).filter fun dai =>
        node.ref = m.ref ln ++ "." ++ doi.name ++ "." ++ dai.name).map (Dai.masked k) :=
    Option.filter_map ..
  rw [hfilter]
  cases (doi.leaf? node.name).filter fun dai =>
      node.ref = m.ref ln ++ "." ++ doi.name ++ "." ++ dai.name with
  | some dai => rfl
  | none =>
    rw [Option.map_bind]
    exact Option.bind_congr fun found _ => leafAt?_masked k doi _

end IedModel

/-! ## Branches -/

namespace Branch

mutual

/-- A branch of the model `m` behind a mask. -/
def masked (m : IedModel) : Branch → Branch
  | mk id node branches => mk id (node.masked k (m.ownerOf node)) (maskedAll m branches)

/-- Several branches behind a mask. -/
def maskedAll (m : IedModel) : List Branch → List Branch
  | [] => []
  | b :: bs => masked m b :: maskedAll m bs

end

mutual

/-- Behind a mask the nodes of a branch are changed one by one. -/
theorem masked_eq_mapNodes : ∀ b : Branch,
    b.masked k m = b.mapNodes fun n => n.masked k (m.ownerOf n)
  | mk id node branches => by rw [masked, mapNodes, maskedAll_eq_mapNodesAll]

theorem maskedAll_eq_mapNodesAll : ∀ bs : List Branch,
    maskedAll k m bs = mapNodesAll (fun n => n.masked k (m.ownerOf n)) bs
  | [] => rfl
  | b :: bs => by
    rw [maskedAll, mapNodesAll, masked_eq_mapNodes b, maskedAll_eq_mapNodesAll bs]

end

theorem node_masked (b : Branch) : (b.masked k m).node = b.node.masked k (m.ownerOf b.node) := by
  rw [masked_eq_mapNodes, node_mapNodes]

theorem branches_masked (b : Branch) :
    (b.masked k m).branches = b.branches.map (masked k m) := by
  rw [masked_eq_mapNodes, branches_mapNodes]
  exact List.map_congr_left fun b _ => (masked_eq_mapNodes k b).symm

end Branch

theorem IedModel.branch?_masked (hm : m.Forest) (id : Nat) :
    (m.masked k).branch? id = (m.branch? id).map (Branch.masked k m) := by
  rw [funext (Branch.masked_eq_mapNodes k)]
  exact branch?_mapNodes hm (m.spares_masked k).children id

end Substation.Model

namespace Substation.Resolution

open Substation.Config
open Substation.Journal
open Substation.Model
open Substation.Template

variable {r : Registry} {names : List String} (k : Mask)

/-! ## Resolutions -/

theorem Respaced.masked {m m' : IedModel} (h : Respaced m m') : m'.masked k = m.masked k := by
  induction h with
  | refl => rfl
  | step _ id space ih => rw [IedModel.masked_setSpace, ih]

/-- A table with a logical node more, unchecked; `stem` stands in front of its name. -/
def plantNode (r : Registry) (limit device : Nat) (stem : String) (m : IedModel)
    (config : LogicalNode) : IedModel :=
  m.plant device (nodeSprout r limit limit (stem ++ config.name) config)

/-- A table with a logical device more, unchecked. -/
def plantDevice (r : Registry) (limit : Nat) (ied : String) (m : IedModel) (d : LogicalDevice) :
    IedModel :=
  d.logicalNodes.foldl (plantNode r limit m.size (deviceName ied d ++ "/"))
    (m.addDevice (deviceName ied d) d.inst)

theorem masked_addNode (o : ResolveOptions) (subject : Subject) {name inst : String} {device : Nat}
    {g : Growth} (hm : g.model.Forest)
    (hf : g.model.face? device = some (deviceFace name inst))
    (config : LogicalNode) : (addNode r o subject inst device g config).model.masked k =
      plantNode r o.maxDepth device (name ++ "/") (g.model.masked k)
        (config.maskedOn k inst) := by
  obtain ⟨d, hd, hdevice, hstem⟩ := exists_of_deviceFace hf
  have hinst : g.model.inst? device = some inst :=
    IedModel.inst?_eq_some_iff_face?.mpr (by rw [hf]; rfl)
  have hunder := nodeSprout_under (r := r) hdevice o.maxDepth o.maxDepth
    (name ++ "/" ++ config.name) config
  rw [(respaced_addNode o subject inst hm hd config).masked k, hstem, plantNode, nodeSprout,
    IedModel.plant, IedModel.masked_plantAll k (hm.addChild ..)
      (IedModel.node?_addChild_size hd _ _) rfl hunder.2, IedModel.masked_addChild k hm hd, hinst,
    nodeSprout, IedModel.plant, IedModel.size_masked]
  rfl

theorem masked_addNodes (o : ResolveOptions) (subject : Subject) {name inst : String}
    {device : Nat} (configs : List LogicalNode) {g : Growth}
    (hstage : Stage r o.maxDepth names g.model)
    (hf : g.model.face? device = some (deviceFace name inst)) :
    (configs.foldl (addNode r o subject inst device) g).model.masked k =
      (configs.map (LogicalNode.maskedOn k inst)).foldl
        (plantNode r o.maxDepth device (name ++ "/")) (g.model.masked k) := by
  induction configs generalizing g with
  | nil => rfl
  | cons config configs ih =>
    obtain ⟨hnext, hface⟩ := addNode_stage o subject inst rfl hf hstage config
    rw [List.foldl_cons, List.map_cons, List.foldl_cons, ih hnext hface,
      masked_addNode k o subject hstage.lawful.forest hf]

/-- A masked table of logical devices grows from the masked configuration. -/
theorem masked_addDevices (o : ResolveOptions) (subject : Subject) (devices : List LogicalDevice)
    {g : Growth} (hstage : Stage r o.maxDepth names g.model) :
    (devices.foldl (addDevice r o subject) g).model.masked k =
      (devices.map (LogicalDevice.masked k)).foldl (plantDevice r o.maxDepth subject.ied)
        (g.model.masked k) := by
  induction devices generalizing names g with
  | nil => rfl
  | cons d devices ih =>
    have hadded := hstage.device (deviceName subject.ied d) d.inst
    have hface := face?_addDevice_size g.model (deviceName subject.ied d) d.inst
    let g' := g.onModel (·.addDevice (deviceName subject.ied d) d.inst)
    obtain ⟨hnext, -⟩ := addNodes_induction (Q := fun _ => True) o subject d.inst rfl
      (fun _ _ _ _ _ _ _ => trivial) d.logicalNodes (g := g') hface hadded trivial
    rw [List.foldl_cons, List.map_cons, List.foldl_cons]
    refine (ih hnext).trans (congrArg (List.foldl _ · _) ?_)
    refine (masked_addNodes k o subject d.logicalNodes (g := g') hadded hface).trans ?_
    rw [plantDevice, LogicalDevice.logicalNodes_masked, IedModel.size_masked]
    exact congrArg (List.foldl _ · _) (IedModel.masked_addDevice k hstage.lawful.forest _ _)

theorem masked_ofAccessPoint (d : Document) (o : ResolveOptions) (i : Ied) (a : AccessPoint) :
    (ofAccessPoint d o i a).model.masked k =
      (a.devices.map (LogicalDevice.masked k)).foldl (plantDevice d.registry o.maxDepth i.name)
        { name := i.name } := by
  have hstart : Stage d.registry o.maxDepth [] (start i a).model := .empty i.name
  have hbuilt := masked_addDevices k o ⟨i.name, a.name⟩ a.devices hstart
  rw [model_ofAccessPoint]
  exact hbuilt.trans (congrArg (List.foldl _ · _) (IedModel.masked_empty k i.name))

/-- **Documents that are the same behind a mask are resolved alike**: with the same failure, or to
models that are the same behind the mask. -/
theorem masked_resolve {d d' : Document} (h : d.masked k = d'.masked k) (ied : String)
    (ap : Option String) (o : ResolveOptions) :
    (resolve d ied ap o).map (fun res => (res.subject, res.model.masked k)) =
      (resolve d' ied ap o).map fun res => (res.subject, res.model.masked k) := by
  have hsame : d.mapDevices (fun _ => LogicalDevice.masked k) =
      d'.mapDevices fun _ => LogicalDevice.masked k := h
  rcases resolve_of_mapDevices hsame ied ap o with
    ⟨failure, hfail, hfail'⟩ | ⟨i, i', a, a', hok, hok', hname, haname, hdevices⟩
  · rw [hfail, hfail']
  · rw [hok, hok']
    show Except.ok (_, _) = Except.ok (_, _)
    rw [masked_ofAccessPoint, masked_ofAccessPoint, hdevices, subject_ofAccessPoint,
      subject_ofAccessPoint, hname, haname, Document.registry_of_mapDevices hsame]

end Substation.Resolution
