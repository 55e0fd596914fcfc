import Mathlib.Data.List.Nodup
import Mathlib.Tactic.Common
import Substation.Proofs.InstanceValues
import Substation.Proofs.References

/-!
# Binding from both sides

Configured values are matched with attributes twice: `bind?` goes from a path of instance names to
an attribute, `configured?` from an attribute to its configured value. Below a logical node of a
resolved model both follow one relation, `Branch.Reaches`.

Results:
* `bind?_eq_some_iff` (`bind_dai`): a path is for the attribute that its names lead to;
* `configuredAt?_of_reaches` (`dai_for_attribute`): the value of an attribute stands at the path of
  names that leads to it. `configuredAt?` is `configured?` with the place of the answer
  (`configured?_eq_map`);
* `bind?_iff_configuredAt?`: so the two are inverse to each other.
-/

namespace Substation.Model

open Substation.Config

variable {m : IedModel} {b c ln : Branch} {names : List String}

namespace Branch

/-- No name in the branch holds a dot. -/
def Dotless (b : Branch) : Prop := ∀ c ∈ b.preorder, '.' ∉ c.name.toList

instance : Decidable b.Distinct :=
  inferInstanceAs (Decidable (∀ c ∈ b.preorder, (c.branches.map name).Nodup))

instance : Decidable b.Dotless :=
  inferInstanceAs (Decidable (∀ c ∈ b.preorder, '.' ∉ c.name.toList))

theorem Dotless.of_mem (h : b.Dotless) (hc : c ∈ b.branches) : c.Dotless := by
  intro d hd
  exact h d (mem_preorder_of_mem_branches hc hd)

theorem Dotless.dot_not_mem (h : b.Dotless) (hr : b.Reaches names c) :
    ∀ n ∈ names, '.' ∉ n.toList := by
  induction hr with
  | refl b => exact fun n hn => absurd hn List.not_mem_nil
  | @step b c d names hc _ ih =>
    refine List.forall_mem_cons.mpr ⟨?_, ih (h.of_mem hc)⟩
    exact h.of_mem hc c c.self_mem_preorder

theorem Reaches.stands (hb : b.Stands m) (hr : b.Reaches names c) : c.Stands m :=
  (hb.of_mem_preorder c hr.mem_preorder).1

/-- The reference of what is reached is put together from the names on the way. -/
theorem Reaches.ref_eq (hm : m.Lawful) (hb : b.Stands m) (hk : b.node.kind.isDevice = false)
    (hr : b.Reaches names c) : c.ref = refBelow b names := by
  induction hr with
  | refl b => rfl
  | @step b c d names hc _ ih =>
    obtain ⟨hadmits, href⟩ := hb.law_of_mem hm hc
    rw [NodeKind.separator_of_not_isDevice hk] at href
    rw [ih (hb.of_mem hc) hadmits.isDevice_eq_false, refBelow, refBelow, List.foldl_cons, href]

end Branch

theorem refBelow_toList (b : Branch) (names : List String) :
    (refBelow b names).toList = b.ref.toList ++ Text.joined '.' names := by
  unfold refBelow
  generalize b.ref = ref
  induction names generalizing ref with
  | nil => rw [Text.joined, List.flatMap_nil, List.append_nil, List.foldl_nil]
  | cons n names ih =>
    rw [List.foldl_cons, ih, Text.joined, Text.joined, List.flatMap_cons]
    simp

/-- Below one node, paths of different names have different references. -/
theorem refBelow_inj {names' : List String} (h : ∀ n ∈ names, '.' ∉ n.toList)
    (h' : ∀ n ∈ names', '.' ∉ n.toList) (href : refBelow b names = refBelow b names') :
    names = names' := by
  have hlist := congrArg String.toList href
  rw [refBelow_toList, refBelow_toList] at hlist
  exact Text.joined_inj h h' (List.append_cancel_left hlist)

/-! ## From a path to the attribute -/

/-- What a path is for is what its names lead to. -/
theorem reaches_of_bind? (hm : m.Lawful) (hb : b.Stands m) (hk : b.node.kind.isDevice = false)
    (hdot : b.Dotless) (hnames : ∀ n ∈ names, '.' ∉ n.toList) (h : bind? b names = some c) :
    b.Reaches names c ∧ c.node.kind.isLeaf := by
  unfold bind? at h
  simp only at h
  split at h
  · rename_i d hf
    -- what the reference finds is what the names lead to
    cases h
    have hdesc := List.mem_of_find?_eq_some hf
    obtain ⟨href, hleaf⟩ : c.ref = refBelow b names ∧ c.node.kind.isLeaf := by
      simpa using List.find?_some hf
    obtain ⟨names', hr⟩ := Branch.mem_preorder_iff.mp (Branch.mem_preorder.mpr (Or.inr hdesc))
    obtain rfl : names' = names :=
      refBelow_inj (hdot.dot_not_mem hr) hnames ((hr.ref_eq hm hb hk).symm.trans href)
    exact ⟨hr, hleaf⟩
  · obtain ⟨hwalk, hleaf⟩ := Option.filter_eq_some_iff.mp h
    exact ⟨Branch.reaches_of_walk? hwalk, hleaf⟩

/-- **A path is for the attribute that its names lead to.** -/
theorem bind?_eq_some_iff (hm : m.Lawful) (hb : b.Stands m) (hk : b.node.kind.isDevice = false)
    (hd : b.Distinct) (hdot : b.Dotless) (hnames : ∀ n ∈ names, '.' ∉ n.toList) :
    bind? b names = some c ↔ b.Reaches names c ∧ c.node.kind.isLeaf := by
  refine ⟨reaches_of_bind? hm hb hk hdot hnames, fun ⟨hr, hleaf⟩ => ?_⟩
  have hwalk : (Branch.walk? names b).filter (·.node.kind.isLeaf) = some c :=
    Option.filter_eq_some_iff.mpr ⟨(Branch.walk?_eq_some_iff hd).mpr hr, hleaf⟩
  cases hbind : bind? b names with
  | some d =>
    rw [hr.unique hd (reaches_of_bind? hm hb hk hdot hnames hbind).1]
  | none =>
    unfold bind? at hbind
    simp only [hwalk] at hbind
    split at hbind <;> exact absurd hbind (Option.some_ne_none _)

/-! ## From an attribute to its configured value -/

/-- The configured value of an attribute, with the path at which it stands. -/
def IedModel.configuredAt? (m : IedModel) (leaf : Nat) : Option (List String × Dai) := do
  let object ← m.topObject? leaf
  let ln ← m.parent? object
  let config ← (← m.node? ln).kind.config?
  let doi ← config.instance? (← m.node? object).name
  let node ← m.node? leaf
  match (doi.leaf? node.name).filter fun dai =>
      node.ref = m.ref ln ++ "." ++ doi.name ++ "." ++ dai.name with
  | some dai => some ([doi.name, dai.name], dai)
  | none =>
    let (_, path) ← Text.splitFirst? '.' node.ref
    let names := (Text.segments '.' path).drop 1
    (leafAt? doi names).map (doi.name :: names, ·)

/-- `configured?` answers the value of `configuredAt?`. -/
theorem IedModel.configured?_eq_map (m : IedModel) (leaf : Nat) :
    m.configured? leaf = (m.configuredAt? leaf).map Prod.snd := by
  unfold configured? configuredAt?
  simp only [bind]
  -- the first seven steps are the same
  iterate 7
    rw [Option.map_bind]
    refine Option.bind_congr fun _ _ => ?_
    rw [Function.comp_apply]
  generalize Option.filter _ _ = direct
  cases direct with
  | some dai => rfl
  | none =>
    rw [Option.map_bind]
    refine Option.bind_congr fun _ _ => ?_
    rw [Function.comp_apply, Option.map_map]
    exact Option.map_id'.symm

/-- A data object directly below a logical node is its own top. -/
theorem topObject?_of_mem (hm : m.Lawful) (hln : ln.Stands m)
    (hk : ln.node.kind.isLogicalNode) (hc : c ∈ ln.branches) : m.topObject? c.id = some c.id := by
  have hkind := (hln.law_of_mem hm hc).1.isObject_of_isLogicalNode hk
  have hup : m.satisfies (·.kind.isLogicalNode) ln.id = true := by
    rw [IedModel.satisfies, hln.node?]
    exact hk
  rw [IedModel.topObject?, (hln.of_mem hc).node?]
  simp only [hln.parent_of_mem hm hc, hup, hkind, if_true]

/-- What lies below a data object or an attribute has the same top. -/
theorem topObject?_of_reaches (hm : m.Lawful) (hb : b.Stands m)
    (hk : b.node.kind.isDevice = false) (hk' : b.node.kind.isLogicalNode = false)
    (hr : b.Reaches names c) : m.topObject? c.id = m.topObject? b.id := by
  induction hr with
  | refl b => rfl
  | @step b c d names hc _ ih =>
    have hadmits := (hb.law_of_mem hm hc).1
    have hup : m.satisfies (·.kind.isLogicalNode) b.id = false := by
      rw [IedModel.satisfies, hb.node?]
      exact hk'
    rw [ih (hb.of_mem hc) hadmits.isDevice_eq_false (hadmits.isLogicalNode_eq_false hk),
      IedModel.topObject?, (hb.of_mem hc).node?]
    simp only [hb.parent_of_mem hm hc, hup, hb.id_lt hc, if_true, Bool.false_eq_true, if_false]

/-- A reference below a node without dots falls apart into the reference of the node and the
names. -/
theorem splitFirst?_refBelow {n : String} (hb : '.' ∉ b.ref.toList) (hn : '.' ∉ n.toList)
    (hnames : ∀ n ∈ names, '.' ∉ n.toList) :
    ∃ path, Text.splitFirst? '.' (refBelow b (n :: names)) = some (b.ref, path) ∧
      Text.segments '.' path = n :: names := by
  refine ⟨String.ofList (n.toList ++ Text.joined '.' names), ?_, ?_⟩
  · rw [Text.splitFirst?_append hb (refBelow_toList b (n :: names)), String.ofList_toList]
    rfl
  · rw [Text.segments, String.toList_ofList, Text.split_joined hn hnames, List.map_cons,
      List.map_map, String.ofList_comp_toList, List.map_id, String.ofList_toList]

theorem NodeKind.of_config?_eq_some {kind : NodeKind} {config : LogicalNode}
    (h : kind.config? = some config) :
    kind.isLogicalNode ∧ kind.isDevice = false ∧ kind.isLeaf = false := by
  cases kind with
  | logicalNode => exact ⟨rfl, rfl, rfl⟩
  | _ => exact absurd h (by simp [config?])

theorem NodeKind.isLeaf_eq_false {kind : NodeKind} (h : kind.isObject) : kind.isLeaf = false := by
  cases kind with
  | object => rfl
  | _ => exact absurd h Bool.false_ne_true

/-- Whether a value directly below the data object is meant shows in the number of names. -/
theorem refBelow_eq_direct_iff {object n : String} {rest : List String}
    (hdots : ∀ n ∈ object :: rest, '.' ∉ n.toList) (hn : '.' ∉ n.toList) :
    refBelow ln (object :: rest) = ln.ref ++ "." ++ object ++ "." ++ n ↔ rest = [n] := by
  have hdirect : ln.ref ++ "." ++ object ++ "." ++ n = refBelow ln [object, n] := rfl
  rw [hdirect]
  constructor
  · intro h
    have hpair : ∀ n' ∈ [object, n], '.' ∉ n'.toList :=
      List.forall_mem_cons.mpr ⟨hdots object List.mem_cons_self, List.forall_mem_singleton.mpr hn⟩
    exact (List.cons.inj (refBelow_inj hdots hpair h)).2
  · rintro rfl
    rfl

theorem name_of_leaf? (doi : Doi) {n : String} {dai : Dai} (h : doi.leaf? n = some dai) :
    dai.name = n :=
  (mem_of_find?_name h).2

/-- A value directly below the data object is meant if one name follows that of the data object. -/
theorem filter_direct (doi : Doi) {object n : String} {rest : List String}
    (hdots : ∀ n ∈ object :: rest, '.' ∉ n.toList) (hn : '.' ∉ n.toList) :
    ((doi.leaf? n).filter fun dai => refBelow ln (object :: rest) =
      ln.ref ++ "." ++ object ++ "." ++ dai.name) = if rest = [n] then doi.leaf? n else none := by
  cases hleaf : doi.leaf? n with
  | none => simp
  | some dai =>
    simp only [Option.filter_some, name_of_leaf? doi hleaf, decide_eq_true_iff,
      refBelow_eq_direct_iff hdots hn]

/-- The last name on the way is the name of what is reached. -/
theorem Branch.Reaches.name_mem (hr : b.Reaches names c) (hne : names ≠ []) : c.name ∈ names := by
  induction hr with
  | refl b => exact absurd rfl hne
  | @step b d c names hd hr ih =>
    cases hr with
    | refl => exact List.mem_cons_self
    | step he hr => exact List.mem_cons_of_mem _ (ih (List.cons_ne_nil _ _))

/-- The value of an attribute stands at the path of names that leads to it, if no name on the way
holds a dot. -/
theorem configuredAt?_of_names (hm : m.Lawful) (hln : ln.Stands m) {config : LogicalNode}
    (hconfig : ln.node.kind.config? = some config) (href : '.' ∉ ln.ref.toList)
    (hnames : ∀ n ∈ names, '.' ∉ n.toList) (hr : ln.Reaches names c)
    (hleaf : c.node.kind.isLeaf) :
    m.configuredAt? c.id = (config.valueAt? names).map (names, ·) := by
  obtain ⟨hk, hdevice, hnode⟩ := NodeKind.of_config?_eq_some hconfig
  have hcref := hr.ref_eq hm hln hdevice
  have hc := hr.stands hln
  cases hr with
  | refl => exact absurd hleaf (by simp [hnode])
  | @step _ o _ names ho hr =>
    have hos := hln.of_mem ho
    have hadmits := (hln.law_of_mem hm ho).1
    have htop : m.topObject? c.id = some o.id := by
      rw [topObject?_of_reaches hm hos hadmits.isDevice_eq_false
        (hadmits.isLogicalNode_eq_false hdevice) hr, topObject?_of_mem hm hln hk ho]
    have hup : m.parent? o.id = some ln.id := by
      rw [IedModel.parent?_eq hos.node?, hln.parent_of_mem hm ho]
    obtain ⟨hodot, hnames'⟩ := List.forall_mem_cons.mp hnames
    obtain ⟨path, hfirst, hsegments⟩ := splitFirst?_refBelow href hodot hnames'
    unfold IedModel.configuredAt?
    simp only [htop, hup, hln.node?, hconfig, hos.node?, hc.node?, Option.bind_some, bind]
    rw [LogicalNode.valueAt?, Option.map_bind]
    refine Option.bind_congr fun doi hdoi => ?_
    have hname : doi.name = o.name := (mem_of_find?_name hdoi).2
    rw [IedModel.ref_eq hln.node?, hname,
      show c.node.ref = refBelow ln (o.name :: names) from hcref,
      hfirst]
    simp only [Option.bind_some, hsegments, List.drop_one, List.tail_cons, Function.comp_apply]
    have hcdot : '.' ∉ c.name.toList :=
      hnames c.name ((Branch.Reaches.step ho hr).name_mem (List.cons_ne_nil _ _))
    show (match ((doi.leaf? c.name).filter fun dai => refBelow ln (o.name :: names) =
        ln.ref ++ "." ++ o.name ++ "." ++ dai.name) with
      | some dai => _
      | none => _) = _
    rw [filter_direct doi hnames hcdot]
    cases hr with
    | refl =>
      have hobject := hadmits.isObject_of_isLogicalNode hk
      exact absurd hleaf (by simp [NodeKind.isLeaf_eq_false hobject])
    | @step _ d _ names hd hr =>
      cases hr with
      | refl =>
        rw [if_pos rfl, Sdi.valueAt?, show doi.part.leaf? c.name = doi.leaf? c.name from rfl]
        cases hfound : doi.leaf? c.name with
        | none => rfl
        | some dai => simp only [name_of_leaf? doi hfound, Option.map_some]
      | @step _ e _ names he hr => rw [if_neg (by simp), leafAt?_eq_valueAt?]

/-- **The value of an attribute stands at the path of names that leads to the attribute.** -/
theorem configuredAt?_of_reaches (hm : m.Lawful) (hln : ln.Stands m) {config : LogicalNode}
    (hconfig : ln.node.kind.config? = some config) (href : '.' ∉ ln.ref.toList)
    (hdot : ln.Dotless) (hr : ln.Reaches names c) (hleaf : c.node.kind.isLeaf) :
    m.configuredAt? c.id = (config.valueAt? names).map (names, ·) :=
  configuredAt?_of_names hm hln hconfig href (hdot.dot_not_mem hr) hr hleaf

/-- The reference of a logical node holds no dot if the names in it do not. -/
theorem dot_not_mem_ref (hm : m.Lawful) (hln : ln.Stands m) (hk : ln.node.kind.isLogicalNode)
    (hname : '.' ∉ ln.name.toList)
    (hdevice : ∀ up, ln.node.parent = some up → '.' ∉ (m.nameOf up).toList) :
    '.' ∉ ln.ref.toList := by
  cases hp : ln.node.parent with
  | none =>
    have hd := (hm.parent_eq_none_iff hln.node?).mp hp
    cases hkind : ln.node.kind <;> simp_all [NodeKind.isLogicalNode, NodeKind.isDevice]
  | some up =>
    obtain ⟨n, hn, hadmits, href⟩ := hm.of_parent_eq_some hln.node? hp
    have hd := hadmits.isDevice_of_isLogicalNode hk
    obtain ⟨-, -, hn'⟩ := hm.of_parent_eq_none hn ((hm.parent_eq_none_iff hn).mpr hd)
    have hup := hdevice up hp
    rw [IedModel.nameOf_eq hn, ← hn'] at hup
    rw [show ln.ref = _ from href, NodeKind.separator_of_isDevice hd]
    simp only [String.toList_append, List.mem_append, not_or]
    exact ⟨⟨hup, by decide⟩, hname⟩

end Substation.Model

namespace Substation

open Substation.Config
open Substation.Model
open Substation.Resolution
open Substation.Template

/-- A logical node of a resolved model without dots in names stands in it with such a reference. -/
theorem stands_of_dotless {d : Document} {ied : String} {ap : Option String}
    {o : ResolveOptions} {res : Resolution} (h : resolve d ied ap o = .ok res) {id : Nat}
    {ln : Branch} (hln : res.model.branch? id = some ln) {config : LogicalNode}
    (hconfig : ln.node.kind.config? = some config)
    (hdevice : ∀ up, ln.node.parent = some up → '.' ∉ (res.model.nameOf up).toList)
    (hdot : ln.Dotless) : res.model.Lawful ∧ ln.Stands res.model ∧
      ln.node.kind.isDevice = false ∧ '.' ∉ ln.ref.toList := by
  obtain ⟨_, _, -, -, hstage⟩ := stage_of_resolve h
  have hm := hstage.lawful
  obtain ⟨hstands, -⟩ := (Branch.branch?_eq_some_iff hm.forest).mp hln
  obtain ⟨hk, hndev, -⟩ := NodeKind.of_config?_eq_some hconfig
  have hname := hdot ln (Branch.mem_preorder.mpr (.inl rfl))
  exact ⟨hm, hstands, hndev, dot_not_mem_ref hm hstands hk hname hdevice⟩

/-- **Binding and looking up are inverse to each other.** Below a logical node of a resolved model
whose names tell things apart and hold no dots, a path of instance names is for an attribute iff the
configured value of the attribute stands at that very path. `configured?` answers the value that
`configuredAt?` finds, and that is a value that stands where `configuredAt?` says. -/
theorem bind?_iff_configuredAt? {d : Document} {ied : String} {ap : Option String}
    {o : ResolveOptions} {res : Resolution} (h : resolve d ied ap o = .ok res) {id : Nat}
    {ln : Branch} (hln : res.model.branch? id = some ln) {config : LogicalNode}
    (hconfig : ln.node.kind.config? = some config)
    (hdevice : ∀ up, ln.node.parent = some up → '.' ∉ (res.model.nameOf up).toList)
    (hd : ln.Distinct) (hdot : ln.Dotless) (htidy : config.Tidy) {da : Branch}
    (hda : da ∈ ln.descendants) (hleaf : da.node.kind.isLeaf) {names : List String} {dai : Dai}
    (hdai : config.Holds names dai) :
    (bind? ln names = some da ↔ res.model.configuredAt? da.id = some (names, dai)) ∧
      res.model.configured? da.id = (res.model.configuredAt? da.id).map Prod.snd ∧
      ∀ path a, res.model.configuredAt? da.id = some (path, a) → config.Holds path a := by
  obtain ⟨hm, hstands, hndev, href⟩ := stands_of_dotless h hln hconfig hdevice hdot
  obtain ⟨path, hr⟩ := Branch.mem_preorder_iff.mp (Branch.mem_preorder.mpr (Or.inr hda))
  have hconf := configuredAt?_of_reaches hm hstands hconfig href hdot hr hleaf
  have hvalue := (LogicalNode.valueAt?_eq_some_iff htidy).mpr hdai
  refine ⟨?_, res.model.configured?_eq_map da.id, fun p a hp => ?_⟩
  · rw [bind?_eq_some_iff hm hstands hndev hd hdot (hdai.dot_not_mem htidy)]
    constructor
    · rintro ⟨hr, -⟩
      rw [configuredAt?_of_reaches hm hstands hconfig href hdot hr hleaf, hvalue, Option.map_some]
    · intro hat
      rw [hconf, Option.map_eq_some_iff] at hat
      obtain ⟨a, -, heq⟩ := hat
      cases heq
      exact ⟨hr, hleaf⟩
  · rw [hconf, Option.map_eq_some_iff] at hp
    obtain ⟨a', ha', heq⟩ := hp
    cases heq
    exact (LogicalNode.valueAt?_eq_some_iff htidy).mp ha'

/-- A data object with an attribute `q` and a structured attribute `origin`. -/
def nestedTypes : Registry where
  nodeTypes := ⟨[("L", ⟨"L", "LLN0", [⟨"Mod", "M", 0, false⟩]⟩)]⟩
  objectTypes := ⟨[("M", ⟨"M", "ENC", [],
    [⟨"q", .st, .quality, none, 0, {}, none, []⟩,
      ⟨"origin", .st, .constructed, some "O", 0, {}, none, []⟩]⟩)]⟩
  attributeTypes := ⟨[("O", ⟨"O", [⟨"q", .none, .int32, none, 0, {}, none, []⟩]⟩)]⟩

/-- Values for an attribute of one name in two places. -/
def nestedNode : LogicalNode :=
  ⟨"LLN0", "L", "", none, none, [], [], [],
    [⟨"Mod", none, [.mk "origin" none [] [⟨"q", none, none, [⟨none, "3"⟩]⟩]],
      [⟨"q", none, none, [⟨none, "0"⟩]⟩]⟩], [], [], [], none⟩

/-- A document with that logical node. -/
def nestedDocument : Document :=
  ⟨⟨none, none, none, none, none, [⟨"E", none, none, none,
    [⟨"A", some ⟨[⟨"LD", none, none, some nestedNode, []⟩]⟩⟩]⟩], none⟩, nestedTypes, []⟩

/-- The nested value is for the nested attribute, and found there. -/
theorem bind?_iff_configuredAt?_nested : ∃ res ln config da,
    resolve nestedDocument "E" none { checkNamespaces := false } = .ok res ∧
      res.model.branch? 1 = some ln ∧ ln.node.kind.config? = some config ∧ ln.Distinct ∧
      ln.Dotless ∧ config.Tidy ∧ da ∈ ln.descendants ∧ da.ref = "ELD/LLN0.Mod.origin.q" ∧
      config.Holds ["Mod", "origin", "q"] ⟨"q", none, none, [⟨none, "3"⟩]⟩ ∧
      (bind? ln ["Mod", "origin", "q"] = some da ↔ res.model.configuredAt? da.id =
        some (["Mod", "origin", "q"], ⟨"q", none, none, [⟨none, "3"⟩]⟩)) := by
  let res := ofAccessPoint nestedDocument { checkNamespaces := false }
    ⟨"E", none, none, none, [⟨"A", some ⟨[⟨"LD", none, none, some nestedNode, []⟩]⟩⟩]⟩
    ⟨"A", some ⟨[⟨"LD", none, none, some nestedNode, []⟩]⟩⟩
  have h : resolve nestedDocument "E" none { checkNamespaces := false } = .ok res := rfl
  have hcheck : (res.model.branch? 1).any fun ln => ln.Distinct ∧ ln.Dotless ∧
      ln.node.parent = some 0 ∧
      (∃ da ∈ ln.descendants, da.node.kind.isLeaf ∧ da.ref = "ELD/LLN0.Mod.origin.q") ∧
      ln.node.kind.config?.any fun config => config.Tidy ∧
        config.valueAt? ["Mod", "origin", "q"] = some ⟨"q", none, none, [⟨none, "3"⟩]⟩ := by
    decide +kernel
  obtain ⟨ln, hln, hcheck⟩ := (Option.any_eq_true _ _).mp hcheck
  obtain ⟨hd, hdot, hparent, ⟨da, hda, hleaf, href⟩, hcheck⟩ := of_decide_eq_true hcheck
  obtain ⟨config, hconfig, hcheck⟩ := (Option.any_eq_true _ _).mp hcheck
  obtain ⟨htidy, hvalue⟩ := of_decide_eq_true hcheck
  have hdai := (LogicalNode.valueAt?_eq_some_iff htidy).mp hvalue
  have hdevice : ∀ up, ln.node.parent = some up → '.' ∉ (res.model.nameOf up).toList := by
    intro up hup
    rw [hparent] at hup
    cases hup
    decide +kernel
  exact ⟨res, ln, config, da, h, hln, hconfig, hd, hdot, htidy, hda, href, hdai,
    (bind?_iff_configuredAt? h hln hconfig hdevice hd hdot htidy hda hleaf hdai).1⟩

end Substation
