import Mathlib.Tactic.Common
import Substation.Proofs.DataUnrolling
import Substation.Proofs.RenamedBranches

/-!
# Values of the elements of an attribute

The elements of an array attribute may have values of their own in the document, next to each other
under the name of the attribute (`siblings`). A value is found by the name alone, so it is the first
of them that counts, whichever element it is for, and all elements are written with it
(`elements_written_alike`).

Results:
* `elements_written_alike` (`write_children`, `initial_value`): the elements of an attribute are
  written with one value;
* `elements_not_written_by_number`: it need not be the one that is for the element.
-/

namespace Substation

open Substation.Config
open Substation.Emission
open Substation.Model
open Substation.Template (AttributeDef Constraint)
open Branch Unrolled

/-! ## Values next to each other -/

namespace Config

/-- All values of the last name of a path, within the first part of each name before it. -/
def Sdi.siblings : List String → Sdi → List Dai
  | [], _ => []
  | [name], s => s.leaves.filter (·.name = name)
  | name :: next :: path, s => (s.nested? name).elim [] (siblings (next :: path))

/-- Of values next to each other the first one is found. -/
theorem Sdi.head?_siblings (path : List String) (s : Sdi) :
    (s.siblings path).head? = s.valueAt? path := by
  induction path generalizing s with
  | nil => rfl
  | cons name path ih =>
    cases path with
    | nil => exact List.head?_filter
    | cons next path =>
      rw [siblings, valueAt?]
      cases s.nested? name with
      | none => rfl
      | some t => exact ih t

/-- All values of the last name of a path, within the first data object of the first name and the
first part of each name after it. -/
def LogicalNode.siblings (c : LogicalNode) : List String → List Dai
  | [] => []
  | name :: path => (c.instance? name).elim [] (·.part.siblings path)

theorem LogicalNode.head?_siblings (c : LogicalNode) (path : List String) :
    (c.siblings path).head? = c.valueAt? path := by
  cases path with
  | nil => rfl
  | cons name path =>
    rw [siblings, valueAt?]
    cases c.instance? name with
    | none => rfl
    | some i => exact i.part.head?_siblings path

end Config

namespace Model

variable {m : IedModel} {ln da : Branch} {config : LogicalNode} {names : List String}

/-- A value directly below the data object is found, whatever the names are. -/
theorem configured?_of_direct (hm : m.Lawful) (hln : ln.Stands m)
    (hconfig : ln.node.kind.config? = some config) (hr : ln.Reaches names da)
    (hlength : names.length = 2) {dai : Dai} (hdai : config.valueAt? names = some dai) :
    m.configured? da.id = some dai := by
  obtain ⟨-, hdevice, -⟩ := NodeKind.of_config?_eq_some hconfig
  have href := hr.ref_eq hm hln hdevice
  cases hr with
  | refl => exact absurd hlength (by decide)
  | @step _ object _ names ho hr =>
    rw [configured?_of_reaches hm hln hconfig ho hr, valueBelow?]
    obtain ⟨doi, hdoi, hdai⟩ := Option.bind_eq_some_iff.mp hdai
    have hname : doi.name = object.name := (mem_of_find?_name hdoi).2
    cases hr with
    | refl => exact absurd hlength (by simp)
    | @step _ c _ names hc hr =>
      cases hr with
      | step => exact absurd hlength (by simp)
      | refl =>
        have hleaf : doi.leaf? da.name = some dai := hdai
        rw [hdoi, Option.bind_some, hleaf, Option.filter_some, if_pos]
        rw [href, hname, name_of_leaf? doi hleaf]
        exact decide_eq_true rfl

/-- Of the values for an attribute, next to each other, the first one is found. -/
theorem configured?_of_siblings (hm : m.Lawful) (hln : ln.Stands m)
    (hconfig : ln.node.kind.config? = some config) (hleaf : da.node.kind.isLeaf)
    (hr : ln.Reaches names da)
    (hdot : names.length = 2 ∨ '.' ∉ ln.ref.toList ∧ ∀ n ∈ names, '.' ∉ n.toList)
    {first : Dai} {rest : List Dai} (hfirst : config.siblings names = first :: rest) :
    m.configured? da.id = some first := by
  have hvalue : config.valueAt? names = some first := by
    rw [← config.head?_siblings, hfirst, List.head?_cons]
  rcases hdot with hlength | ⟨href, hnames⟩
  · exact configured?_of_direct hm hln hconfig hr hlength hvalue
  · rw [IedModel.configured?_eq_map, configuredAt?_of_names hm hln hconfig href hnames hr hleaf,
      hvalue]
    rfl

variable {literalOf : Nat → AttributeDef → Option String}

/-- Wherever a plain array attribute occurs, it has one line for each element, and all of them end
with one value. -/
theorem layout_elements (hp : m.PlainEnds) (hln : ln.Stands m)
    (hda : da ∈ ln.descendants) {fc : Constraint} {a : AttributeDef}
    (hkind : da.node.kind = .leaf fc a) (hcount : 0 < a.count) (hplain : a.type ≠ .constructed)
    {t : Unrolled} (ht : t ∈ subtreesAll (unrolledAll ln.branches)) (hmark : t.mark = .node da.id) :
    m.layoutOf literalOf t = .block (m.headOf (.node da.id))
      ((List.range a.count).map fun i =>
        .single (.element i) (.assignment (literalOf da.id a))) := by
  obtain ⟨hdas, -⟩ := hln.of_mem_descendants hda
  have hends : da.branches = [] :=
    hp.branches_eq_nil hdas (by simp [hkind, NodeKind.isPlain, hplain])
  have hhead : m.headOf (.node da.id) =
      DataStatement.leafHead (LeafFields.ofNode da.node (m.inTransient da.id) fc a) := by
    rw [IedModel.headOf_node hdas.node?, Node.head, hkind]
  rw [hln.eq_unrolled hda ht hmark, layout_value hdas hkind hplain hends, hhead,
    DataStatement.layout]
  exact if_neg (Nat.pos_iff_ne_zero.mp hcount)

end Model

/-- **The elements of an attribute are written alike.** Let an attribute of a plain type be an
array. The block of its logical node, which stands in that of the logical device that the node is
on, holds data unrolled, and in it the attribute at least once.
Wherever it occurs there is a line for each element, and all lines end with the value that is found
for the attribute, or with none. If values stand next to each other under its name, that is the
first of them, whichever element it is for; unless they stand directly below the data object, no
name on the way may hold a dot. -/
theorem elements_written_alike {d : Document} {ied : String} {ap : Option String}
    {ro : ResolveOptions} {res : Resolution} (hres : resolve d ied ap ro = .ok res)
    (o : EmitOptions) {id : Nat} {ln : Branch} (hln : res.model.branch? id = some ln)
    {config : LogicalNode} {space : Option Namespace}
    (hconfig : ln.node.kind = .logicalNode config space) {da : Branch} (hda : da ∈ ln.descendants)
    {fc : Constraint} {a : AttributeDef} (hkind : da.node.kind = .leaf fc a) (hcount : 0 < a.count)
    (hplain : a.type ≠ .constructed) :
    (∃ dev inst parts, ln.node.parent = some dev ∧ res.model.inst? dev = some inst ∧
      HasBlock (emit d res o none).text inst ln.name parts ∧
      parts.filter (·.tag ∈ ["DO", "DA"]) =
        res.model.layoutsOf (res.setting d o).initialValue? (unrolledAll ln.branches)) ∧
    (∃ t ∈ subtreesAll (unrolledAll ln.branches), t.mark = .node da.id) ∧
    (∀ t ∈ subtreesAll (unrolledAll ln.branches), t.mark = .node da.id →
      res.model.layoutOf (res.setting d o).initialValue? t =
        .block (res.model.headOf (.node da.id)) ((List.range a.count).map fun i =>
          .single (.element i) (.assignment ((res.setting d o).initialValue? da.id a)))) ∧
    ∀ {names first rest}, ln.Reaches names da →
      (names.length = 2 ∨ '.' ∉ ln.ref.toList ∧ ∀ n ∈ names, '.' ∉ n.toList) →
      config.siblings names = first :: rest →
      (res.setting d o).initialValue? da.id a = first.value?.bind (literal? d.registry a) := by
  obtain ⟨i, ap, -, -, hstage⟩ := Resolution.stage_of_resolve hres
  have hm := hstage.lawful
  have hp := hstage.plainEnds
  obtain ⟨hlns, rfl⟩ := (Branch.branch?_eq_some_iff hm.forest).mp hln
  have hk : ln.node.kind.isLogicalNode := by
    rw [hconfig]
    rfl
  refine ⟨?_, ?_, ?_, ?_⟩
  · obtain ⟨dev, inst, hparent, hinst, hblock⟩ := exists_hasBlock (d := d) (o := o) hm hlns hconfig
    let s := (res.setting d o).nodeStatement inst ln config
    refine ⟨dev, inst, s.layout.parts, hparent, hinst, hblock, ?_⟩
    rw [s.filter_data]
    exact layouts_nodeData hm hp hlns hk
  · have hmark := (mem_marksAll_iff ln.branches).mpr ⟨da, hda, rfl⟩
    exact List.mem_map.mp hmark
  · exact fun t => layout_elements hp hlns hda hkind hcount hplain
  · intro names first rest hr hdot hfirst
    have hleaf : da.node.kind.isLeaf := by
      rw [hkind]
      rfl
    have hconfig' : ln.node.kind.config? = some config := by
      rw [hconfig]
      rfl
    rw [Setting.initialValue?]
    show ((res.model.configured? da.id).bind Dai.value?).bind _ = _
    rw [configured?_of_siblings hm hlns hconfig' hleaf hr hdot hfirst, Option.bind_some]
    rfl

/-- An attribute with three elements. -/
def limitAttribute : AttributeDef := ⟨"lim", .sp, .int32, none, 3, {}, none, []⟩

/-- A data object with that attribute. -/
def limitTypes : Template.Registry where
  nodeTypes := ⟨[("L", ⟨"L", "GGIO", [⟨"Lim", "O", 0, false⟩]⟩)]⟩
  objectTypes := ⟨[("O", ⟨"O", "ASG", [], [limitAttribute]⟩)]⟩

/-- A value for the last element. -/
def lastLimit : Dai := ⟨"lim", some "2", none, [⟨none, "5"⟩]⟩

/-- A value for the first element. -/
def firstLimit : Dai := ⟨"lim", some "0", none, [⟨none, "3"⟩]⟩

/-- A logical node with these values. -/
def limitNode : LogicalNode :=
  ⟨"GGIO", "L", "1", none, none, [], [], [], [⟨"Lim", none, [], [lastLimit, firstLimit]⟩], [], [],
    [], none⟩

/-- An access point with that logical node. -/
def limitPoint : AccessPoint := ⟨"A", some ⟨[⟨"LD", none, none, none, [limitNode]⟩]⟩⟩

/-- A document with that access point. -/
def limitDocument : Document :=
  ⟨⟨none, none, none, none, none, [⟨"E", none, none, none, [limitPoint]⟩], none⟩, limitTypes, []⟩

/-- Namespaces and configuration revisions are not looked at. -/
def limitOptions : ResolveOptions := { checkConfigRev := false, checkNamespaces := false }

/-- The resolution of the document. -/
def limitResolution : Resolution :=
  .ofAccessPoint limitDocument limitOptions ⟨"E", none, none, none, [limitPoint]⟩ limitPoint

/-- The attribute stands below the logical node. -/
theorem exists_limit : ∃ ln da : Branch, limitResolution.model.branch? 1 = some ln ∧
    ln.node.kind = .logicalNode limitNode none ∧ da ∈ ln.descendants ∧
    da.node.kind = .leaf .sp limitAttribute ∧ ln.Reaches ["Lim", "lim"] da ∧ da.id = 3 := by
  have hm := (Resolution.stage_ofAccessPoint limitDocument limitOptions
    ⟨"E", none, none, none, [limitPoint]⟩ limitPoint).lawful
  have hcheck : (limitResolution.model.branch? 1).any fun ln =>
      (Branch.walk? ["Lim", "lim"] ln).any (·.id = 3) := by decide +kernel
  obtain ⟨ln, hln, hcheck⟩ := (Option.any_eq_true _ _).mp hcheck
  obtain ⟨da, hda, hid⟩ := (Option.any_eq_true _ _).mp hcheck
  have hid : da.id = 3 := of_decide_eq_true hid
  obtain ⟨n, hn, hkind⟩ : ∃ n, limitResolution.model.node? 1 = some n ∧
      n.kind = .logicalNode limitNode none := ⟨_, rfl, rfl⟩
  obtain ⟨n', hn', hkind'⟩ : ∃ n, limitResolution.model.node? 3 = some n ∧
      n.kind = .leaf .sp limitAttribute := ⟨_, rfl, rfl⟩
  obtain rfl := Branch.node_of_branch? hm.forest hln hn
  obtain ⟨hlns, -⟩ := (Branch.branch?_eq_some_iff hm.forest).mp hln
  have hr := Branch.reaches_of_walk? hda
  obtain rfl : da.node = n' := by
    have hda := (hr.stands hlns).node?
    rw [hid] at hda
    exact Option.some.inj (hda.symm.trans hn')
  refine ⟨ln, da, hln, hkind, ?_, hkind', hr, hid⟩
  refine (Branch.mem_preorder.mp hr.mem_preorder).resolve_left ?_
  rintro rfl
  exact absurd (hkind.symm.trans hkind') (by simp)

/-- All elements are written with the value for the last one, which comes first. -/
theorem elements_written_alike_limit :
    resolve limitDocument "E" none limitOptions = .ok limitResolution ∧
    ∃ ln da : Branch, limitResolution.model.branch? 1 = some ln ∧ da ∈ ln.descendants ∧
      da.node.kind = .leaf .sp limitAttribute ∧
      ∀ t ∈ subtreesAll (unrolledAll ln.branches), t.mark = .node da.id →
        limitResolution.model.layoutOf (limitResolution.setting limitDocument {}).initialValue? t =
          .block (limitResolution.model.headOf (.node da.id)) [
            .single (.element 0) (.assignment (some "5")),
            .single (.element 1) (.assignment (some "5")),
            .single (.element 2) (.assignment (some "5"))] := by
  have hres : resolve limitDocument "E" none limitOptions = .ok limitResolution := rfl
  obtain ⟨ln, da, hln, hkind, hda, hleaf, hr, -⟩ := exists_limit
  obtain ⟨-, -, hlayout, hsiblings⟩ :=
    elements_written_alike hres {} hln hkind hda hleaf (by decide) (by decide)
  have hfirst : limitNode.siblings ["Lim", "lim"] = lastLimit :: [firstLimit] := rfl
  have hvalue : _ = some "5" := hsiblings hr (.inl rfl) hfirst
  rw [hvalue] at hlayout
  exact ⟨hres, ln, da, hln, hda, hleaf, hlayout⟩

/-- The value that is configured for an element, by its number. -/
def elementValue? (r : Template.Registry) (a : AttributeDef) (values : List Dai) (i : Nat) :
    Option String :=
  ((values.find? (·.index = some (toString i))).bind Dai.value?).bind (literal? r a)

/-- The elements are not written with the values that are for them. -/
theorem elements_not_written_by_number :
    resolve limitDocument "E" none limitOptions = .ok limitResolution ∧
    ∃ ln da : Branch, limitResolution.model.branch? 1 = some ln ∧
      ln.node.kind = .logicalNode limitNode none ∧ da ∈ ln.descendants ∧
      da.node.kind = .leaf .sp limitAttribute ∧ ln.Reaches ["Lim", "lim"] da ∧
      limitNode.siblings ["Lim", "lim"] = [lastLimit, firstLimit] ∧
      ¬ (Layout.block (limitResolution.model.headOf (.node da.id)) ((List.range 3).map fun i =>
          .single (.element i) (.assignment
            (elementValue? limitTypes limitAttribute [lastLimit, firstLimit] i)))).lines <:+:
        (limitResolution.statement limitDocument {}).layout.lines := by
  obtain ⟨ln, da, hln, hkind, hda, hleaf, hr, hid⟩ := exists_limit
  refine ⟨rfl, ln, da, hln, hkind, hda, hleaf, hr, rfl, fun hlines => ?_⟩
  rw [hid] at hlines
  have hfirst := hlines.subset (show "[0]=3;" ∈ _ by decide +kernel)
  exact absurd hfirst (by decide +kernel)

end Substation
