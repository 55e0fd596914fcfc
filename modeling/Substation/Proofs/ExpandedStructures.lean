import Mathlib.Data.List.Basic
import Mathlib.Tactic.Common
import Substation.Proofs.NodeParts

/-!
# Which structures are expanded

A structured attribute whose type is registered has below it the attributes of the type, in order
(`structure_expanded`). The exception is made by the reference of the data object that it lies in:
if that ends with the name of the attribute, nothing is added. This is so where the two have one
name, but also where the name of the data object merely ends with that of the attribute
(`structure_left_out`).

Results:
* `structure_expanded` (`expand_data_object`, `expand_sub_attributes`): which structures are
  expanded, and to what;
* `structure_left_out`: one that is left empty for the end of a name.
-/

namespace Substation

open Substation.Config
open Substation.Model
open Substation.Template

/-! ## References that end with a name -/

namespace Text

theorem endsWith_iff {s tail : String} : endsWith s tail ↔ tail.toList <:+ s.toList :=
  List.isSuffixOf_iff_suffix

/-- A reference that goes on with a name ends with that name twice if it ended with it before. -/
theorem endsTwice_append (ref name : String) :
    endsTwice (ref ++ "." ++ name) name = endsWith ref name := by
  rw [Bool.eq_iff_iff, endsTwice, endsWith_iff, endsWith_iff]
  have hend : ∀ s : String, (s ++ "." ++ name).toList = s.toList ++ ("." ++ name).toList := by
    simp
  rw [hend, hend, ← List.reverse_prefix, List.reverse_append, List.reverse_append,
    List.prefix_append_right_inj, List.reverse_prefix]

/-- An end without a separator lies behind the separator. -/
theorem isSuffix_append_cons {sep : Char} {a b s : List Char} (hs : sep ∉ s) :
    s <:+ a ++ sep :: b ↔ s <:+ b := by
  constructor
  · intro h
    rcases List.suffix_or_suffix_of_suffix h (List.suffix_append a (sep :: b)) with h | h
    · exact (List.suffix_cons_iff.mp h).resolve_left fun heq => hs (heq ▸ List.mem_cons_self)
    · exact absurd (h.subset List.mem_cons_self) hs
  · exact fun h => h.trans ((List.suffix_cons sep b).trans (List.suffix_append a (sep :: b)))

/-- A name without dots is the end of a reference if it is the end of the last name in it. -/
theorem endsWith_append_dot {ref name tail : String} (hdot : '.' ∉ tail.toList) :
    endsWith (ref ++ "." ++ name) tail ↔ endsWith name tail := by
  have hlist : (ref ++ "." ++ name).toList = ref.toList ++ '.' :: name.toList := by simp
  rw [endsWith_iff, endsWith_iff, hlist, isSuffix_append_cons hdot]

end Text

/-! ## Structures -/

namespace Model

variable {r : Registry} {m : IedModel}

/-- Names and kinds of the nodes that a node lists below it. -/
def IedModel.partsOf (m : IedModel) (n : Node) : List (Option (String × NodeKind)) :=
  n.children.map fun c => (m.node? c).map Node.part

theorem Branch.Stands.partsOf {b : Branch} (hb : b.Stands m) :
    m.partsOf b.node = b.parts.map some := by
  rw [IedModel.partsOf, hb.children, List.map_map, Branch.parts, List.map_map]
  refine List.map_congr_left fun c hc => ?_
  rw [Function.comp_apply, (hb.of_mem hc).node?]
  rfl

end Model

/-- **A structured attribute is expanded unless the reference of its data object ends with its
name.** It has below it the attributes of its type, in order, in the constraint of the structure
where they have none of their own; in the excepted case it has nothing. That case includes every
attribute in a data object of its own name; if the name has no dots, it is that of the data objects
whose name ends with it. -/
theorem structure_expanded {d : Document} {ied : String} {ap : Option String} {o : ResolveOptions}
    {res : Resolution} (h : resolve d ied ap o = .ok res) {id : Nat} {n : Node}
    (hn : res.model.node? id = some n) {fc : Constraint} {a : AttributeDef}
    (hk : n.kind = .leaf fc a) (hc : a.type = .constructed) {t : AttributeType}
    (ht : d.registry.attributeType? (a.typeId.getD "") = some t) :
    ∃ p up, n.parent = some p ∧ res.model.node? p = some up ∧
      (res.model.partsOf n = if up.kind.isObject && Text.endsWith up.ref n.name then [] else
        t.leaves.map fun b => some (b.name, .leaf (innerConstraint fc b) b)) ∧
      (up.name = n.name → Text.endsWith up.ref n.name) ∧
      ('.' ∉ n.name.toList → up.kind.isObject →
        (Text.endsWith up.ref n.name ↔ Text.endsWith up.name n.name)) := by
  obtain ⟨i, access, -, -, hstage⟩ := Resolution.stage_of_resolve h
  have hm := hstage.lawful
  obtain ⟨b, hb, rfl⟩ := Branch.exists_stands hm.forest (IedModel.lt_size_of_node? hn)
  obtain rfl : b.node = n := Option.some.inj (hb.node?.symm.trans hn)
  obtain ⟨up, hup, hmem⟩ := hb.exists_above hm (by rw [hk]; rfl)
  obtain ⟨hadmits, href⟩ := hup.law_of_mem hm hmem
  rw [hk] at hadmits
  have hdevice : up.node.kind.isDevice = false := hadmits.isDevice_eq_false_of_below rfl
  rw [NodeKind.separator_of_not_isDevice hdevice] at href
  obtain ⟨top, htop, hmem'⟩ := hup.exists_above hm hdevice
  obtain ⟨hadmits', href'⟩ := htop.law_of_mem hm hmem'
  refine ⟨up.id, up.node, hup.parent_of_mem hm hmem, hup.node?, ?_, fun hname => ?_,
    fun hdot hobject => ?_⟩
  · have hsite : siteOf? d.registry up.node.kind.isObject b.ref b.node.kind =
        if up.node.kind.isObject && Text.endsWith up.ref b.name then none
        else some (.group b.ref fc t) := by
      rw [hk, siteOf?, structureType?, if_pos hc, ht, href, ← hstage.name_of_leaf hb hk,
        Text.endsTwice_append]
      rfl
    rw [hb.partsOf, hstage.complete hup hdevice hmem, hsite]
    show _ = if up.node.kind.isObject && Text.endsWith up.ref b.name then _ else _
    cases up.node.kind.isObject && Text.endsWith up.ref b.name with
    | true => rfl
    | false => exact List.map_map
  · show Text.endsWith up.ref b.name
    rw [href', Text.endsWith_iff, String.toList_append, ← show up.name = b.name from hname]
    exact List.suffix_append _ _
  · have hdevice' : top.node.kind.isDevice = false :=
      hadmits'.isDevice_eq_false_of_below (NodeKind.isLogicalNode_eq_false hobject)
    rw [NodeKind.separator_of_not_isDevice hdevice'] at href'
    show Text.endsWith up.ref b.name ↔ _
    rw [href']
    exact Text.endsWith_append_dot hdot

/-- Two data objects of one type, which has a structured attribute. -/
def amplitudeTypes : TypeSection :=
  ⟨[⟨"L", "GGIO", [⟨some "Amag", some "M", none, none⟩, ⟨some "Beh", some "M", none, none⟩]⟩],
    [⟨"M", "MV", [], [⟨some "mag", some "Struct", some "V", some "MX", none, none, none, none, none,
      none, none, []⟩]⟩],
    [⟨"V", [⟨some "f", some "FLOAT32", none, none, none, none, none, none, none, none, none, []⟩]⟩],
    []⟩

/-- An access point with a logical node of these. -/
def amplitudePoint : AccessPoint :=
  ⟨"A", some ⟨[⟨"LD", none, none, none,
    [⟨"GGIO", "L", "1", none, none, [], [], [], [], [], [], [], none⟩]⟩]⟩⟩

/-- A configuration with that access point. -/
def amplitudeScl : Scl where
  version := none
  revision := none
  release := none
  header := none
  communication := none
  ieds := [⟨"E", none, none, none, [amplitudePoint]⟩]
  types := some amplitudeTypes

/-- Namespaces are not looked at. -/
def amplitudeOptions : ResolveOptions := { checkNamespaces := false }

/-- The resolution of that configuration. -/
def amplitudeResolution : Resolution :=
  .ofAccessPoint (Document.ofScl amplitudeScl) amplitudeOptions
    ⟨"E", none, none, none, [amplitudePoint]⟩ amplitudePoint

/-- The structured attribute. -/
def amplitudeDef : AttributeDef := ⟨"mag", .mx, .constructed, some "V", 0, {}, none, []⟩

/-- Its type. -/
def amplitudeType : AttributeType := ⟨"V", [⟨"f", .none, .float32, none, 0, {}, none, []⟩]⟩

theorem attributeType?_amplitude : (Document.ofScl amplitudeScl).registry.attributeType?
    (amplitudeDef.typeId.getD "") = some amplitudeType := rfl

/-- In `Beh`, the attribute has the one of its type below it. -/
theorem structure_expanded_amplitude :
    let n : Node := ⟨"mag", "ELD/GGIO1.Beh.mag", some 4, [6], .leaf .mx amplitudeDef⟩
    resolve (Document.ofScl amplitudeScl) "E" none amplitudeOptions = .ok amplitudeResolution ∧
      amplitudeResolution.model.node? 5 = some n ∧ amplitudeDef.type = .constructed ∧
      (Document.ofScl amplitudeScl).registry.attributeType? (amplitudeDef.typeId.getD "") =
        some amplitudeType ∧
      amplitudeResolution.model.partsOf n =
        [some ("f", .leaf .mx ⟨"f", .none, .float32, none, 0, {}, none, []⟩)] := by
  intro n
  have hres : resolve (Document.ofScl amplitudeScl) "E" none amplitudeOptions =
    .ok amplitudeResolution := rfl
  have hn : amplitudeResolution.model.node? 5 = some n := rfl
  obtain ⟨p, up, hp, hup, hparts, -, -⟩ :=
    structure_expanded hres hn rfl rfl attributeType?_amplitude
  obtain rfl : 4 = p := Option.some.inj hp
  have href : up.ref = "ELD/GGIO1.Beh" := (IedModel.ref_eq hup).symm.trans (by decide +kernel)
  have hend : Text.endsWith up.ref n.name = false := by
    rw [href]
    decide +kernel
  refine ⟨hres, hn, rfl, attributeType?_amplitude, ?_⟩
  rw [hparts, hend, Bool.and_false]
  rfl

/-- In `Amag`, it has nothing below it, though it is not the name of the data object. -/
theorem structure_left_out :
    ¬ ∀ (scl : Scl) (ied : String) (ap : Option String) (o : ResolveOptions) (res : Resolution),
      resolve (Document.ofScl scl) ied ap o = .ok res →
      ∀ id n fc a t, res.model.node? id = some n → n.kind = .leaf fc a → a.type = .constructed →
        (Document.ofScl scl).registry.attributeType? (a.typeId.getD "") = some t →
        ∀ p up, n.parent = some p → res.model.node? p = some up →
          ¬ (up.kind.isObject ∧ up.name = n.name) →
          res.model.partsOf n =
            t.leaves.map fun b => some (b.name, .leaf (innerConstraint fc b) b) := by
  intro h
  let n : Node := ⟨"mag", "ELD/GGIO1.Amag.mag", some 2, [], .leaf .mx amplitudeDef⟩
  have hn : amplitudeResolution.model.node? 3 = some n := rfl
  obtain ⟨up, hup⟩ := IedModel.exists_node? (show 2 < amplitudeResolution.model.size by
    decide +kernel)
  have hname : up.name = "Amag" :=
    (IedModel.nameOf_eq hup).symm.trans (show amplitudeResolution.model.nameOf 2 = "Amag" by
      decide +kernel)
  have hother : ¬ (up.kind.isObject ∧ up.name = n.name) := fun hsame =>
    absurd (hname.symm.trans hsame.2) (by decide)
  exact nomatch h amplitudeScl "E" none amplitudeOptions amplitudeResolution rfl 3 n .mx
    amplitudeDef amplitudeType hn rfl rfl attributeType?_amplitude 2 up rfl hup hother

end Substation
