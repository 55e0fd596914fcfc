import Mathlib.Data.List.Nodup
import Mathlib.Tactic.Common
import Substation.Proofs.Binding

/-!
# Sources of values

A value that is bound to an attribute is checked for it, but it is written only if it is found when
looking from the attribute. That look-up takes the first data object of a name and then the first
part of each name (`valueAt?`), so a value in a later part of the same name is checked and not
written. Where the parts of each place have names of their own (`Apart`), a bound attribute always
has a value, although several values may be configured for it (`bound_value_found`).

Results:
* `isSome_valueAt?_of_holds`: something is found where parts have names of their own;
* `bound_value_found` (`dai_for_attribute`, `bind_dai`): which value a bound attribute gets;
* `bound_value_missed`: one that is not found.
-/

namespace Substation

open Substation.Config
open Substation.Model
open Substation.Resolution
open Substation.Template

/-! ## The first parts of each name -/

namespace Config

variable {path : List String} {a : Dai}

namespace Sdi

variable {s : Sdi}

/-- Parts directly below one part have names of their own. -/
def Apart (s : Sdi) : Prop := ∀ t ∈ s.parts, (t.nested.map name).Nodup

theorem Apart.of_mem {t : Sdi} (h : s.Apart) (ht : t ∈ s.nested) : t.Apart := by
  intro u hu
  refine h u ?_
  cases s
  rw [parts]
  exact List.mem_cons_of_mem _ (mem_partsAll.mpr ⟨t, ht, hu⟩)

/-- Something is found at a path where values stand, unless there is another part of some name. -/
theorem isSome_valueAt?_of_holds (hs : s.Apart) (h : s.Holds path a) :
    (s.valueAt? path).isSome := by
  induction h with
  | @leaf s a ha => exact List.find?_isSome.mpr ⟨a, ha, decide_eq_true rfl⟩
  | @nested s t path a ht h ih =>
    rw [valueAt?_of_mem (hs s s.self_mem_parts) ht h.ne_nil]
    exact ih (hs.of_mem ht)

end Sdi

namespace LogicalNode

variable {c : LogicalNode}

/-- Data objects, and the parts directly below one data object or part, have names of their own. The
attributes there need not. -/
structure Apart (c : LogicalNode) : Prop where
  instances : (c.instances.map Doi.name).Nodup
  parts : ∀ d ∈ c.instances, d.part.Apart

theorem isSome_valueAt?_of_holds (hc : c.Apart) (h : c.Holds path a) :
    (c.valueAt? path).isSome := by
  cases h with
  | @mk d path a hd h =>
    rw [valueAt?_of_mem hc.instances hd]
    exact Sdi.isSome_valueAt?_of_holds (hc.parts d hd) h

end LogicalNode

end Config

/-- **A bound attribute gets the value in the first part of each name.** Let a path of instance
names be for an attribute, and let no name hold a dot. The value that is found for the attribute is
the one that the first data object and the first parts of the names on the path have; so what is
found stands at a path that is for the attribute, and something is found if values stand at the path
and no part has the name of another one beside it. -/
theorem bound_value_found {d : Document} {ied : String} {ap : Option String}
    {o : ResolveOptions} {res : Resolution} (h : resolve d ied ap o = .ok res) {id : Nat}
    {ln : Branch} (hln : res.model.branch? id = some ln) {config : LogicalNode}
    (hconfig : ln.node.kind.config? = some config)
    (hdevice : ∀ up, ln.node.parent = some up → '.' ∉ (res.model.nameOf up).toList)
    (hdot : ln.Dotless) {names : List String} (hnames : ∀ n ∈ names, '.' ∉ n.toList) {da : Branch}
    (hbind : bind? ln names = some da) :
    res.model.configured? da.id = config.valueAt? names ∧
    (∀ a, res.model.configured? da.id = some a →
      ∃ path, config.Holds path a ∧ bind? ln path = some da) ∧
    (config.Apart → ∀ dai, config.Holds names dai → (res.model.configured? da.id).isSome) := by
  obtain ⟨hm, hstands, hndev, href⟩ := stands_of_dotless h hln hconfig hdevice hdot
  obtain ⟨hr, hleaf⟩ := reaches_of_bind? hm hstands hndev hdot hnames hbind
  have hfound : res.model.configured? da.id = config.valueAt? names := by
    rw [IedModel.configured?_eq_map, configuredAt?_of_reaches hm hstands hconfig href hdot hr hleaf,
      Option.map_map]
    exact Option.map_id'
  refine ⟨hfound, fun a ha => ⟨names, LogicalNode.holds_of_valueAt? (hfound ▸ ha), hbind⟩,
    fun hapart dai hdai => ?_⟩
  rw [hfound]
  exact LogicalNode.isSome_valueAt?_of_holds hapart hdai

/-- A logical node of a resolution with what is found out about it by evaluation. -/
theorem exists_logicalNode {d : Document} {ied : String} {ap : Option String} {o : ResolveOptions}
    {res : Resolution} (hres : resolve d ied ap o = .ok res) {id up : Nat} {n : Node}
    (hn : res.model.node? id = some n) {config : LogicalNode}
    (hconfig : n.kind.config? = some config) (hname : '.' ∉ (res.model.nameOf up).toList)
    {check : Branch → Bool} (h : (res.model.branch? id).any fun ln =>
      decide (ln.node.parent = some up ∧ ln.Dotless) && check ln) :
    ∃ ln, res.model.branch? id = some ln ∧ ln.node.kind.config? = some config ∧
      (∀ up, ln.node.parent = some up → '.' ∉ (res.model.nameOf up).toList) ∧ ln.Dotless ∧
      check ln := by
  obtain ⟨ln, hln, h⟩ := (Option.any_eq_true _ _).mp h
  obtain ⟨hup, hcheck⟩ := (Bool.and_eq_true _ _).mp h
  obtain ⟨hparent, hdot⟩ := of_decide_eq_true hup
  obtain ⟨_, _, -, -, hstage⟩ := stage_of_resolve hres
  obtain rfl := Branch.node_of_branch? hstage.lawful.forest hln hn
  refine ⟨ln, hln, hconfig, fun up hup => ?_, hdot, hcheck⟩
  cases hparent.symm.trans hup
  exact hname

/-- A structured attribute with two attributes in it. -/
def repeatedTypes : Registry where
  nodeTypes := ⟨[("L", ⟨"L", "GGIO", [⟨"Mod", "M", 0, false⟩]⟩)]⟩
  objectTypes := ⟨[("M", ⟨"M", "ENC", [],
    [⟨"origin", .st, .constructed, some "O", 2, {}, none, []⟩]⟩)]⟩
  attributeTypes := ⟨[("O", ⟨"O", [⟨"q", .none, .int32, none, 0, {}, none, []⟩,
    ⟨"t", .none, .int32, none, 0, {}, none, []⟩]⟩)]⟩

/-- Values for the elements of an array, in two parts of one name. -/
def repeatedNode : LogicalNode :=
  ⟨"GGIO", "L", "1", none, none, [], [], [],
    [⟨"Mod", none, [.mk "origin" (some "0") [] [⟨"q", none, none, [⟨none, "3"⟩]⟩],
      .mk "origin" (some "1") [] [⟨"t", none, none, [⟨none, "4"⟩]⟩]], []⟩], [], [], [], none⟩

/-- A document with that logical node. -/
def repeatedDocument : Document :=
  ⟨⟨none, none, none, none, none, [⟨"E", none, none, none,
    [⟨"A", some ⟨[⟨"LD", none, none, none, [repeatedNode]⟩]⟩⟩]⟩], none⟩, repeatedTypes, []⟩

/-- Both values are bound to attributes of that document. -/
theorem bind?_repeatedDocument : ∃ res ln, ∃ q t : Branch,
    resolve repeatedDocument "E" none { checkNamespaces := false } = .ok res ∧
      res.model.branch? 1 = some ln ∧ ln.node.kind.config? = some repeatedNode ∧
      (∀ up, ln.node.parent = some up → '.' ∉ (res.model.nameOf up).toList) ∧ ln.Dotless ∧
      bind? ln ["Mod", "origin", "q"] = some q ∧ bind? ln ["Mod", "origin", "t"] = some t ∧
      res.model.configured? t.id = none := by
  have hresolve : ∃ res, resolve repeatedDocument "E" none { checkNamespaces := false } = .ok res ∧
      (∃ n, res.model.node? 1 = some n ∧ n.kind.config? = some repeatedNode) ∧
      '.' ∉ (res.model.nameOf 0).toList ∧
      (res.model.branch? 1).any fun ln => decide (ln.node.parent = some 0 ∧ ln.Dotless) &&
        ((bind? ln ["Mod", "origin", "q"]).isSome &&
          (bind? ln ["Mod", "origin", "t"]).any fun t => res.model.configured? t.id = none) :=
    ⟨_, rfl, ⟨_, rfl, rfl⟩, by decide +kernel, by decide +kernel⟩
  obtain ⟨res, hres, ⟨n, hn, hconfig⟩, hname, hcheck⟩ := hresolve
  obtain ⟨ln, hln, hconfig, hdevice, hdot, hcheck⟩ :=
    exists_logicalNode hres hn hconfig hname hcheck
  obtain ⟨hq, ht⟩ := (Bool.and_eq_true _ _).mp hcheck
  obtain ⟨q, hq⟩ := Option.isSome_iff_exists.mp hq
  obtain ⟨t, ht, hnone⟩ := (Option.any_eq_true _ _).mp ht
  exact ⟨res, ln, q, t, hres, hln, hconfig, hdevice, hdot, hq, ht, of_decide_eq_true hnone⟩

/-- Attributes two levels below a structured one. -/
def siblingTypes : Registry where
  nodeTypes := ⟨[("L", ⟨"L", "GGIO", [⟨"Mod", "M", 0, false⟩]⟩)]⟩
  objectTypes := ⟨[("M", ⟨"M", "ENC", [],
    [⟨"origin", .st, .constructed, some "O", 0, {}, none, []⟩]⟩)]⟩
  attributeTypes := ⟨[("B", ⟨"B", [⟨"t", .none, .int32, none, 0, {}, none, []⟩]⟩),
    ("O", ⟨"O", [⟨"from", .none, .constructed, some "B", 0, {}, none, []⟩,
      ⟨"to", .none, .constructed, some "B", 0, {}, none, []⟩]⟩)]⟩

/-- Values in two parts, each of a name of its own, and two of them for one attribute. -/
def siblingNode : LogicalNode :=
  ⟨"GGIO", "L", "1", none, none, [], [], [],
    [⟨"Mod", none, [.mk "origin" none
      [.mk "from" none [] [⟨"t", none, none, [⟨none, "3"⟩]⟩],
        .mk "to" none [] [⟨"t", none, none, [⟨none, "4"⟩]⟩, ⟨"t", none, none, [⟨none, "5"⟩]⟩]]
      []], []⟩], [], [], [], none⟩

/-- A document with that logical node. -/
def siblingDocument : Document :=
  ⟨⟨none, none, none, none, none, [⟨"E", none, none, none,
    [⟨"A", some ⟨[⟨"LD", none, none, none, [siblingNode]⟩]⟩⟩]⟩], none⟩, siblingTypes, []⟩

/-- The path of the two values is for an attribute of that document. -/
theorem bind?_siblingDocument : ∃ res ln, ∃ t : Branch,
    resolve siblingDocument "E" none { checkNamespaces := false } = .ok res ∧
      res.model.branch? 1 = some ln ∧ ln.node.kind.config? = some siblingNode ∧
      (∀ up, ln.node.parent = some up → '.' ∉ (res.model.nameOf up).toList) ∧ ln.Dotless ∧
      bind? ln ["Mod", "origin", "to", "t"] = some t := by
  have hresolve : ∃ res, resolve siblingDocument "E" none { checkNamespaces := false } = .ok res ∧
      (∃ n, res.model.node? 1 = some n ∧ n.kind.config? = some siblingNode) ∧
      '.' ∉ (res.model.nameOf 0).toList ∧
      (res.model.branch? 1).any fun ln => decide (ln.node.parent = some 0 ∧ ln.Dotless) &&
        (bind? ln ["Mod", "origin", "to", "t"]).isSome :=
    ⟨_, rfl, ⟨_, rfl, rfl⟩, by decide +kernel, by decide +kernel⟩
  obtain ⟨res, hres, ⟨n, hn, hconfig⟩, hname, hcheck⟩ := hresolve
  obtain ⟨ln, hln, hconfig, hdevice, hdot, hcheck⟩ :=
    exists_logicalNode hres hn hconfig hname hcheck
  obtain ⟨t, ht⟩ := Option.isSome_iff_exists.mp hcheck
  exact ⟨res, ln, t, hres, hln, hconfig, hdevice, hdot, ht⟩

theorem apart_siblingNode : siblingNode.Apart where
  instances := by decide
  parts := by
    unfold Sdi.Apart
    decide

/-- The value in the first part is found, and where the parts have names of their own, so is one of
two values for an attribute. -/
theorem bound_value_found_first : (∃ res ln, ∃ q : Branch,
    resolve repeatedDocument "E" none { checkNamespaces := false } = .ok res ∧
      res.model.branch? 1 = some ln ∧ ln.node.kind.config? = some repeatedNode ∧
      (∀ up, ln.node.parent = some up → '.' ∉ (res.model.nameOf up).toList) ∧ ln.Dotless ∧
      (∀ n ∈ ["Mod", "origin", "q"], '.' ∉ n.toList) ∧
      bind? ln ["Mod", "origin", "q"] = some q ∧
      res.model.configured? q.id = some ⟨"q", none, none, [⟨none, "3"⟩]⟩) ∧
    ∃ res ln, ∃ t : Branch,
      resolve siblingDocument "E" none { checkNamespaces := false } = .ok res ∧
        res.model.branch? 1 = some ln ∧ ln.node.kind.config? = some siblingNode ∧
        (∀ up, ln.node.parent = some up → '.' ∉ (res.model.nameOf up).toList) ∧ ln.Dotless ∧
        (∀ n ∈ ["Mod", "origin", "to", "t"], '.' ∉ n.toList) ∧
        bind? ln ["Mod", "origin", "to", "t"] = some t ∧ siblingNode.Apart ∧
        siblingNode.Holds ["Mod", "origin", "to", "t"] ⟨"t", none, none, [⟨none, "5"⟩]⟩ ∧
        ∃ a path, res.model.configured? t.id = some a ∧ siblingNode.Holds path a ∧
          bind? ln path = some t := by
  constructor
  · obtain ⟨res, ln, q, -, hres, hln, hconfig, hdevice, hdot, hq, -⟩ := bind?_repeatedDocument
    have hnames : ∀ n ∈ ["Mod", "origin", "q"], '.' ∉ n.toList := by decide
    exact ⟨res, ln, q, hres, hln, hconfig, hdevice, hdot, hnames, hq,
      (bound_value_found hres hln hconfig hdevice hdot hnames hq).1⟩
  · obtain ⟨res, ln, t, hres, hln, hconfig, hdevice, hdot, ht⟩ := bind?_siblingDocument
    have hnames : ∀ n ∈ ["Mod", "origin", "to", "t"], '.' ∉ n.toList := by decide
    have hsecond : siblingNode.Holds ["Mod", "origin", "to", "t"]
        ⟨"t", none, none, [⟨none, "5"⟩]⟩ :=
      .mk (d := ⟨"Mod", none, _, []⟩) (List.mem_singleton.mpr rfl) <|
        .nested (t := .mk "origin" none _ []) (List.mem_singleton.mpr rfl) <|
          .nested (t := .mk "to" none [] _) (List.mem_cons_of_mem _ (List.mem_singleton.mpr rfl)) <|
            .leaf (a := ⟨"t", none, none, _⟩) (List.mem_cons_of_mem _ (List.mem_singleton.mpr rfl))
    obtain ⟨-, hstands, hsome⟩ := bound_value_found hres hln hconfig hdevice hdot hnames ht
    obtain ⟨a, ha⟩ := Option.isSome_iff_exists.mp (hsome apart_siblingNode _ hsecond)
    obtain ⟨path, hpath, hbind⟩ := hstands a ha
    exact ⟨res, ln, t, hres, hln, hconfig, hdevice, hdot, hnames, ht, apart_siblingNode, hsecond,
      a, path, ha, hpath, hbind⟩

/-- **A value that is bound to an attribute need not be found**: the one in the second part is
checked for its attribute, which has no value for all that. -/
theorem bound_value_missed : ∃ res ln, ∃ t : Branch, ∃ dai : Dai,
    resolve repeatedDocument "E" none { checkNamespaces := false } = .ok res ∧
      res.model.branch? 1 = some ln ∧ ln.node.kind.config? = some repeatedNode ∧
      repeatedNode.Holds ["Mod", "origin", "t"] dai ∧
      bind? ln ["Mod", "origin", "t"] = some t ∧ res.model.configured? t.id = none := by
  obtain ⟨res, ln, -, t, hres, hln, hconfig, -, -, -, ht, hnone⟩ := bind?_repeatedDocument
  have hsecond : repeatedNode.Holds ["Mod", "origin", "t"] ⟨"t", none, none, [⟨none, "4"⟩]⟩ :=
    .mk (d := ⟨"Mod", none, _, []⟩) (List.mem_singleton.mpr rfl) <|
      .nested (t := .mk "origin" (some "1") [] _)
        (List.mem_cons_of_mem _ (List.mem_singleton.mpr rfl))
        (.leaf (a := ⟨"t", none, none, _⟩) (List.mem_singleton.mpr rfl))
  exact ⟨res, ln, t, _, hres, hln, hconfig, hsecond, ht, hnone⟩

end Substation
