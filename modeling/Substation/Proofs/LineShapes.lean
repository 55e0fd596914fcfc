import Mathlib.Data.List.Forall2
import Mathlib.Data.List.TakeWhile
import Mathlib.Tactic.Common
import Substation.Proofs.AgreeingRows

/-!
# Shapes of lines

Who reads a static model by position sees its lines, the tag that a line starts with, and the fields
between blanks in the parentheses after it. The `shapes` of a text are the tags and the numbers of
fields of its lines.

A word without line feed, blank and closing parenthesis may be replaced by another one after a blank
or a dollar sign (`Reworded.shapes`), and what follows a closing parenthesis may be replaced as long
as no line feed is in it (`shapes_close`). So rows that agree have the same shapes, if fields and
literals that may stand for one another are equal or harmless (`shapes_of_agrees`).
-/

namespace Substation

namespace Emission

open Substation.Text

/-! ## Shapes -/

/-- The capitals that a line starts with. -/
def tagOf (l : List Char) : List Char := l.takeWhile Char.isUpper

/-- The texts between blanks in the parentheses after the tag of a line. -/
def fieldsOf? (l : List Char) : Option (List (List Char)) :=
  match l.dropWhile Char.isUpper with
  | '(' :: rest => some (split ' ' (rest.takeWhile (· != ')')))
  | _ => none

/-- The tag of a line, and the number of its fields if it has parentheses. -/
def shapeOf (l : List Char) : List Char × Option Nat := (tagOf l, (fieldsOf? l).map List.length)

/-- The shapes of the lines of a text. -/
def shapes (text : List Char) : List (List Char × Option Nat) := (split '\n' text).map shapeOf

theorem shapes_append_line (a b : List Char) : shapes (a ++ '\n' :: b) = shapes a ++ shapes b := by
  rw [shapes, split_append_sep, List.map_append]
  rfl

/-! ## Words -/

/-- A text that breaks neither a line nor a list of fields. -/
def Unbroken (s : List Char) : Prop := '\n' ∉ s ∧ ' ' ∉ s ∧ ')' ∉ s

instance : DecidablePred Unbroken := fun _ => inferInstanceAs (Decidable (_ ∧ _ ∧ _))

theorem Unbroken.append {s t : List Char} (hs : Unbroken s) (ht : Unbroken t) :
    Unbroken (s ++ t) := by
  simp only [Unbroken, List.mem_append, not_or]
  exact ⟨⟨hs.1, ht.1⟩, ⟨hs.2.1, ht.2.1⟩, hs.2.2, ht.2.2⟩

/-- The second text is the first one with other unbroken words in some places after a blank or a
dollar sign. -/
inductive Reworded : List Char → List Char → Prop
  | nil : Reworded [] []
  | cons (c : Char) {s t : List Char} (h : Reworded s t) : Reworded (c :: s) (c :: t)
  | word {c : Char} (hc : c = ' ' ∨ c = '$') {x y : List Char} (hx : Unbroken x)
      (hy : Unbroken y) {s t : List Char} (h : Reworded s t) :
      Reworded (c :: (x ++ s)) (c :: (y ++ t))

namespace Reworded

theorem refl : ∀ s : List Char, Reworded s s
  | [] => .nil
  | c :: s => .cons c (refl s)

theorem append {s t s' t' : List Char} (h : Reworded s t) (h' : Reworded s' t') :
    Reworded (s ++ s') (t ++ t') := by
  induction h with
  | nil => exact h'
  | cons c _ ih => exact .cons c ih
  | word hc hx hy _ ih =>
    rw [List.cons_append, List.cons_append, List.append_assoc, List.append_assoc]
    exact .word hc hx hy ih

/-- Rewording goes line by line. -/
theorem split {s t : List Char} (h : Reworded s t) :
    List.Forall₂ Reworded (Text.split '\n' s) (Text.split '\n' t) := by
  induction h with
  | nil => exact .cons .nil .nil
  | @cons c s t _ ih =>
    rw [Text.split, Text.split]
    split
    · exact .cons .nil ih
    · obtain ⟨a, rest, hs⟩ := List.exists_cons_of_ne_nil (split_ne_nil '\n' s)
      obtain ⟨b, rest', ht⟩ := List.exists_cons_of_ne_nil (split_ne_nil '\n' t)
      rw [hs, ht] at ih ⊢
      obtain ⟨ha, hrest⟩ := List.forall₂_cons.mp ih
      exact .cons (.cons c ha) hrest
  | @word c hc x y hx hy s t _ ih =>
    have hne : c ≠ '\n' := by
      rcases hc with rfl | rfl <;> decide
    obtain ⟨a, rest, hs⟩ := List.exists_cons_of_ne_nil (split_ne_nil '\n' s)
    obtain ⟨b, rest', ht⟩ := List.exists_cons_of_ne_nil (split_ne_nil '\n' t)
    rw [hs, ht] at ih
    obtain ⟨ha, hrest⟩ := List.forall₂_cons.mp ih
    rw [Text.split, Text.split, if_neg hne, if_neg hne, split_append_of_not_mem hx.1 hs,
      split_append_of_not_mem hy.1 ht]
    exact .cons (.word hc hx hy ha) hrest

theorem tagOf {s t : List Char} (h : Reworded s t) : Emission.tagOf s = Emission.tagOf t := by
  induction h with
  | nil => rfl
  | cons c _ ih =>
    unfold Emission.tagOf at ih ⊢
    rw [List.takeWhile_cons, List.takeWhile_cons, ih]
  | @word c hc _ _ _ _ _ _ _ _ =>
    have hupper : ¬c.isUpper = true := by
      rcases hc with rfl | rfl <;> decide
    rw [Emission.tagOf, Emission.tagOf, List.takeWhile_cons_of_neg hupper,
      List.takeWhile_cons_of_neg hupper]

theorem dropTag {s t : List Char} (h : Reworded s t) :
    Reworded (s.dropWhile Char.isUpper) (t.dropWhile Char.isUpper) := by
  induction h with
  | nil => exact .nil
  | cons c h ih =>
    rw [List.dropWhile_cons, List.dropWhile_cons]
    split
    · exact ih
    · exact .cons c h
  | @word c hc _ _ hx hy _ _ h _ =>
    have hupper : ¬c.isUpper = true := by
      rcases hc with rfl | rfl <;> decide
    rw [List.dropWhile_cons_of_neg hupper, List.dropWhile_cons_of_neg hupper]
    exact .word hc hx hy h

/-- The number of blanks up to the first closing parenthesis. -/
theorem count_blank {s t : List Char} (h : Reworded s t) :
    (s.takeWhile (· != ')')).count ' ' = (t.takeWhile (· != ')')).count ' ' := by
  induction h with
  | nil => rfl
  | cons c _ ih =>
    rw [List.takeWhile_cons, List.takeWhile_cons]
    split
    · rw [List.count_cons, List.count_cons, ih]
    · rfl
  | @word c hc x y hx hy s t _ ih =>
    have hopen : (c != ')') = true := by
      rcases hc with rfl | rfl <;> decide
    have hword {w : List Char} (hw : Unbroken w) (u : List Char) :
        ((w ++ u).takeWhile (· != ')')).count ' ' = (u.takeWhile (· != ')')).count ' ' := by
      have hall : ∀ d ∈ w, (d != ')') = true := fun d hd =>
        bne_iff_ne.mpr fun heq => hw.2.2 (heq ▸ hd)
      rw [List.takeWhile_append_of_pos hall, List.count_append,
        List.count_eq_zero_of_not_mem hw.2.1, Nat.zero_add]
    rw [List.takeWhile_cons, List.takeWhile_cons, if_pos hopen, if_pos hopen, List.count_cons,
      List.count_cons, hword hx, hword hy, ih]

theorem shapeOf {s t : List Char} (h : Reworded s t) :
    Emission.shapeOf s = Emission.shapeOf t := by
  refine Prod.ext h.tagOf ?_
  have hdrop := h.dropTag
  unfold Emission.shapeOf fieldsOf?
  generalize s.dropWhile Char.isUpper = s' at hdrop ⊢
  generalize t.dropWhile Char.isUpper = t' at hdrop ⊢
  cases hdrop with
  | nil => rfl
  | @cons c s t h =>
    by_cases hc : c = '('
    · subst hc
      simp only [Option.map_some, length_split, h.count_blank]
    · simp [hc]
  | word hc _ _ _ =>
    rcases hc with rfl | rfl <;> rfl

/-- **Other unbroken words leave the shapes of the lines as they are.** -/
theorem shapes {s t : List Char} (h : Reworded s t) : Emission.shapes s = Emission.shapes t := by
  have hlines := h.split
  unfold Emission.shapes
  generalize Text.split '\n' s = ls at hlines ⊢
  generalize Text.split '\n' t = ls' at hlines ⊢
  induction hlines with
  | nil => rfl
  | cons hl _ ih => rw [List.map_cons, List.map_cons, ih, hl.shapeOf]

end Reworded

/-! ## What follows a parenthesis -/

theorem takeWhile_append_stop {p : Char → Bool} {c : Char} (hc : p c = false) (l q : List Char) :
    (l ++ c :: q).takeWhile p = l.takeWhile p := by
  induction l with
  | nil => exact List.takeWhile_cons_of_neg (by simp [hc])
  | cons d l ih => rw [List.cons_append, List.takeWhile_cons, List.takeWhile_cons, ih]

theorem dropWhile_append_stop {p : Char → Bool} {c : Char} (hc : p c = false) (l q : List Char) :
    (l ++ c :: q).dropWhile p = l.dropWhile p ++ c :: q := by
  induction l with
  | nil => exact List.dropWhile_cons_of_neg (by simp [hc])
  | cons d l ih =>
    rw [List.cons_append, List.dropWhile_cons, List.dropWhile_cons]
    split
    · exact ih
    · rfl

/-- What follows a closing parenthesis does not count. -/
theorem shapeOf_close (l q : List Char) : shapeOf (l ++ ')' :: q) = shapeOf (l ++ [')']) := by
  have htag (q : List Char) : tagOf (l ++ ')' :: q) = tagOf l := takeWhile_append_stop rfl l q
  have hdrop (q : List Char) :
      (l ++ ')' :: q).dropWhile Char.isUpper = l.dropWhile Char.isUpper ++ ')' :: q :=
    dropWhile_append_stop rfl l q
  have hbody (r q : List Char) :
      (r ++ ')' :: q).takeWhile (· != ')') = r.takeWhile (· != ')') :=
    takeWhile_append_stop rfl r q
  refine Prod.ext ((htag q).trans (htag []).symm) ?_
  unfold shapeOf fieldsOf?
  simp only [hdrop]
  cases l.dropWhile Char.isUpper with
  | nil => rfl
  | cons c r =>
    by_cases hc : c = '('
    · subst hc
      simp only [List.cons_append, hbody]
    · simp [hc]

/-- What follows a closing parenthesis does not count, even where line feeds stand before it. -/
theorem shapes_close (p : List Char) {q q' : List Char} (hq : '\n' ∉ q) (hq' : '\n' ∉ q') :
    shapes (p ++ ')' :: q) = shapes (p ++ ')' :: q') := by
  have hline {q : List Char} (h : '\n' ∉ q) : '\n' ∉ ')' :: q :=
    List.not_mem_cons_of_ne_of_not_mem (by decide) h
  obtain ⟨front, last, hsplit⟩ := exists_split_append '\n' p
  rw [shapes, shapes, hsplit _ (hline hq), hsplit _ (hline hq'), List.map_append, List.map_append,
    List.map_singleton, List.map_singleton, shapeOf_close, shapeOf_close last q']

/-- The number of an element is no tag. -/
theorem shapes_element (i : Nat) {q : List Char} (hq : '\n' ∉ q) :
    shapes ((elementMark i).toList ++ q) = [([], none)] := by
  have hmark : '\n' ∉ (elementMark i).toList := Head.newline_not_mem (h := .element i) trivial
  rw [shapes, split_of_not_mem, toList_elementMark]
  · rfl
  · simpa [hq] using hmark

/-! ## Rows -/

/-- Fields that may stand for one another: unbroken ones, as such or behind the owner of a log. -/
inductive Exchangeable : String → String → Prop
  | same (f : String) : Exchangeable f f
  | word {x y : String} (hx : Unbroken x.toList) (hy : Unbroken y.toList) : Exchangeable x y
  | log (device node : String) {x y : String} (hx : Unbroken x.toList) (hy : Unbroken y.toList) :
      Exchangeable (Config.logOwner device node ++ x) (Config.logOwner device node ++ y)

/-- Literals that may stand for one another: they stay on their line. -/
def SameLine (x y : Option String) : Prop :=
  x = y ∨ (Tail.assignment x).Plain ∧ (Tail.assignment y).Plain

theorem reworded_joined {fs fs' : List String} (h : List.Forall₂ Exchangeable fs fs') :
    Reworded (joined ' ' fs) (joined ' ' fs') := by
  induction h with
  | nil => exact .nil
  | @cons f f' fs fs' hf _ ih =>
    rw [joined, joined, List.flatMap_cons, List.flatMap_cons]
    refine Reworded.append ?_ ih
    cases hf with
    | same => exact .refl _
    | word hx hy =>
      have hword := Reworded.word (.inl rfl) hx hy .nil
      rwa [List.append_nil, List.append_nil] at hword
    | @log device node x y hx hy =>
      have hword := Reworded.word (.inr rfl) hx hy .nil
      rw [List.append_nil, List.append_nil] at hword
      have howner (z : String) : (Config.logOwner device node ++ z).toList =
          (device ++ "/" ++ node).toList ++ '$' :: z.toList := by
        simp [Config.logOwner]
      rw [howner, howner]
      exact .cons ' ' (Reworded.append (.refl _) hword)

theorem reworded_head {h h' : Head} (hh : h.Agrees Exchangeable h') :
    Reworded h.text.toList h'.text.toList := by
  cases hh with
  | same => exact .refl _
  | @control tag htag name fs fs' hfs =>
    have htext (fs : List String) : (Head.call tag (name :: fs)).text.toList =
        tag.toList ++ '(' :: (name.toList ++ (joined ' ' fs ++ [')'])) := by
      simp [Head.text, toList_spaced]
    rw [htext, htext]
    refine Reworded.append (.refl _) (.cons '(' (Reworded.append (.refl _) ?_))
    exact (reworded_joined hfs).append (.refl _)

/-- Rows that agree have the same shapes. -/
theorem shapes_row {r r' : Row} (h : r.Agrees SameLine Exchangeable r') :
    shapes r.text.toList = shapes r'.text.toList := by
  have hline {x : Option String} (hx : (Tail.assignment x).Plain) :
      '\n' ∉ (Emission.assignment x).toList := Tail.newline_not_mem hx
  cases h with
  | opens hh =>
    simp only [Row.text, String.toList_append]
    exact ((reworded_head hh).append (.refl _)).shapes
  | closes => rfl
  | single hh t =>
    simp only [Row.text, String.toList_append]
    exact ((reworded_head hh).append (.refl _)).shapes
  | @value f x y hv =>
    rcases hv with rfl | ⟨hx, hy⟩
    · rfl
    · have htext (z : Option String) :
          (Row.single (DataStatement.leafHead f) (.assignment z)).text.toList =
            ("DA".toList ++ '(' :: (spaced (f.fields.map Field.shown)).toList) ++
              ')' :: (Emission.assignment z).toList := by
        simp [Row.text, Tail.text, DataStatement.leafHead, Head.ofFields, Head.text]
      rw [htext, htext]
      exact shapes_close _ (hline hx) (hline hy)
  | @element i x y hv =>
    rcases hv with rfl | ⟨hx, hy⟩
    · rfl
    · simp only [Row.text, Head.text, Tail.text, String.toList_append]
      rw [shapes_element i (hline hx), shapes_element i (hline hy)]

/-- **Layouts that agree are written as lines of the same shapes**, if fields and literals may only
be replaced by exchangeable ones. -/
theorem shapes_of_agrees {t t' : Layout} (h : t.Agrees SameLine Exchangeable t') :
    shapes (t.lines.flatMap fun l => l.toList ++ ['\n']) =
      shapes (t'.lines.flatMap fun l => l.toList ++ ['\n']) := by
  unfold Layout.Agrees at h
  unfold Layout.lines
  generalize t.rows = rows at h ⊢
  generalize t'.rows = rows' at h ⊢
  induction h with
  | nil => rfl
  | cons hr _ ih =>
    rw [List.map_cons, List.map_cons, List.flatMap_cons, List.flatMap_cons, List.append_assoc,
      List.append_assoc, List.singleton_append, List.singleton_append, shapes_append_line,
      shapes_append_line, shapes_row hr, ih]

end Emission

end Substation
