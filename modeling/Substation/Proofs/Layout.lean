import Mathlib.Data.List.Basic
import Mathlib.Tactic.Common
import Substation.Emission.ControlStatement
import Substation.Proofs.Names
import Substation.Proofs.Numerals
import Substation.Proofs.Scripts

/-!
# Layout of the static model

Seen from its lines, the text of a static model is a tree of blocks. A line starts with a call, such
as `DO(Mod 0)`, or with the number of an element, such as `[0]`. What follows tells whether the line
opens a block, ends with a value or just ends; a line with a brace closes the block that was opened
last.

`Layout.read?` reads the tree off the text, and `Layout.read?_lines` says that it reads what was
written, if the fields of calls are bare and values stay on their line.
-/

namespace Substation.Emission

open Substation.Text

/-! ## Rows -/

/-- What stands at the front of a line. -/
inductive Head where
  /-- A call: a tag, and fields between parentheses. -/
  | call (tag : String) (fields : List String)
  /-- The number of an element. -/
  | element (number : Nat)
deriving DecidableEq, Repr

/-- How a line ends that opens no block. -/
inductive Tail where
  /-- With nothing. -/
  | nothing
  /-- With a semicolon, after a value or without one. -/
  | assignment (literal : Option String)
deriving DecidableEq, Repr

/-- A line of the text. -/
inductive Row where
  /-- The first line of a block. -/
  | opens (h : Head)
  /-- The last line of a block. -/
  | closes
  /-- A line of its own. -/
  | single (h : Head) (t : Tail)
deriving DecidableEq, Repr

/-- The text of a head. -/
def Head.text : Head → String
  | call tag fields => tag ++ "(" ++ spaced fields ++ ")"
  | element number => elementMark number

/-- The text of a tail. -/
def Tail.text : Tail → String
  | nothing => ""
  | .assignment literal => Emission.assignment literal

/-- The text of a line. -/
def Row.text : Row → String
  | opens h => h.text ++ "\x7b"
  | closes => "\x7d"
  | single h t => h.text ++ t.text

/-! ### What may stand in a row -/

/-- White space, and the characters that set the parts of a line apart. -/
def isMark (c : Char) : Bool := isWhite c || ['(', ')', '\x7b', '\x7d', ';'].contains c

/-- The text holds no mark. -/
def Bare (s : String) : Prop := s.toList.all (!isMark ·) = true

instance : DecidablePred Bare := fun s => inferInstanceAs (Decidable (s.toList.all _ = true))

theorem bare_iff {s : String} : Bare s ↔ ∀ c ∈ s.toList, isMark c = false := by
  simp [Bare]

theorem isMark_of_isNumeric {c : Char} (h : isNumeric c = true) : isMark c = false := by
  rw [isMark, isWhite_of_isNumeric h, Bool.false_or, Bool.eq_false_iff]
  intro hm
  simp only [List.contains_iff_mem, List.mem_cons, List.not_mem_nil, or_false] at hm
  rcases hm with rfl | rfl | rfl | rfl | rfl <;> exact absurd h (by decide)

theorem Bare.of_isNumeric {s : String} (h : ∀ c ∈ s.toList, isNumeric c = true) : Bare s :=
  bare_iff.mpr fun c hc => isMark_of_isNumeric (h c hc)

theorem Bare.append {s t : String} (hs : Bare s) (ht : Bare t) : Bare (s ++ t) := by
  rw [Bare, String.toList_append, List.all_append, Bool.and_eq_true]
  exact ⟨hs, ht⟩

theorem Bare.not_mem {s : String} (h : Bare s) {c : Char} (hc : isMark c = true) :
    c ∉ s.toList := fun hm => by
  rw [bare_iff.mp h c hm] at hc
  exact Bool.noConfusion hc

/-- The tag consists of capitals. -/
def IsTag (tag : String) : Prop := tag.toList.all Char.isUpper = true

instance : DecidablePred IsTag := fun tag => inferInstanceAs (Decidable (tag.toList.all _ = true))

theorem IsTag.not_mem {tag : String} (h : IsTag tag) {c : Char} (hc : c.isUpper = false) :
    c ∉ tag.toList := fun hm => by
  rw [List.all_eq_true.mp h c hm] at hc
  exact Bool.noConfusion hc

/-- The tag is one, and there are fields, all of them bare. -/
def Head.Plain : Head → Prop
  | call tag fields => IsTag tag ∧ fields ≠ [] ∧ ∀ f ∈ fields, Bare f
  | element _ => True

/-- The value stays on its line. -/
def Tail.Plain : Tail → Prop
  | nothing => True
  | .assignment literal => ∀ v ∈ literal, '\n' ∉ v.toList

/-- Every part of the line is plain. -/
def Row.Plain : Row → Prop
  | opens h => h.Plain
  | closes => True
  | single h t => h.Plain ∧ t.Plain

/-! ### Reading a row -/

/-- Reads a head; what follows is left. -/
def Head.read? (s : String) : Option (Head × String) :=
  match s.toList with
  | '[' :: more => do
    let (digits, rest) ← splitFirst? ']' (String.ofList more)
    let number ← natural? digits
    return (element number, rest)
  | _ => do
    let (tag, more) ← splitFirst? '(' s
    let (fields, rest) ← splitFirst? ')' more
    return (call tag (segments ' ' fields), rest)

/-- The line with a head, if `rest` follows it. -/
def Row.ofHead? (h : Head) (rest : String) : Option Row :=
  match rest.toList with
  | [] => some (single h .nothing)
  | ['\x7b'] => some (opens h)
  | [';'] => some (single h (.assignment none))
  | '=' :: more => some (single h (.assignment (some (String.ofList more.dropLast))))
  | _ => none

/-- Reads a line. -/
def Row.read? (s : String) : Option Row :=
  if s = "\x7d" then some closes
  else (Head.read? s).bind fun (h, rest) => Row.ofHead? h rest

theorem toList_spaced (f : String) (fs : List String) :
    (spaced (f :: fs)).toList = f.toList ++ joined ' ' fs := by
  rw [spaced, String.toList_intercalate]
  induction fs generalizing f with
  | nil => simp [joined]
  | cons g fs ih =>
    rw [List.map_cons, List.map_cons, List.intercalate_cons_cons, ← List.map_cons, ih]
    simp [joined]

theorem segments_spaced {fs : List String} (hne : fs ≠ []) (h : ∀ f ∈ fs, Bare f) :
    segments ' ' (spaced fs) = fs := by
  cases fs with
  | nil => exact absurd rfl hne
  | cons f fs =>
    obtain ⟨hf, hfs⟩ := List.forall_mem_cons.mp h
    rw [segments, toList_spaced, split_joined (hf.not_mem (by decide)) fun g hg =>
      (hfs g hg).not_mem (by decide)]
    simp

theorem not_mem_spaced {fs : List String} (h : ∀ f ∈ fs, Bare f) {c : Char}
    (hc : isMark c = true) (hne : c ≠ ' ') : c ∉ (spaced fs).toList := by
  cases fs with
  | nil => simp [spaced]
  | cons f fs =>
    obtain ⟨hf, hfs⟩ := List.forall_mem_cons.mp h
    rw [toList_spaced, joined, List.mem_append, List.mem_flatMap]
    rintro (hm | ⟨g, hg, hm⟩)
    · exact hf.not_mem hc hm
    · exact (hfs g hg).not_mem hc ((List.mem_cons.mp hm).resolve_left hne)

theorem toList_elementMark (n : Nat) :
    (elementMark n).toList = '[' :: ((toString n).toList ++ [']']) := by
  simp [elementMark]

theorem Head.read?_element (n : Nat) (rest : String) :
    Head.read? ((element n).text ++ rest) = some (element n, rest) := by
  have hn : ']' ∉ (toString n).toList := fun hm =>
    absurd (isNumeric_toString_nat hm) (by decide)
  have hsplit : splitFirst? ']' (String.ofList ((toString n).toList ++ ']' :: rest.toList)) =
      some (toString n, rest) := by
    rw [splitFirst?_append hn String.toList_ofList, String.ofList_toList, String.ofList_toList]
  rw [Head.read?, Head.text, String.toList_append, toList_elementMark]
  simp only [List.cons_append, List.append_assoc, List.nil_append]
  rw [hsplit]
  simp only [Option.bind_eq_bind, Option.bind_some, natural?_toString, Option.pure_def]

theorem Head.read?_call {tag : String} {fields : List String} (h : (call tag fields).Plain)
    (rest : String) :
    Head.read? ((call tag fields).text ++ rest) = some (call tag fields, rest) := by
  obtain ⟨htag, hne, hfields⟩ := h
  have hlist : ((call tag fields).text ++ rest).toList =
      tag.toList ++ '(' :: ((spaced fields).toList ++ ')' :: rest.toList) := by
    simp [Head.text]
  have hclose : ')' ∉ (spaced fields).toList := not_mem_spaced hfields (by decide) (by decide)
  unfold Head.read?
  split
  · -- a tag does not start like the number of an element
    next more heq =>
    have hmem : '[' ∈ tag.toList ++ ['('] := by
      rw [hlist] at heq
      cases htl : tag.toList with
      | nil =>
        rw [htl] at heq
        exact absurd (List.cons.inj heq).1 (by decide)
      | cons c cs =>
        rw [htl] at heq
        rw [(List.cons.inj heq).1]
        exact List.mem_cons_self
    rcases List.mem_append.mp hmem with hmem | hmem
    · exact absurd hmem (htag.not_mem (by decide))
    · exact absurd hmem (by decide)
  · rw [splitFirst?_append (htag.not_mem (by decide)) hlist]
    simp only [Option.bind_eq_bind, Option.bind_some]
    rw [splitFirst?_append hclose String.toList_ofList]
    simp [segments_spaced hne hfields]

/-- A head is read up to its end. -/
theorem Head.read?_append {h : Head} (hp : h.Plain) (rest : String) :
    Head.read? (h.text ++ rest) = some (h, rest) := by
  cases h with
  | element n => exact Head.read?_element n rest
  | call tag fields => exact Head.read?_call hp rest

theorem Row.ofHead?_text (h : Head) (t : Tail) : Row.ofHead? h t.text = some (single h t) := by
  cases t with
  | nothing => rfl
  | assignment literal =>
    cases literal with
    | none => rfl
    | some v =>
      have htext : (Tail.assignment (some v)).text.toList = '=' :: (v.toList ++ [';']) := by
        simp [Tail.text, Emission.assignment]
      simp [Row.ofHead?, htext]

/-- A head is no brace. -/
theorem Head.text_append_ne (h : Head) (rest : String) : h.text ++ rest ≠ "\x7d" := by
  intro heq
  have hlen := congrArg (fun s : String => s.toList) heq
  cases h with
  | call tag fields =>
    have hm : '(' ∈ ((call tag fields).text ++ rest).toList := by simp [Head.text]
    rw [hlen] at hm
    exact absurd hm (by decide)
  | element n =>
    have hm : '[' ∈ ((element n).text ++ rest).toList := by simp [Head.text, elementMark]
    rw [hlen] at hm
    exact absurd hm (by decide)

/-- A plain line is read. -/
theorem Row.read?_text {r : Row} (h : r.Plain) : Row.read? r.text = some r := by
  cases r with
  | closes => rfl
  | opens hd =>
    rw [Row.read?, Row.text, if_neg (hd.text_append_ne _), Head.read?_append h]
    rfl
  | single hd t =>
    rw [Row.read?, Row.text, if_neg (hd.text_append_ne _), Head.read?_append h.1]
    exact Row.ofHead?_text hd t

theorem Head.newline_not_mem {h : Head} (hp : h.Plain) : '\n' ∉ h.text.toList := by
  cases h with
  | element n =>
    rw [Head.text, toList_elementMark]
    simp only [List.mem_cons, List.mem_append, List.not_mem_nil, or_false, not_or]
    exact ⟨by decide, fun hm => absurd (isNumeric_toString_nat hm) (by decide), by decide⟩
  | call tag fields =>
    obtain ⟨htag, -, hfields⟩ := hp
    simp only [Head.text, String.toList_append, List.mem_append, not_or]
    exact ⟨⟨⟨htag.not_mem (by decide), by decide⟩,
      not_mem_spaced hfields (by decide) (by decide)⟩, by decide⟩

theorem Tail.newline_not_mem {t : Tail} (hp : t.Plain) : '\n' ∉ t.text.toList := by
  cases t with
  | nothing => decide
  | assignment literal =>
    cases literal with
    | none => decide
    | some v =>
      simp only [Tail.text, Emission.assignment, String.toList_append, List.mem_append, not_or]
      exact ⟨⟨by decide, hp v rfl⟩, by decide⟩

theorem Row.newline_not_mem {r : Row} (hp : r.Plain) : '\n' ∉ r.text.toList := by
  cases r with
  | closes => decide
  | opens h =>
    rw [Row.text, String.toList_append, List.mem_append, not_or]
    exact ⟨Head.newline_not_mem hp, by decide⟩
  | single h t =>
    rw [Row.text, String.toList_append, List.mem_append, not_or]
    exact ⟨Head.newline_not_mem hp.1, Tail.newline_not_mem hp.2⟩

/-! ### Reading rows -/

/-- The lines of a text, each of which ends with a line feed. -/
def readRows? (s : List Char) : Option (List Row) :=
  (split '\n' s).dropLast.mapM fun l => Row.read? (String.ofList l)

theorem split_lines {ls : List String} (h : ∀ l ∈ ls, '\n' ∉ l.toList) :
    split '\n' (ls.flatMap fun l => l.toList ++ ['\n']) = ls.map String.toList ++ [[]] := by
  induction ls with
  | nil => rfl
  | cons l ls ih =>
    obtain ⟨hl, hls⟩ := List.forall_mem_cons.mp h
    rw [List.flatMap_cons, List.append_assoc, List.singleton_append, split_append_cons hl, ih hls]
    rfl

/-- Plain lines are read. -/
theorem readRows?_text {rs : List Row} (h : ∀ r ∈ rs, r.Plain) :
    readRows? ((rs.map Row.text).flatMap fun l => l.toList ++ ['\n']) = some rs := by
  have hlines : ∀ l ∈ rs.map Row.text, '\n' ∉ l.toList := by
    intro l hl
    obtain ⟨r, hr, rfl⟩ := List.mem_map.mp hl
    exact Row.newline_not_mem (h r hr)
  rw [readRows?, split_lines hlines, List.dropLast_concat, List.map_map, List.mapM_map]
  clear hlines
  induction rs with
  | nil => rfl
  | cons r rs ih =>
    obtain ⟨hr, hrs⟩ := List.forall_mem_cons.mp h
    rw [List.mapM_cons, ih hrs]
    simp [Row.read?_text hr]

/-! ## Blocks -/

/-- A line of its own, or a block with its parts. -/
inductive Layout where
  /-- A line that opens no block. -/
  | single (h : Head) (t : Tail)
  /-- A block. -/
  | block (h : Head) (parts : List Layout)

namespace Layout

mutual

/-- The lines. -/
def rows : Layout → List Row
  | single h t => [.single h t]
  | block h parts => .opens h :: (rowsAll parts ++ [.closes])

/-- The lines of several parts. -/
def rowsAll : List Layout → List Row
  | [] => []
  | t :: rest => t.rows ++ rowsAll rest

end

theorem rowsAll_eq_flatMap (ts : List Layout) : rowsAll ts = ts.flatMap rows := by
  induction ts with
  | nil => rfl
  | cons t ts ih => rw [rowsAll, ih, List.flatMap_cons]

/-- The text line by line. -/
def lines (t : Layout) : List String := t.rows.map Row.text

/-- The text of several parts line by line. -/
def linesAll (ts : List Layout) : List String := ts.flatMap lines

theorem lines_block (h : Head) (parts : List Layout) :
    (block h parts).lines = (h.text ++ "\x7b") :: (linesAll parts ++ ["\x7d"]) := by
  rw [lines, rows, rowsAll_eq_flatMap, List.map_cons, List.map_append, List.map_flatMap]
  rfl

/-- Every line is plain. -/
def Plain (t : Layout) : Prop := ∀ r ∈ t.rows, r.Plain

theorem plain_single {h : Head} {t : Tail} (hh : h.Plain) (ht : t.Plain) : (single h t).Plain := by
  intro r hr
  rw [List.mem_singleton.mp hr]
  exact ⟨hh, ht⟩

theorem plain_block {h : Head} {parts : List Layout} (hh : h.Plain)
    (hparts : ∀ t ∈ parts, t.Plain) : (block h parts).Plain := by
  intro r hr
  rw [rows, rowsAll_eq_flatMap, List.mem_cons, List.mem_append, List.mem_flatMap] at hr
  rcases hr with rfl | ⟨t, ht, hr⟩ | hr
  · exact hh
  · exact hparts t ht r hr
  · rw [List.mem_singleton.mp hr]
    trivial

/-- Builds blocks from lines. `stack` holds the blocks that are open, each with its head and what
came before it, and `parts` what has been built within the innermost one. -/
def build? : List Row → List (Head × List Layout) → List Layout → Option (List Layout)
  | [], [], parts => some parts
  | [], _ :: _, _ => none
  | .single h t :: rows, stack, parts => build? rows stack (parts ++ [single h t])
  | .opens h :: rows, stack, parts => build? rows ((h, parts) :: stack) []
  | .closes :: rows, (h, before) :: stack, parts => build? rows stack (before ++ [block h parts])
  | .closes :: _, [], _ => none

mutual

/-- The lines of a part are built to the part, whatever is open. -/
theorem build?_rows : ∀ (t : Layout) (rows : List Row) (stack : List (Head × List Layout))
    (parts : List Layout),
    build? (t.rows ++ rows) stack parts = build? rows stack (parts ++ [t])
  | single h t, rows, stack, parts => by
    rw [Layout.rows, List.singleton_append, build?]
  | block h ts, rows, stack, parts => by
    rw [Layout.rows, List.cons_append, List.append_assoc, build?, build?_rowsAll, List.nil_append,
      List.singleton_append, build?]

theorem build?_rowsAll : ∀ (ts : List Layout) (rows : List Row)
    (stack : List (Head × List Layout)) (parts : List Layout),
    build? (rowsAll ts ++ rows) stack parts = build? rows stack (parts ++ ts)
  | [], rows, stack, parts => by
    rw [rowsAll, List.nil_append, List.append_nil]
  | t :: ts, rows, stack, parts => by
    rw [rowsAll, List.append_assoc, build?_rows, build?_rowsAll, List.append_assoc,
      List.singleton_append]

end

/-- Reads a text that is a single block or line. -/
def read? (s : List Char) : Option Layout := do
  match ← build? (← readRows? s) [] [] with
  | [t] => some t
  | _ => none

/-- What was written is read, if its lines are plain. -/
theorem read?_lines {t : Layout} (h : t.Plain) :
    read? (t.lines.flatMap fun l => l.toList ++ ['\n']) = some t := by
  have hbuild : build? t.rows [] [] = some [t] := by
    have hrows := build?_rows t [] [] []
    rwa [List.append_nil] at hrows
  rw [read?, lines, readRows?_text h]
  simp [hbuild]

end Layout

/-! ## What a script shows -/

namespace Script

/-- The lines of the script are those of some layouts. -/
def Shows (s : Script) (ts : List Layout) : Prop := s.lines = Layout.linesAll ts

theorem Shows.line (h : Head) (t : Tail) : (Script.line (h.text ++ t.text)).Shows [.single h t] :=
  rfl

theorem Shows.block {body : Script} {h : Head} {parts : List Layout} (hb : body.Shows parts) :
    (Emission.block h.text body).Shows [.block h parts] := by
  rw [Shows, Layout.linesAll, List.flatMap_singleton, Layout.lines_block, ← hb]
  rfl

theorem Shows.each {count : Nat} {entry : Nat → Script} {element : Nat → Layout}
    (h : ∀ i, (entry i).Shows [element i]) :
    (Script.each count entry).Shows ((List.range count).map element) := by
  rw [Shows, Script.lines, Layout.linesAll, List.flatMap_map]
  refine List.flatMap_congr fun i _ => ?_
  rw [h i, Layout.linesAll, List.flatMap_singleton]

theorem Shows.append {s s' : Script} {ts ts' : List Layout} (h : s.Shows ts) (h' : s'.Shows ts') :
    (s ++ s').Shows (ts ++ ts') := by
  rw [Shows, lines_append, h, h', Layout.linesAll, Layout.linesAll, Layout.linesAll,
    List.flatMap_append]

theorem Shows.concat {ss : List Script} {tss : List (List Layout)}
    (h : List.Forall₂ Shows ss tss) : (Script.concat ss).Shows tss.flatten := by
  induction h with
  | nil => rfl
  | cons h _ ih => exact h.append ih

theorem Shows.concat_flatMap {α : Type} {script : α → Script} {layouts : α → List Layout}
    (h : ∀ a, (script a).Shows (layouts a)) (as : List α) :
    (Script.concat (as.map script)).Shows (as.flatMap layouts) := by
  rw [List.flatMap_def]
  refine Shows.concat ?_
  rw [List.forall₂_map_left_iff, List.forall₂_map_right_iff, List.forall₂_same]
  exact fun a _ => h a

theorem Shows.concat_map {α : Type} {script : α → Script} {layout : α → Layout}
    (h : ∀ a, (script a).Shows [layout a]) (as : List α) :
    (Script.concat (as.map script)).Shows (as.map layout) := by
  rw [← List.flatMap_singleton' (as.map layout), List.flatMap_map]
  exact .concat_flatMap h as

theorem Shows.remarks (es : List Journal.Entry) : (Script.concat (es.map remark)).Shows [] :=
  lines_remarks es

end Script

end Substation.Emission
