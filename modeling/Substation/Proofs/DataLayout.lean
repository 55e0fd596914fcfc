import Mathlib.Data.List.Basic
import Mathlib.Tactic.Common
import Substation.Emission.DataStatement
import Substation.Proofs.Calls

/-!
# Layout of data

Data objects and attributes are blocks within blocks. An array has a block or a line for each of its
elements, all alike, so the first one tells what they hold (`DataStatement.ofLayout?_layout`).
-/

namespace Substation.Emission

open Substation.Text

/-- The fields of an attribute. -/
def LeafFields.fields (f : LeafFields) : List Field :=
  [.text f.name, .natural f.count, .integer f.type, .integer f.fc, .natural f.triggers,
    .text f.sAddr]

/-- Reads the fields. -/
def LeafFields.ofFields? : List String → Option LeafFields
  | [name, count, type, fc, triggers, sAddr] => do
    return ⟨name, ← natural? count, ← Text.integer? type, ← Text.integer? fc,
      ← natural? triggers, sAddr⟩
  | _ => none

theorem LeafFields.ofFields?_fields (f : LeafFields) :
    ofFields? (f.fields.map Field.shown) = some f := by
  simp [ofFields?, fields]

namespace DataStatement

/-! ## Layout -/

/-- The call of a data object. -/
def objectHead (name : String) (count : Nat) : Head :=
  .ofFields "DO" [.text name, .natural count]

/-- The call of a data attribute. -/
def leafHead (f : LeafFields) : Head := .ofFields "DA" f.fields

/-- What a block of data holds: its parts, or for an array one entry for each element. -/
def contents (count : Nat) (parts : List Layout) (element : Nat → Layout) : List Layout :=
  if count = 0 then parts else (List.range count).map element

mutual

/-- The layout of a statement. -/
def layout : DataStatement → Layout
  | object name count parts =>
    .block (objectHead name count)
      (contents count (layouts parts) fun i => .block (.element i) (layouts parts))
  | group f parts =>
    .block (leafHead f)
      (contents f.count (layouts parts) fun i => .block (.element i) (layouts parts))
  | value f literal =>
    if f.count = 0 then .single (leafHead f) (.assignment literal)
    else .block (leafHead f)
      ((List.range f.count).map fun i => .single (.element i) (.assignment literal))

/-- The layout of several statements. -/
def layouts : List DataStatement → List Layout
  | [] => []
  | s :: rest => layout s :: layouts rest

end

theorem objectHead_text (name : String) (count : Nat) :
    (objectHead name count).text = "DO(" ++ name ++ " " ++ toString count ++ ")" := by
  simp [objectHead, Head.ofFields, Head.text, Field.shown, spaced, String.append_assoc]

-- With the fields as variables, no number is unfolded when the two sides are compared.
theorem leafCall_text (a b c d e f : String) :
    (Head.call "DA" [a, b, c, d, e, f]).text =
      "DA(" ++ a ++ " " ++ b ++ " " ++ c ++ " " ++ d ++ " " ++ e ++ " " ++ f ++ ")" := by
  simp [Head.text, spaced, String.append_assoc]

theorem leafHead_text (f : LeafFields) : (leafHead f).text = f.head :=
  leafCall_text f.name (toString f.count) (toString f.type) (toString f.fc) (toString f.triggers)
    f.sAddr

mutual

/-- The lines that are written are those of the layout. -/
theorem script_shows : ∀ s : DataStatement, s.script.Shows [s.layout]
  | object name count parts => by
    have hparts := scriptAll_shows parts
    rw [script, layout, ← objectHead_text, contents]
    apply Script.Shows.block
    split
    · exact hparts
    · exact .each fun i => .block (h := .element i) hparts
  | group f parts => by
    have hparts := scriptAll_shows parts
    rw [script, layout, ← leafHead_text, contents]
    split
    · exact .block hparts
    · exact .block (.each fun i => .block (h := .element i) hparts)
  | value f literal => by
    rw [script, layout, ← leafHead_text]
    split
    · exact .line _ (.assignment literal)
    · exact .block (.each fun i => .line (.element i) (.assignment literal))

theorem scriptAll_shows : ∀ ss : List DataStatement, (scriptAll ss).Shows (layouts ss)
  | [] => rfl
  | s :: ss => (script_shows s).append (scriptAll_shows ss)

end

/-! ## Plain data -/

mutual

/-- The names and short addresses. -/
def texts : DataStatement → List String
  | object name _ parts => name :: textsAll parts
  | group f parts => Emission.texts f.fields ++ textsAll parts
  | value f _ => Emission.texts f.fields

/-- The names and short addresses of several statements. -/
def textsAll : List DataStatement → List String
  | [] => []
  | s :: rest => texts s ++ textsAll rest

end

mutual

/-- The literals of values. -/
def literals : DataStatement → List String
  | object _ _ parts => literalsAll parts
  | group _ parts => literalsAll parts
  | value _ literal => literal.toList

/-- The literals of the values of several statements. -/
def literalsAll : List DataStatement → List String
  | [] => []
  | s :: rest => literals s ++ literalsAll rest

end

theorem plain_leafHead {f : LeafFields} (h : ∀ t ∈ Emission.texts f.fields, Bare t) :
    (leafHead f).Plain :=
  Head.plain_ofFields (by decide) (List.cons_ne_nil _ _) h

theorem plain_objectHead {name : String} (count : Nat) (h : Bare name) :
    (objectHead name count).Plain :=
  Head.plain_ofFields (by decide) (List.cons_ne_nil _ _) (List.forall_mem_singleton.mpr h)

theorem plain_contents {count : Nat} {parts : List Layout} {element : Nat → Layout}
    (hparts : ∀ t ∈ parts, t.Plain) (helement : ∀ i, (element i).Plain) :
    ∀ t ∈ contents count parts element, t.Plain := by
  unfold contents
  split
  · exact hparts
  · exact List.forall_mem_map.mpr fun i _ => helement i

mutual

/-- Bare texts, and values on lines of their own, make plain lines. -/
theorem plain_layout : ∀ s : DataStatement, (∀ t ∈ s.texts, Bare t) →
    (∀ v ∈ s.literals, '\n' ∉ v.toList) → s.layout.Plain
  | object name count parts, ht, hl => by
    obtain ⟨hname, htexts⟩ := List.forall_mem_cons.mp ht
    have hparts := plain_layouts parts htexts hl
    exact Layout.plain_block (plain_objectHead count hname)
      (plain_contents hparts fun i => Layout.plain_block (h := .element i) trivial hparts)
  | group f parts, ht, hl => by
    obtain ⟨hf, htexts⟩ := List.forall_mem_append.mp ht
    have hparts := plain_layouts parts htexts hl
    exact Layout.plain_block (plain_leafHead hf)
      (plain_contents hparts fun i => Layout.plain_block (h := .element i) trivial hparts)
  | value f literal, ht, hl => by
    have htail : (Tail.assignment literal).Plain := fun v hv => hl v (Option.mem_toList.mpr hv)
    rw [layout]
    split
    · exact Layout.plain_single (plain_leafHead ht) htail
    · exact Layout.plain_block (plain_leafHead ht)
        (List.forall_mem_map.mpr fun i _ => Layout.plain_single (h := .element i) trivial htail)

theorem plain_layouts : ∀ ss : List DataStatement, (∀ t ∈ textsAll ss, Bare t) →
    (∀ v ∈ literalsAll ss, '\n' ∉ v.toList) → ∀ t ∈ layouts ss, t.Plain
  | [], _, _ => List.forall_mem_nil _
  | s :: ss, ht, hl => by
    obtain ⟨hts, htss⟩ := List.forall_mem_append.mp ht
    obtain ⟨hls, hlss⟩ := List.forall_mem_append.mp hl
    exact List.forall_mem_cons.mpr ⟨plain_layout s hts hls, plain_layouts ss htss hlss⟩

end

/-! ## Reading -/

/-- What an entry of a block of data stands for. -/
inductive Piece where
  /-- A statement. -/
  | statement (s : DataStatement)
  /-- An element with parts. -/
  | parts (ss : List DataStatement)
  /-- An element with a value or without one. -/
  | value (literal : Option String)

/-- The statement, if the entry is one. -/
def Piece.statement? : Piece → Option DataStatement
  | .statement s => some s
  | _ => none

/-- The parts that a block of data holds. Those of an array are those of its first element. -/
def partsOf (count : Nat) (ps : List Piece) : List DataStatement :=
  if count = 0 then ps.filterMap Piece.statement?
  else match ps with
    | .parts ss :: _ => ss
    | _ => []

/-- The attribute of a block. Whether it is plain is told by its first element. -/
def ofPieces (f : LeafFields) : List Piece → DataStatement
  | .value literal :: _ => value f literal
  | ps => group f (partsOf f.count ps)

/-- Reads the line of an attribute or of an element. -/
def ofSingle? : Head → Tail → Option Piece
  | .element _, .assignment literal => some (.value literal)
  | .call _ fields, .assignment literal =>
    (LeafFields.ofFields? fields).map fun f => .statement (value f literal)
  | _, .nothing => none

/-- Reads a block, given what has been read within it. -/
def ofBlock? (ps : List Piece) : Head → Option Piece
  | .element _ => some (.parts (partsOf 0 ps))
  | .call "DO" [name, count] =>
    (natural? count).map fun n => .statement (object name n (partsOf n ps))
  | .call _ fields =>
    (LeafFields.ofFields? fields).map fun f => .statement (ofPieces f ps)

mutual

/-- Reads an entry. -/
def piece? : Layout → Option Piece
  | .single h t => ofSingle? h t
  | .block h parts => ofBlock? (pieces parts) h

/-- Reads several entries. -/
def pieces : List Layout → List Piece
  | [] => []
  | t :: rest => (piece? t).toList ++ pieces rest

end

/-- Reads a statement. -/
def ofLayout? (t : Layout) : Option DataStatement := (piece? t).bind Piece.statement?

theorem pieces_elements {count : Nat} {element : Nat → Layout} {p : Piece}
    (h : ∀ i, piece? (element i) = some p) (hc : count ≠ 0) :
    ∃ ps, pieces ((List.range count).map element) = p :: ps := by
  cases count with
  | zero => exact absurd rfl hc
  | succ n =>
    rw [List.range_succ_eq_map, List.map_cons, pieces, h]
    exact ⟨_, rfl⟩

theorem partsOf_zero_map (ss : List DataStatement) : partsOf 0 (ss.map .statement) = ss := by
  unfold partsOf
  rw [if_pos rfl, List.filterMap_map]
  exact List.filterMap_some

/-- The entries of a block are statements, or elements with statements as their parts. -/
theorem pieces_contents (count : Nat) {parts : List Layout} {ss : List DataStatement}
    (h : pieces parts = ss.map .statement) :
    (count = 0 ∧ pieces (contents count parts fun i => .block (.element i) parts) =
      ss.map .statement) ∨
    (count ≠ 0 ∧ ∃ ps, pieces (contents count parts fun i => .block (.element i) parts) =
      .parts ss :: ps) := by
  unfold contents
  split
  · next hc => exact .inl ⟨hc, h⟩
  · next hc =>
    have helement (i : Nat) : piece? (.block (.element i) parts) = some (.parts ss) := by
      rw [piece?, ofBlock?, h, partsOf_zero_map]
    exact .inr ⟨hc, pieces_elements helement hc⟩

theorem partsOf_contents (count : Nat) {parts : List Layout} {ss : List DataStatement}
    (h : pieces parts = ss.map .statement) :
    partsOf count (pieces (contents count parts fun i => .block (.element i) parts)) = ss := by
  rcases pieces_contents count h with ⟨hc, hps⟩ | ⟨hc, ps, hps⟩
  · rw [hps, hc, partsOf_zero_map]
  · rw [hps, partsOf, if_neg hc]

theorem ofPieces_contents (f : LeafFields) {parts : List Layout} {ss : List DataStatement}
    (h : pieces parts = ss.map .statement) :
    ofPieces f (pieces (contents f.count parts fun i => .block (.element i) parts)) =
      group f ss := by
  have hparts := partsOf_contents f.count h
  unfold ofPieces
  split
  · next literal tail heq =>
    -- no entry of a structured attribute is a value
    rcases pieces_contents f.count h with ⟨-, hps⟩ | ⟨-, ps, hps⟩
    · rw [hps] at heq
      cases ss with
      | nil => exact nomatch heq
      | cons s ss => exact Piece.noConfusion (List.cons.inj heq).1
    · rw [hps] at heq
      exact Piece.noConfusion (List.cons.inj heq).1
  · rw [hparts]

mutual

theorem piece?_layout : ∀ s : DataStatement, piece? s.layout = some (.statement s)
  | object name count parts => by
    rw [layout, piece?, objectHead, Head.ofFields]
    simp only [List.map_cons, List.map_nil, ofBlock?, Field.natural?_shown, Option.map_some,
      Field.shown_text, partsOf_contents count (pieces_layouts parts)]
  | group f parts => by
    rw [layout, piece?, leafHead, Head.ofFields, ofBlock?, LeafFields.ofFields?_fields,
      Option.map_some, ofPieces_contents f (pieces_layouts parts)]
    simp [LeafFields.fields]
  | value f literal => by
    rw [layout]
    split
    · rw [piece?, leafHead, Head.ofFields, ofSingle?, LeafFields.ofFields?_fields]
      rfl
    · next hc =>
      have helement (i : Nat) :
          piece? (.single (.element i) (.assignment literal)) = some (.value literal) := rfl
      obtain ⟨ps, hps⟩ := pieces_elements helement hc
      rw [piece?, leafHead, Head.ofFields, ofBlock?, LeafFields.ofFields?_fields, hps]
      · rfl
      · simp [LeafFields.fields]

theorem pieces_layouts : ∀ ss : List DataStatement, pieces (layouts ss) = ss.map .statement
  | [] => rfl
  | s :: ss => by
    rw [layouts, pieces, piece?_layout s, pieces_layouts ss]
    rfl

end

theorem tag_layout (s : DataStatement) : s.layout.tag ∈ ["DO", "DA"] := by
  cases s with
  | object name count parts => exact List.mem_cons_self
  | group f parts => exact List.mem_cons_of_mem _ (List.mem_singleton_self _)
  | value f literal =>
    rw [layout]
    split <;> exact List.mem_cons_of_mem _ (List.mem_singleton_self _)

theorem layouts_eq_map (ss : List DataStatement) : layouts ss = ss.map layout := by
  induction ss with
  | nil => rfl
  | cons s ss ih => rw [layouts, ih, List.map_cons]

/-- What was written is read. -/
theorem ofLayout?_layout (s : DataStatement) : ofLayout? s.layout = some s := by
  rw [ofLayout?, piece?_layout]
  rfl

end DataStatement

end Substation.Emission
