import Mathlib.Data.List.Basic
import Mathlib.Tactic.Common
import Substation.Proofs.Layout

/-!
# The fields of calls

A call holds texts, numbers, flags and hexadecimal digits. Only texts can spoil the line that it
stands on, since all other fields are numeric (`bare_shown`). The tag of a call tells which of the
entries of a block belong together; `Layout.pick` reads those of a tag.
-/

namespace Substation.Emission

open Substation.Text

/-! ## Fields -/

/-- A field of a call. -/
inductive Field where
  /-- A name, an identification, an attribute or a part of an address, as it is. -/
  | text (s : String)
  /-- A natural number. -/
  | natural (n : Nat)
  /-- An integer. -/
  | integer (n : Int)
  /-- A flag. -/
  | flag (b : Bool)
  /-- A text of hexadecimal digits. -/
  | digits (s : HexString)

namespace Field

/-- The field as it is written. -/
def shown : Field → String
  | text s => s
  | natural n => toString n
  | integer n => toString n
  | flag b => flagDigit b
  | digits s => s.text

/-- The text of a field that is one. -/
def text? : Field → Option String
  | text s => some s
  | _ => none

/-- The flag that a digit denotes. -/
def flag? (s : String) : Option Bool :=
  if s = "1" then some true else if s = "0" then some false else none

@[simp] theorem shown_text (s : String) : (text s).shown = s := rfl

@[simp] theorem natural?_shown (n : Nat) : natural? (natural n).shown = some n :=
  natural?_toString n

@[simp] theorem integer?_shown (n : Int) : Text.integer? (integer n).shown = some n :=
  integer?_toString n

@[simp] theorem flag?_shown (b : Bool) : flag? (flag b).shown = some b := by cases b <;> rfl

@[simp] theorem ofText?_shown (s : HexString) : HexString.ofText? (digits s).shown = some s :=
  s.ofText?_text

/-- A field that is no text is bare. -/
theorem bare_shown {f : Field} (h : ∀ s ∈ f.text?, Bare s) : Bare f.shown := by
  cases f with
  | text s => exact h s rfl
  | natural n => exact .of_isNumeric fun _ => isNumeric_toString_nat
  | integer n => exact .of_isNumeric fun _ => isNumeric_toString_int
  | flag b => cases b <;> decide
  | digits s => exact .of_isNumeric fun c hc => isNumeric_of_isHexDigit (s.isHexDigit_of_mem c hc)

end Field

/-- The texts among fields. -/
def texts (fs : List Field) : List String := fs.filterMap Field.text?

/-- A call of fields. -/
def Head.ofFields (tag : String) (fs : List Field) : Head := .call tag (fs.map Field.shown)

theorem Head.plain_ofFields {tag : String} {fs : List Field}
    (htag : IsTag tag) (hne : fs ≠ []) (h : ∀ t ∈ texts fs, Bare t) :
    (Head.ofFields tag fs).Plain := by
  refine ⟨htag, by simpa using hne, ?_⟩
  rw [List.forall_mem_map]
  intro f hf
  exact Field.bare_shown fun s hs => h s (List.mem_filterMap.mpr ⟨f, hf, hs⟩)

/-! ## Looking into a layout -/

namespace Layout

/-- The head of the first line. -/
def head : Layout → Head
  | single h _ => h
  | block h _ => h

/-- The tag of a call. -/
def tag (t : Layout) : String :=
  match t.head with
  | .call tag _ => tag
  | .element _ => ""

/-- The fields of a call. -/
def fields (t : Layout) : List String :=
  match t.head with
  | .call _ fields => fields
  | .element _ => []

/-- What a block holds. -/
def parts : Layout → List Layout
  | single _ _ => []
  | block _ parts => parts

@[simp] theorem fields_single (tag : String) (fs : List Field) (t : Tail) :
    (single (.ofFields tag fs) t).fields = fs.map Field.shown := rfl

/-- Reads the entries that have one of the tags. -/
def pick {α : Type} (tags : List String) (read? : Layout → Option α) (ts : List Layout) :
    List α :=
  (ts.filter (·.tag ∈ tags)).filterMap read?

variable {α β : Type} {tags : List String} {read? : Layout → Option α}

theorem pick_append (ts us : List Layout) :
    pick tags read? (ts ++ us) = pick tags read? ts ++ pick tags read? us := by
  rw [pick, List.filter_append, List.filterMap_append]
  rfl

theorem pick_of_not_mem {ts : List Layout} (h : ∀ t ∈ ts, t.tag ∉ tags) :
    pick tags read? ts = [] := by
  rw [pick, List.filter_eq_nil_iff.mpr fun t ht => by simpa using h t ht]
  rfl

theorem pick_map {as : List β} {layout : β → Layout} {shown : β → α}
    (htag : ∀ b ∈ as, (layout b).tag ∈ tags)
    (hread : ∀ b ∈ as, read? (layout b) = some (shown b)) :
    pick tags read? (as.map layout) = as.map shown := by
  rw [pick, List.filter_eq_self.mpr, List.filterMap_map]
  · rw [← List.filterMap_eq_map]
    exact List.filterMap_congr fun b hb => hread b hb
  · intro t ht
    obtain ⟨b, hb, rfl⟩ := List.mem_map.mp ht
    exact decide_eq_true (htag b hb)

/-- Entries with the tags that they have. -/
structure Section where
  /-- The tags. -/
  tags : List String
  /-- The entries. -/
  entries : List Layout

/-- Every entry has one of the tags. -/
def Section.Tagged (s : Section) : Prop := ∀ t ∈ s.entries, t.tag ∈ s.tags

/-- No tag is one of another section. -/
def Section.Apart (s s' : Section) : Prop := ∀ tag ∈ s.tags, tag ∉ s'.tags

/-- Of sections that are apart, the entries of one are picked by its tags. -/
theorem pick_section {ss : List Section} {s : Section} (htagged : ∀ s ∈ ss, s.Tagged)
    (hapart : ss.Pairwise Section.Apart) (hs : s ∈ ss) :
    pick s.tags read? (ss.flatMap Section.entries) = pick s.tags read? s.entries := by
  induction ss with
  | nil => exact nomatch hs
  | cons s' ss ih =>
    obtain ⟨htag', htags⟩ := List.forall_mem_cons.mp htagged
    obtain ⟨hapart', haparts⟩ := List.pairwise_cons.mp hapart
    rw [List.flatMap_cons, pick_append]
    rcases List.mem_cons.mp hs with rfl | hs
    · have hrest : pick s.tags read? (ss.flatMap Section.entries) = [] := by
        refine pick_of_not_mem fun t ht hmem => ?_
        obtain ⟨s'', hs'', ht⟩ := List.mem_flatMap.mp ht
        exact hapart' s'' hs'' _ hmem (htags s'' hs'' t ht)
      rw [hrest, List.append_nil]
    · have hfirst : pick s.tags read? s'.entries = [] :=
        pick_of_not_mem fun t ht hmem => hapart' s hs _ (htag' t ht) hmem
      rw [hfirst, List.nil_append, ih htags haparts hs]

end Layout

/-! ## Calls as lines -/

theorem Head.text_ofFields (tag opening : String) (h : opening = tag ++ "(")
    (fs : List Field) :
    opening ++ spaced (fs.map Field.shown) ++ ")" = (Head.ofFields tag fs).text := by
  rw [h]
  rfl

/-- The call of a name. -/
def Head.ofName (tag name : String) : Head := .ofFields tag [.text name]

theorem Head.text_ofName (tag opening : String) (h : opening = tag ++ "(")
    (name : String) : opening ++ name ++ ")" = (Head.ofName tag name).text := by
  have hname : spaced ([Field.text name].map Field.shown) = name := String.intercalate_singleton
  rw [Head.ofName, ← Head.text_ofFields tag opening h, hname]

theorem Head.plain_ofName {tag name : String} (htag : IsTag tag) (h : Bare name) :
    (Head.ofName tag name).Plain :=
  Head.plain_ofFields htag (List.cons_ne_nil _ _) (List.forall_mem_singleton.mpr h)

/-- A call with a semicolon. -/
def Layout.ofCall (tag : String) (fs : List Field) : Layout :=
  .single (.ofFields tag fs) (.assignment none)

theorem Layout.plain_ofCall {tag : String} {fs : List Field}
    (htag : IsTag tag) (hne : fs ≠ []) (h : ∀ t ∈ texts fs, Bare t) :
    (Layout.ofCall tag fs).Plain :=
  Layout.plain_single (Head.plain_ofFields htag hne h) fun _ hv => nomatch hv

theorem Script.Shows.call (tag opening : String) (h : opening = tag ++ "(")
    (fs : List Field) :
    (Script.line (opening ++ spaced (fs.map Field.shown) ++ ");")).Shows [.ofCall tag fs] := by
  have hend : ");" = ")" ++ ";" := rfl
  rw [hend, ← String.append_assoc, Head.text_ofFields tag opening h]
  exact .line _ (.assignment none)

end Substation.Emission
