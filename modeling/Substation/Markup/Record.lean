/-!
# Records

An element of a known kind is read as a record: the values of its attributes, the records of the
elements in it, and its text. A `Schema` says for each kind which attributes it has, which of them
must be given, which elements it holds once and which in any number, and whether it holds text.

Each of these is a field with a name of its own: that of an attribute has `@` in front, and the text
is the field `$text`. An element may be named after any field of its parent, so an attribute or the
text can also be written as an element.
-/

namespace Substation.Markup

/-- How the elements of one name enter a record. -/
inductive Slot (κ : Type) where
  /-- At most one element of the kind. -/
  | single (kind : κ)
  /-- Any number of elements of the kind. -/
  | many (kind : κ)

/-- What happens if an attribute is not given. -/
inductive Need where
  /-- It is left out. -/
  | free
  /-- It is the empty text. -/
  | filled
  /-- The element is refused. -/
  | mandatory
deriving DecidableEq, Repr

/-- The parts of the elements of one kind. -/
structure Schema (κ : Type) where
  /-- The attributes, in the order in which missing ones are reported. -/
  attributes : List (String × Need) := []
  /-- The elements. -/
  elements : List (String × Slot κ) := []
  /-- Whether the element holds text. -/
  text : Bool := false

/-- The field of an attribute. -/
def attributeField (name : String) : String := "@" ++ name

/-- The field of the text. -/
def textField : String := "$text"

/-- How an element in an element of some kind is read. -/
inductive Use (κ : Type) where
  /-- As a record in a slot. -/
  | part (slot : Slot κ)
  /-- As an attribute. -/
  | value (name : String) (need : Need)
  /-- As the text. -/
  | text
  /-- Not at all. -/
  | skipped

/-- How an element named after a field is read. -/
def Schema.use {κ : Type} (schema : Schema κ) (field : String) : Use κ :=
  match schema.elements.lookup field with
  | some slot => .part slot
  | none =>
    match schema.attributes.find? fun (name, _) => attributeField name = field with
    | some (name, need) => .value name need
    | none => if schema.text && field = textField then .text else .skipped

/-- What was read of an element. -/
inductive Record where
  /-- The attributes and the elements, each under its field name, and the text. -/
  | mk (attributes : List (String × String)) (elements : List (String × Record)) (text : String)

namespace Record

/-- The value of an attribute. -/
def value? : Record → String → Option String
  | mk attributes _ _, name => attributes.lookup name

/-- The value of an attribute, or the empty text. -/
def value (r : Record) (name : String) : String :=
  (r.value? name).getD ""

/-- The elements of one name. -/
def elements : Record → String → List Record
  | mk _ elements _, name => elements.filterMap fun e => if e.1 = name then some e.2 else none

/-- The first element of a name. -/
def element? (r : Record) (name : String) : Option Record :=
  (r.elements name).head?

/-- The text. -/
def text : Record → String
  | mk _ _ text => text

theorem sizeOf_lt_of_mem_elements {r e : Record} {name : String} (h : e ∈ r.elements name) :
    sizeOf e < sizeOf r := by
  cases r with
  | mk attributes elements text =>
    simp only [Record.elements, List.mem_filterMap] at h
    obtain ⟨⟨n, e'⟩, hmem, hif⟩ := h
    have he : e' = e := by
      by_cases hn : n = name <;> simp_all
    subst he
    have := List.sizeOf_lt_of_mem hmem
    simp only [mk.sizeOf_spec, Prod.mk.sizeOf_spec] at this ⊢
    omega

end Record

end Substation.Markup
