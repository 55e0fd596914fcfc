import Substation.Markup.Fault
import Substation.Markup.Record
import Substation.Markup.Tree

/-!
# Reading records

`readDocument` reads the outermost element of a document as a record. Names are compared without
their prefix. What the schema does not name is skipped.

Parts are read in the order in which they stand, and the first fault is the answer. There is one
exception. With the first element of a list the rest of the parent is gone through at once: the
elements of the same full name are read, and everything else is set aside, to be read afterwards
as if those elements were not there. So a fault in a late list element comes before a fault in what
was set aside, and an element of the same list under another prefix comes too late. What is set
aside is read in the scope that is in force behind the parent's end.

A part that may be left out is left out as well if it stands for nothing, by an attribute of its
own or of its parent.
-/

namespace Substation.Markup

open Substation.Text

/-! ## Attributes -/

/-- Reads the attributes of an element as the values of those that are known. -/
def readAttributes (known : List String) :
    List (Option Attribute) → (values : List (String × String)) →
      Except Fault (List (String × String))
  | [], values => .ok values
  | none :: _, _ => .error .malformed
  | some a :: more, values =>
    match (fieldName? a.name).map String.ofList with
    | none => readAttributes known more values
    | some name =>
      if !known.contains name then readAttributes known more values
      else if (values.lookup name).isSome then .error (.duplicate (attributeField name))
      else
        match unescape a.value with
        | none => .error .malformed
        | some v => readAttributes known more (values ++ [(name, String.ofList v)])

/-! ## Content -/

/-- What of an element has been read. -/
structure Content where
  /-- The fields that have occurred. -/
  seen : List String
  /-- The values of the attributes. -/
  values : List (String × String)
  /-- The records of the elements, each under its name. -/
  elements : List (String × Record) := []
  /-- The text, once it has occurred. -/
  text : Option String := none

namespace Content

/-- The content of an element of which the attributes have been read. -/
def ofValues (values : List (String × String)) : Content :=
  ⟨values.map (attributeField ·.1), values, [], none⟩

/-- Notes that a field has occurred, which may happen once. -/
def enter (c : Content) (field : String) : Except Fault Content :=
  if c.seen.contains field then .error (.duplicate field)
  else .ok { c with seen := field :: c.seen }

/-- Adds the value of an attribute. -/
def addValue (c : Content) (name : String) (value : List Char) : Content :=
  { c with values := c.values ++ [(name, String.ofList value)] }

/-- Adds the text. -/
def addText (c : Content) (text : List Char) : Content :=
  { c with text := some (String.ofList text) }

/-- Adds records under a name. -/
def addElements (c : Content) (name : String) (rs : List Record) : Content :=
  { c with elements := c.elements ++ rs.map fun r => (name, r) }

/-- The record of the element, unless an attribute is missing that must be given. -/
def toRecord {κ : Type} (schema : Schema κ) (c : Content) : Except Fault Record :=
  match schema.attributes.find? fun (name, need) =>
      need == .mandatory && !c.seen.contains (attributeField name) with
  | some (name, _) => .error (.missing (attributeField name))
  | none => .ok (.mk c.values c.elements (c.text.getD ""))

/-- Reads a run of text. Blank text is passed over, as is all text if the element holds none. -/
def addRun {κ : Type} (schema : Schema κ) (c : Content) (pieces : List Piece) :
    Except Fault Content :=
  match resolveRun pieces with
  | none => .error .malformed
  | some run =>
    if run.all isMarkupBlank || !schema.text then .ok c
    else return (← c.enter textField).addText run

end Content

/-! ## Elements -/

/-- Skips the content of an element, given the scope with what follows at its start; `after` is
what follows the element. -/
def skip (content : List Item) (after : Ahead) (s : Scope) : Except Fault Scope :=
  if Item.canSkip content then .ok (s.look after) else .error .malformed

/-- Reads the text of an element that holds nothing else. The arguments are those of `skip`. If
there is no text the end tag has been looked at already. -/
def readText (content : List Item) (after : Ahead) (s : Scope) :
    Except Fault (List Char × Scope) :=
  match Item.textOf? content with
  | some text => .ok (text, (if content.isEmpty then s else s.look .stop).look after)
  | none => .error .malformed

variable {κ : Type} (schema : κ → Schema κ)

mutual

/-- Reads an element as a record of the given kind, and yields the scope behind its end. The given
scope is that with what follows its start tag; `after` is what follows the element. -/
def readElement (kind : κ) (after : Ahead) : Item → Scope → Except Fault (Record × Scope)
  | .element tag content, s => do
    let values ← readAttributes ((schema kind).attributes.map Prod.fst) tag.attributes []
    let (c, t) ← readContent kind tag after [] content s (.ofValues values)
    return (← c.toRecord (schema kind), { t with fixed := s.fixed })
  | _, _ => .error .malformed

/-- Reads content of an element of the given kind, given what of the element has been read, and
passes over the elements whose full names are in `done`. The scopes are those with what follows
where the content starts, and with what follows behind the end of the element. -/
def readContent (kind : κ) (parent : Tag) (after : Ahead) (done : List (List Char)) :
    List Item → Scope → Content → Except Fault (Content × Scope)
  | [], s, c => .ok (c, s.look after)
  | .broken :: _, _, _ => .error .malformed
  | .doctype :: more, s, c =>
    readContent kind parent after done more (s.look (Item.ahead more)) c
  | .run pieces :: more, s, c => do
    readContent kind parent after done more (s.look (Item.ahead more))
      (← c.addRun (schema kind) pieces)
  | .element tag content :: more, s, c =>
    if done.contains tag.name then readContent kind parent after done more s c
    else if !tag.frame.admitted then .error .malformed
    else
      let field := String.ofList (localName tag.name)
      let inside := s.look (Item.ahead content)
      let absent := inside.isNil parent.attributes || inside.isNil tag.attributes
      match (schema kind).use field with
      | .skipped => do
        let s ← skip content (Item.ahead more) inside
        readContent kind parent after done more s c
      | .text => do
        let c ← c.enter field
        let (text, s) ← readText content (Item.ahead more) inside
        readContent kind parent after done more s (c.addText text)
      | .value name need => do
        let c ← c.enter field
        if need == .free && absent then
          let s ← skip content (Item.ahead more) inside
          readContent kind parent after done more s c
        else
          let (text, s) ← readText content (Item.ahead more) inside
          readContent kind parent after done more s (c.addValue name text)
      | .part (.single part) => do
        let c ← c.enter field
        if absent then
          let s ← skip content (Item.ahead more) inside
          readContent kind parent after done more s c
        else
          let (r, s) ← readElement part (Item.ahead more) (.element tag content) inside
          readContent kind parent after done more s (c.addElements field [r])
      | .part (.many part) => do
        let c ← c.enter field
        let (r, s) ← readElement part (Item.ahead more) (.element tag content) inside
        let (rs, s) ← readList part after done tag.name more s
        readContent kind parent after (tag.name :: done) more { s with fixed := true }
          (c.addElements field (r :: rs))

/-- Goes through the rest of a parent for the elements of the given kind with a given full name;
everything else has to be sound. Elements whose full names are in `done` have been read, so they
are passed over: what was skipped in them need not be sound. The scopes are those of
`readContent`. -/
def readList (kind : κ) (after : Ahead) (done : List (List Char)) (name : List Char) :
    List Item → Scope → Except Fault (List Record × Scope)
  | [], s => .ok ([], s.look after)
  | .element tag content :: more, s =>
    if done.contains tag.name then readList kind after done name more s
    else if tag.name = name then
      if !tag.frame.admitted then .error .malformed
      else do
        let (r, s) ← readElement kind (Item.ahead more) (.element tag content)
          (s.look (Item.ahead content))
        let (rs, s) ← readList kind after done name more s
        return (r :: rs, s)
    else if Item.isSound (.element tag content) then
      readList kind after done name more ((s.look .stop).look (Item.ahead more))
    else .error .malformed
  | item :: more, s =>
    if item.isSound then readList kind after done name more (s.look (Item.ahead more))
    else .error .malformed

end

/-! ## Documents -/

/-- Reads the outermost element of a document, whatever its name, given the scope with what follows
where the items start. -/
def readRoot (kind : κ) : List Item → Scope → Except Fault Record
  | [], _ => .error .malformed
  | .broken :: _, _ => .error .malformed
  | .doctype :: more, s => readRoot kind more (s.look (ahead more))
  | .run pieces :: more, s =>
    match resolveRun pieces with
    | none => .error .malformed
    | some run =>
      if run.all isMarkupBlank then readRoot kind more (s.look (ahead more))
      else .error (.strayText (String.ofList run))
  | .element tag content :: more, s =>
    if !tag.frame.admitted then .error .malformed
    else
      (readElement schema kind (ahead more) (.element tag content)
        (s.look (Item.ahead content))).map Prod.fst
where
  /-- What follows at a place outside the outermost element, where no end tag can stand. -/
  ahead : List Item → Ahead
    | [] => .other
    | items => Item.ahead items

/-- Reads a document whose outermost element is of the given kind. -/
def readDocument (kind : κ) (text : String) : Except Fault Record :=
  let items := Item.ofText text
  readRoot schema kind items (Scope.look {} (readRoot.ahead items))

end Substation.Markup
