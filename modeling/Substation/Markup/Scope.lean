import Substation.Markup.Attribute

/-!
# The scope of name prefixes

Attributes of a start tag bind prefixes to namespaces (`Frame`). A frame is in force from its start
tag on until what follows the element's end tag has been looked at.

A reader looks one tag or text ahead of what it takes up, so when an element is taken up the frame
of a first element in it is in force already (`Scope.look`). What is skipped is passed over without
being looked at. Only what was looked at before the skip has an effect: its frames stay in force,
since their ends are never seen. So a scope is more than the open elements, and it is passed on
from each item of a document to the next.

Only one namespace matters here: the one in which the attribute `nil` says that an element stands
for nothing (`Scope.isNil`).
-/

namespace Substation.Markup

/-! ## Namespaces -/

/-- The name of a namespace that the markup standards define. -/
def standardNamespace (path : String) : List Char :=
  ("http:" ++ "//www.w3.org/" ++ path).toList

/-- The namespace of the attribute `nil`. -/
def instanceNamespace : List Char := standardNamespace "2001/XMLSchema-instance"

/-- The namespace to which the prefix `xml` belongs. -/
def markupNamespace : List Char := standardNamespace "XML/1998/namespace"

/-- The namespace to which the prefix `xmlns` belongs. -/
def bindingNamespace : List Char := standardNamespace "2000/xmlns/"

/-! ## Frames -/

/-- What the attributes of one start tag bind. -/
structure Frame where
  /-- The prefixes with their namespaces, the last one first. -/
  bindings : List (List Char × List Char) := []
  /-- Whether all of them are admitted; those from the first that is not are left out. -/
  admitted : Bool := true
deriving DecidableEq, Repr

/-- Whether a prefix may be bound to a namespace. The reserved prefixes and namespaces belong to
each other, and `xmlns` is never bound. -/
def mayBind (name value : List Char) : Bool :=
  if name = "xml".toList then value == markupNamespace
  else name != "xmlns".toList && value != markupNamespace && value != bindingNamespace

/-- Adds the bindings of attributes to a frame. A binding of `xml` says nothing new, and without a
prefix the default namespace is bound, which attributes do not use. -/
def Frame.add (frame : Frame) : List Attribute → Frame
  | [] => frame
  | a :: more =>
    match boundPrefix? a.name with
    | none | some none => frame.add more
    | some (some p) =>
      if !mayBind p a.value then { frame with admitted := false }
      else if p = [] ∨ p = "xml".toList then frame.add more
      else Frame.add { frame with bindings := (p, a.value) :: frame.bindings } more

/-- The frame of a start tag with a given inside. -/
def Frame.ofInside (inside : List Char) : Frame :=
  Frame.add {} (leadingAttributes inside)

/-! ## Scopes -/

/-- What follows at a place in a document. -/
inductive Ahead where
  /-- A start tag. -/
  | start (frame : Frame)
  /-- The end tag of the element in which the place lies. -/
  | stop
  /-- Something that does not bear on prefixes. -/
  | other

/-- The frames in force at a place in a document, up to and with what follows there. -/
structure Scope where
  /-- The frames, innermost first. -/
  frames : List Frame := []
  /-- Whether the end tag for the innermost frame was looked at last. -/
  ended : Bool := false
  /-- Whether nothing is looked at for now, as it has been already. -/
  fixed : Bool := false
deriving DecidableEq, Repr

namespace Scope

/-- Drops the innermost frame if its end tag was looked at last. -/
def settle (s : Scope) : Scope :=
  if s.ended then { s with frames := s.frames.tail, ended := false } else s

/-- Looks at what follows. -/
def look (s : Scope) (a : Ahead) : Scope :=
  if s.fixed then s
  else
    match a with
    | .start frame => { s.settle with frames := frame :: s.settle.frames }
    | .stop => { s.settle with ended := true }
    | .other => s.settle

/-- The namespace of a prefix. -/
def namespace? (s : Scope) (name : List Char) : Option (List Char) :=
  (s.frames.flatMap Frame.bindings).lookup name

/-- Whether the attributes say that their element stands for nothing. -/
def isNil (s : Scope) (attributes : List (Option Attribute)) : Bool :=
  (attributes.filterMap id).any fun a =>
    match prefixOf? a.name with
    | none => false
    | some p =>
      s.namespace? p == some instanceNamespace && localName a.name == "nil".toList &&
        (a.value == "true".toList || a.value == ['1'])

end Scope

end Substation.Markup
