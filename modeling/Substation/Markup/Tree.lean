import Substation.Markup.Scope

/-!
# Markup as a tree

The tokens of a document form a tree of elements and runs of text. A run is everything between two
tags that is text, whether written literally or by reference; its references are looked up only
when the run is read. Where the markup stops being well formed the tree holds `Item.broken` and
nothing after it, so a reader that goes through the tree in order meets the fault at its place.
-/

namespace Substation.Markup

/-- A part of a run of text. -/
inductive Piece where
  /-- Characters that stand for themselves. -/
  | literal (content : List Char)
  /-- A reference, given by what is between `&` and `;`. -/
  | reference (name : List Char)
deriving DecidableEq, Repr

/-- The characters of a run, or `none` if one of its references is not known. -/
def resolveRun (pieces : List Piece) : Option (List Char) :=
  (pieces.mapM fun
    | Piece.literal content => some content
    | Piece.reference name => (referenced? name).map ([·])).map List.flatten

/-- The start tag of an element. -/
structure Tag where
  /-- The full name, prefix included. -/
  name : List Char
  /-- The attributes. -/
  attributes : List (Option Attribute)
  /-- What they bind. -/
  frame : Frame
deriving DecidableEq, Repr

/-- The start tag with a given inside, its name removed. -/
def Tag.ofInside (name inside : List Char) : Tag :=
  ⟨name, attributesOf inside, Frame.ofInside inside⟩

/-- Something in the content of an element. -/
inductive Item where
  /-- A run of text. -/
  | run (pieces : List Piece)
  /-- A document type declaration. It keeps the runs on its two sides apart. -/
  | doctype
  /-- An element. -/
  | element (tag : Tag) (content : List Item)
  /-- From here on the markup is malformed. -/
  | broken

/-- Adds a piece of text to content in reverse order. -/
def Item.addPiece (p : Piece) : List Item → List Item
  | .run ps :: before => .run (ps ++ [p]) :: before
  | before => .run [p] :: before

/-- An element that has been opened, with what came before it in its parent, in reverse order. -/
abbrev OpenElement := Tag × List Item

/-- Closes all open elements; `done` is the content of the innermost one in reverse order. -/
def Item.closeAll : List OpenElement → List Item → List Item
  | [], done => done.reverse
  | (tag, before) :: outer, done => closeAll outer (.element tag done.reverse :: before)

/-- The items that a sequence of tokens forms inside the open elements, given what of the innermost
one has been read; `complete` tells whether the tokens cover the whole document. -/
def Item.grow (complete : Bool) : List Token → List OpenElement → List Item → List Item
  | [], outer, done =>
    if complete && outer.isEmpty then done.reverse else closeAll outer (.broken :: done)
  | .literal content :: ts, outer, done => grow complete ts outer (addPiece (.literal content) done)
  | .reference name :: ts, outer, done => grow complete ts outer (addPiece (.reference name) done)
  | .doctype :: ts, outer, done => grow complete ts outer (.doctype :: done)
  | .start name inside closed :: ts, outer, done =>
    if closed then grow complete ts outer (.element (.ofInside name inside) [] :: done)
    else grow complete ts ((.ofInside name inside, done) :: outer) []
  | .stop name :: ts, (tag, before) :: outer, done =>
    if tag.name = name then grow complete ts outer (.element tag done.reverse :: before)
    else closeAll ((tag, before) :: outer) (.broken :: done)
  | .stop _ :: _, [], done => closeAll [] (.broken :: done)

/-- The tree of a document. A byte order mark in front is no part of it. -/
def Item.ofText (text : String) : List Item :=
  let chars := match text.toList with
    | '\ufeff' :: rest => rest
    | cs => cs
  let scan := Scan.ofChars chars
  grow scan.complete scan.tokens [] []

/-- What follows at the start of the content of an element, or of the rest of it. -/
def Item.ahead : List Item → Ahead
  | [] => .stop
  | .element tag _ :: _ => .start tag.frame
  | _ :: _ => .other

mutual

/-- Whether the markup of an item is well formed to its end. What tags bind is not considered. -/
def Item.isClosed : Item → Bool
  | .run _ | .doctype => true
  | .element _ content => areClosed content
  | .broken => false

/-- Whether the markup of all items is well formed. -/
def Item.areClosed : List Item → Bool
  | [] => true
  | i :: is => i.isClosed && areClosed is

end

mutual

/-- Whether the markup of an item is well formed, its texts have known references only, and its
tags bind nothing that is not admitted. -/
def Item.isSound : Item → Bool
  | .run pieces => (resolveRun pieces).isSome
  | .doctype => true
  | .element tag content => tag.frame.admitted && areSound content
  | .broken => false

/-- Whether all items are sound. -/
def Item.areSound : List Item → Bool
  | [] => true
  | i :: is => i.isSound && areSound is

end

/-- Whether content can be skipped: its markup has to be well formed, and a tag at its start, which
has been looked at, must not bind what is not admitted. -/
def Item.canSkip (content : List Item) : Bool :=
  areClosed content &&
    match ahead content with
    | .start frame => frame.admitted
    | _ => true

/-- The text of content that holds nothing else, if its references are known. -/
def Item.textOf? (content : List Item) : Option (List Char) :=
  match content.filter fun | .doctype => false | _ => true with
  | [] => some []
  | [.run pieces] => resolveRun pieces
  | _ => none

end Substation.Markup
