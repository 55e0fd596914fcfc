import Substation.Text.Blank

/-!
# Tokens of markup

The characters of a document fall into start tags, end tags, references and literal text. What
carries no content is dropped: comments, processing instructions and declarations. A document type
declaration is kept as a token because it keeps the texts on its two sides apart.

`Scan.ofChars` cuts a whole document. It stops at the first place that is no token, so the tokens
before that place can still be used.
-/

namespace Substation.Markup

open Substation.Text

/-- A token of markup. -/
inductive Token where
  /-- A start tag: the name, and what follows it up to the end of the tag. -/
  | start (name attributes : List Char) (closed : Bool)
  /-- An end tag. -/
  | stop (name : List Char)
  /-- Literal text, its line ends folded. -/
  | literal (content : List Char)
  /-- A reference, given by what is between `&` and `;`. -/
  | reference (name : List Char)
  /-- A document type declaration. -/
  | doctype
deriving DecidableEq, Repr

/-- Writes every line end as a line feed. -/
def foldLineEnds : List Char → List Char
  | '\r' :: '\n' :: rest => '\n' :: foldLineEnds rest
  | '\r' :: '\u0085' :: rest => '\n' :: foldLineEnds rest
  | '\r' :: rest => '\n' :: foldLineEnds rest
  | '\u0085' :: rest => '\n' :: foldLineEnds rest
  | '\u2028' :: rest => '\n' :: foldLineEnds rest
  | c :: rest => c :: foldLineEnds rest
  | [] => []

/-- What is left of an input: no longer than the input. -/
abbrev Rest (s : List Char) := { r : List Char // r.length ≤ s.length }

/-- Puts one more character in front of what was read. -/
def prepend {s : List Char} (c : Char) :
    List Char × Rest s → List Char × Rest (c :: s)
  | (read, ⟨r, h⟩) => (c :: read, ⟨r, Nat.le_succ_of_le h⟩)

/-- What comes before the first `mark`, and what comes after it. -/
def upTo? (mark : List Char) : (s : List Char) → Option (List Char × Rest s)
  | [] => none
  | c :: cs =>
    if mark.isPrefixOf (c :: cs) then some ([], ⟨(c :: cs).drop mark.length, by simp⟩)
    else (upTo? mark cs).map (prepend c)

/-- The inside of a tag and what comes after it. The tag ends at the first `>` outside quotes. -/
def tagInside? (quote : Option Char) : (s : List Char) → Option (List Char × Rest s)
  | [] => none
  | c :: cs =>
    match quote with
    | some q => (tagInside? (if c = q then none else some q) cs).map (prepend c)
    | none =>
      if c = '>' then some ([], ⟨cs, Nat.le_succ _⟩)
      else (tagInside? (if c = '"' ∨ c = '\'' then some c else none) cs).map (prepend c)

/-- The inside of a declaration and what comes after it. It ends at the `>` that matches the `<`
before it, `depth` further ones being open. -/
def declarationInside? (depth : Nat) : (s : List Char) → Option (List Char × Rest s)
  | [] => none
  | c :: cs =>
    if c = '<' then (declarationInside? (depth + 1) cs).map (prepend c)
    else if c = '>' then
      match depth with
      | 0 => some ([], ⟨cs, Nat.le_succ _⟩)
      | d + 1 => (declarationInside? d cs).map (prepend c)
    else (declarationInside? depth cs).map (prepend c)

/-- The rest after a given beginning. -/
def after? (beginning s : List Char) : Option (List Char) :=
  if s.take beginning.length = beginning then some (s.drop beginning.length) else none

/-- The rest after a given beginning, letter case aside. -/
def afterIgnoringCase? (beginning s : List Char) : Option (List Char) :=
  if (s.take beginning.length).map Char.toUpper = beginning then some (s.drop beginning.length)
  else none

/-- The start tag with a given inside. -/
def startTag (inside : List Char) : Token :=
  let closed := inside.getLast? == some '/'
  let body := if closed then inside.dropLast else inside
  .start (body.takeWhile (!isMarkupBlank ·)) (body.dropWhile (!isMarkupBlank ·)) closed

/-- The end tag with a given inside: the name without the blanks behind it. An inside of blanks
alone is kept, so it is the name of no element. -/
def endTag (inside : List Char) : Token :=
  .stop (if inside.all isMarkupBlank then inside else dropWhileEnd isMarkupBlank inside)

/-- What a step of the scan reads: a token or nothing of interest. -/
abbrev Lexeme (s : List Char) := Option Token × Rest s

/-- Passes the rest of an input on to an input that is longer by `n` characters. -/
def Rest.widen {s t : List Char} (h : s.length ≤ t.length) : Rest s → Rest t
  | ⟨r, hr⟩ => ⟨r, Nat.le_trans hr h⟩

/-- Markup that starts with `<!`, given what follows. -/
def bang? : (s : List Char) → Option (Lexeme s)
  | '-' :: '-' :: cs =>
    (upTo? "-->".toList cs).map fun (_, r) => (none, r.widen (by simp; omega))
  | '[' :: cs => do
    let (inside, r) ← upTo? "]]>".toList cs
    let content ← after? "CDATA[".toList inside
    return (some (.literal (foldLineEnds content)), r.widen (by simp))
  | c :: cs =>
    if c = 'D' ∨ c = 'd' then do
      let (inside, r) ← declarationInside? 0 cs
      let name ← afterIgnoringCase? "OCTYPE".toList inside
      if name.all isMarkupBlank then none
      else return (some .doctype, r.widen (by simp))
    else none
  | [] => none

/-- Markup, given what follows its `<`. -/
def markup? : (s : List Char) → Option (Lexeme s)
  | '!' :: cs => (bang? cs).map fun (t, r) => (t, r.widen (by simp))
  | '?' :: cs =>
    if cs.head? = some '>' then none
    else (upTo? "?>".toList cs).map fun (_, r) => (none, r.widen (by simp))
  | '/' :: cs =>
    (tagInside? none cs).map fun (inside, r) => (some (endTag inside), r.widen (by simp))
  | cs => (tagInside? none cs).map fun (inside, r) => (some (startTag inside), r)

/-- A reference, given what follows its `&`. -/
def reference? : (s : List Char) → Option (List Char × Rest s)
  | [] => none
  | c :: cs =>
    if c = ';' then some ([], ⟨cs, Nat.le_succ _⟩)
    else if c = '&' ∨ c = '<' then none
    else (reference? cs).map (prepend c)

/-- Whether a character goes on a literal text. -/
def isLiteral (c : Char) : Bool := c != '<' && c != '&'

/-- The next step of the scan, given the first character and what follows it. -/
def lexeme? (c : Char) (cs : List Char) : Option (Lexeme cs) :=
  if c = '<' then markup? cs
  else if c = '&' then (reference? cs).map fun (name, r) => (some (.reference name), r)
  else
    some (some (.literal (foldLineEnds (c :: cs.takeWhile isLiteral))),
      ⟨cs.dropWhile isLiteral, (List.dropWhile_sublist _).length_le⟩)

/-- The tokens of a document, up to its end or to the first place that is no token. -/
structure Scan where
  /-- The tokens in order. -/
  tokens : List Token
  /-- Whether they cover the whole document. -/
  complete : Bool
deriving DecidableEq, Repr

/-- Cuts a document into tokens. -/
def Scan.ofChars (s : List Char) : Scan :=
  match s with
  | [] => ⟨[], true⟩
  | c :: cs =>
    match lexeme? c cs with
    | none => ⟨[], false⟩
    | some (t, ⟨r, _⟩) =>
      let more := Scan.ofChars r
      { more with tokens := t.toList ++ more.tokens }
termination_by s.length
decreasing_by simp only [List.length_cons]; omega

end Substation.Markup
