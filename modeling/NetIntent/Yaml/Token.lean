import NetIntent.Yaml.Writer

namespace NetIntent.Yaml

/-!
# Tokens

A document as a list of tokens. Most of them are marks of the notation; the starts and ends of
block lists and maps are read off the indentation.
-/

/-- A token of a document. -/
inductive Token where
  | versionDirective (major minor : Nat)
  | tagDirective (handle start : String)
  | documentStart
  | documentEnd
  | blockListStart
  | blockMapStart
  | blockEnd
  | flowListStart
  | flowListEnd
  | flowMapStart
  | flowMapEnd
  /-- The hyphen of an item. -/
  | item
  /-- The comma between entries. -/
  | comma
  | key
  | value
  | alias (name : String)
  | anchor (name : String)
  | tag (handle suffix : String)
  | scalar (style : Style) (text : String)
  | streamEnd
deriving DecidableEq, Inhabited

/-- A place in a text and the characters from there on. -/
structure Cursor where
  rest : List Char
  /-- The characters before. -/
  index : Nat := 0
  /-- The lines before. -/
  line : Nat := 0
  /-- The characters before in the same line. -/
  column : Nat := 0
deriving Inhabited

namespace Cursor

/-- The place so many characters further in the same line. -/
def advance (c : Cursor) (n : Nat) : Cursor :=
  ⟨c.rest.drop n, c.index + n, c.line, c.column + n⟩

/-- The character here. -/
def head? (c : Cursor) : Option Char := c.rest.head?

/-- The character so many places further. -/
def ahead? (c : Cursor) (n : Nat) : Option Char := (c.rest.drop n).head?

/-- The character here is the given one. -/
def sees (c : Cursor) (d : Char) : Bool := c.head? == some d

/-- A gap or the end of the text is so many places further. -/
def gapAt (c : Cursor) (n : Nat) : Bool :=
  match c.ahead? n with
  | none => true
  | some d => isGap d

/-- The end of a line or of the text is here. -/
def atLineEnd (c : Cursor) : Bool :=
  match c.head? with
  | none => true
  | some d => isBreak d

/-- The text ends here. -/
def atEnd (c : Cursor) : Bool := c.rest.isEmpty

/-- The characters from here that pass a test, and the place after them, in the same line. -/
def takeWhile (c : Cursor) (test : Char → Bool) : List Char × Cursor :=
  let taken := c.rest.takeWhile test
  (taken, c.advance taken.length)

/-- The place after the characters that pass a test. -/
def dropWhile (c : Cursor) (test : Char → Bool) : Cursor := (c.takeWhile test).2

/-- The place after the end of a line, and what is read of it: a line feed for the ends of lines
    that are one everywhere, and the separators of lines and paragraphs as they are. -/
def readBreak (c : Cursor) : List Char × Cursor :=
  match c.rest with
  | '\r' :: '\n' :: rest => (['\n'], ⟨rest, c.index + 2, c.line + 1, 0⟩)
  | d :: rest =>
    if d = '\u2028' ∨ d = '\u2029' then ([d], ⟨rest, c.index + 1, c.line + 1, 0⟩)
    else if isBreak d then (['\n'], ⟨rest, c.index + 1, c.line + 1, 0⟩)
    else ([], c)
  | [] => ([], c)

/-- The place after the end of a line. -/
def skipBreak (c : Cursor) : Cursor := c.readBreak.2

/-- The mark of the start or the end of a document stands here, at the start of a line. -/
def atMarker (c : Cursor) (mark : Char) : Bool :=
  c.column == 0 && [mark, mark, mark].isPrefixOf c.rest && c.gapAt 3

end Cursor

end NetIntent.Yaml
