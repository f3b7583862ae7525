import NetIntent.Yaml.Property

namespace NetIntent.Yaml

/-!
# From a text to tokens

The tokens of a text are found from the left. Two of them are only recognized later: that a scalar
or a collection was a key, when its colon comes, and that a block has ended, when a line begins
further left.

* `Lexer` — how far the text is read, the open levels, and the places at which a key may have begun;
* `Lexer.next?` — read one token;
* `Token.ofText?` — the tokens of a text; `none` if it is malformed.
-/

/-- A place at which a key may have begun. -/
structure KeyStart where
  /-- How many tokens come before it. -/
  position : Nat
  index : Nat
  line : Nat
  column : Nat
  /-- Nothing but a key may begin at this place. -/
  required : Bool

/-- A text that is read in part. -/
structure Lexer where
  cursor : Cursor
  /-- The tokens so far, the last one first. -/
  tokens : List Token := []
  /-- The column of the innermost block; -1 outside of all. -/
  indent : Int := -1
  /-- The columns of the blocks around it, the innermost first. -/
  outerIndents : List Int := []
  /-- A key may begin here. -/
  keyAllowed : Bool := true
  /-- Where a key may have begun in the innermost flow collection, or in the block. -/
  keyStart : Option KeyStart := none
  /-- The same for the collections around it, the innermost first. -/
  outerKeys : List (Option KeyStart) := []

namespace Lexer

/-- The place is inside a flow collection. -/
def inFlow (l : Lexer) : Bool := !l.outerKeys.isEmpty

/-- Add a token. -/
def emit (l : Lexer) (t : Token) : Lexer := { l with tokens := t :: l.tokens }

/-- Add a token after so many others. -/
def emitAt (l : Lexer) (position : Nat) (t : Token) : Lexer :=
  let later := l.tokens.length - position
  { l with tokens := l.tokens.take later ++ t :: l.tokens.drop later }

/-- Go on at another place. -/
def goto (l : Lexer) (c : Cursor) : Lexer := { l with cursor := c }

/-- Set whether a key may begin. -/
def allowKey (l : Lexer) (allowed : Bool) : Lexer := { l with keyAllowed := allowed }

/-! ### Levels -/

/-- Open a block at a column, after so many tokens, unless one is open there or further right. -/
def openBlock (l : Lexer) (column position : Nat) (start : Token) : Lexer :=
  if l.inFlow || !decide (l.indent < column) then l
  else
    { l with indent := column, outerIndents := l.indent :: l.outerIndents }.emitAt position start

/-- Open a block at this place. -/
def openBlockHere (l : Lexer) (start : Token) : Lexer :=
  l.openBlock l.cursor.column l.tokens.length start

/-- The tokens and levels when the blocks further right than a column are closed. -/
def closeFrom (column : Int) (tokens : List Token) (indent : Int) :
    List Int → List Token × Int × List Int
  | [] => (tokens, indent, [])
  | outer :: rest =>
    if column < indent then closeFrom column (.blockEnd :: tokens) outer rest
    else (tokens, indent, outer :: rest)

/-- Close the blocks further right than a column. -/
def closeBlocks (l : Lexer) (column : Int) : Lexer :=
  if l.inFlow then l
  else
    let (tokens, indent, outer) := closeFrom column l.tokens l.indent l.outerIndents
    { l with tokens := tokens, indent := indent, outerIndents := outer }

/-! ### Keys -/

/-- The most characters between the start of a key and its colon. -/
def maxKeyLength : Nat := 1024

/-- A key that began there cannot end here: it has to stay in one line, and be short. -/
def KeyStart.expired (k : KeyStart) (c : Cursor) : Bool :=
  decide (k.line < c.line ∨ k.index + maxKeyLength < c.index)

/-- Forget that a key may have begun there, if it is too late for its colon. -/
def expire? (c : Cursor) : Option KeyStart → Option (Option KeyStart)
  | none => some none
  | some k =>
    if !KeyStart.expired k c then some (some k)
    else if k.required then none
    else some none

/-- Forget all places at which it is too late for a key's colon. -/
def expireKeys? (l : Lexer) : Option Lexer := do
  let innermost ← expire? l.cursor l.keyStart
  let outer ← l.outerKeys.mapM (expire? l.cursor)
  some { l with keyStart := innermost, outerKeys := outer }

/-- Forget that a key may have begun. -/
def dropKey? (l : Lexer) : Option Lexer :=
  if l.keyStart.any (·.required) then none else some { l with keyStart := none }

/-- Remember that a key may begin here. -/
def markKey? (l : Lexer) : Option Lexer :=
  if l.keyAllowed then
    (dropKey? l).map fun l =>
      let c := l.cursor
      let required := !l.inFlow && decide (l.indent = c.column)
      { l with keyStart := some ⟨l.tokens.length, c.index, c.line, c.column, required⟩ }
  else some l

/-! ### Tokens -/

/-- Pass over blanks, comments and ends of lines. A tab is a blank where no key may begin. After
    the end of a line in a block a key may. -/
def skipBlanks : (fuel : Nat) → Lexer → Lexer
  | 0, l => l
  | fuel + 1, l =>
    let tabs := l.inFlow || !l.keyAllowed
    let c := l.cursor.dropWhile fun d => d = ' ' || (tabs && d = '\t')
    let c := if c.sees '#' then c.dropWhile (fun d => !isBreak d) else c
    if c.head?.any isBreak then
      skipBlanks fuel ((l.goto c.skipBreak).allowKey (l.keyAllowed || !l.inFlow))
    else l.goto c

/-- A token of one character that ends what came before. -/
def mark? (l : Lexer) (keyNext : Bool) (t : Token) : Option Lexer :=
  (dropKey? l).map fun l => ((l.allowKey keyNext).emit t).goto (l.cursor.advance 1)

/-- A directive, or the start or the end of a document: all blocks end before it. -/
def atTop? (l : Lexer) (t : Token) (next : Cursor) : Option Lexer :=
  (dropKey? (l.closeBlocks (-1))).map fun l => ((l.allowKey false).emit t).goto next

/-- The start of a flow collection. It may begin a key, and so may what it holds. -/
def openFlow? (l : Lexer) (t : Token) : Option Lexer :=
  (markKey? l).map fun l =>
    { l with keyStart := none, outerKeys := l.keyStart :: l.outerKeys, keyAllowed := true }.emit t
      |>.goto (l.cursor.advance 1)

/-- The end of a flow collection. -/
def closeFlow? (l : Lexer) (t : Token) : Option Lexer :=
  (dropKey? l).map fun l =>
    let l :=
      match l.outerKeys with
      | [] => l
      | k :: rest => { l with keyStart := k, outerKeys := rest }
    ((l.allowKey false).emit t).goto (l.cursor.advance 1)

/-- An item of a block list, or a key with its mark: in a block it stands where a key may begin. -/
def blockMark? (l : Lexer) (start t : Token) (keyNext : Bool) : Option Lexer :=
  if l.inFlow then mark? l keyNext t
  else if l.keyAllowed then mark? (l.openBlockHere start) keyNext t
  else none

/-- The colon of a value. What stands before it, if a key may have begun there, was the key. -/
def value? (l : Lexer) : Option Lexer :=
  match l.keyStart with
  | some k =>
    let l := (l.emitAt k.position .key).openBlock k.column k.position .blockMapStart
    some (({ l with keyStart := none, keyAllowed := false }.emit .value).goto (l.cursor.advance 1))
  | none => blockMark? l .blockMapStart .value (!l.inFlow)

/-- A scalar, an alias, an anchor or a tag. It may begin a key. -/
def word? (l : Lexer) (read : Option (Token × Cursor)) : Option Lexer := do
  let l ← markKey? l
  let (t, c) ← read
  some (((l.allowKey false).emit t).goto c)

/-- A scalar without quotes. After the end of a line a key may begin. -/
def plain? (l : Lexer) : Option Lexer := do
  let l ← markKey? l
  let (text, broken, c) ← Scan.plain? l.inFlow (l.indent + 1).toNat l.cursor
  some (((l.allowKey broken).emit (.scalar .plain text)).goto c)

/-- A block of text. -/
def block? (l : Lexer) (literal : Bool) : Option Lexer := do
  let l ← dropKey? l
  let (text, c) ← Scan.block? literal l.indent l.cursor
  let style : Style := if literal then .literal else .folded
  some (((l.allowKey true).emit (.scalar style text)).goto c)

/-- A quoted scalar. -/
def quoted? (l : Lexer) (single : Bool) : Option Lexer :=
  let style : Style := if single then .singleQuoted else .doubleQuoted
  word? l ((Scan.quoted? single l.cursor).map fun (text, c) => (.scalar style text, c))

/-- The characters that begin no plain scalar, whatever follows. -/
def reserved : List Char :=
  [',', '[', ']', '\x7b', '\x7d', '#', '&', '*', '!', '|', '>', '\'', '"', '%', '@', '\x60']

/-- A plain scalar begins here. -/
def beginsPlain (l : Lexer) (d : Char) : Bool :=
  if isGap d || reserved.contains d then false
  else if d = '-' then !l.cursor.gapAt 1
  else if d = '?' || d = ':' then !l.inFlow && !l.cursor.gapAt 1
  else true

/-- Read one token, at a place that is neither blank nor the end of the text. -/
def next? (l : Lexer) : Option Lexer :=
  let c := l.cursor
  match c.head? with
  | none => none
  | some d =>
    if c.column = 0 ∧ d = '%' then
      (Scan.directive? c).bind fun (t, next) => atTop? l t next
    else if c.atMarker '-' then atTop? l .documentStart (c.advance 3)
    else if c.atMarker '.' then atTop? l .documentEnd (c.advance 3)
    else if d = '[' then openFlow? l .flowListStart
    else if d = '\x7b' then openFlow? l .flowMapStart
    else if d = ']' then closeFlow? l .flowListEnd
    else if d = '\x7d' then closeFlow? l .flowMapEnd
    else if d = ',' then mark? l true .comma
    else if d = '-' ∧ c.gapAt 1 then blockMark? l .blockListStart .item true
    else if d = '?' ∧ (l.inFlow ∨ c.gapAt 1) then blockMark? l .blockMapStart .key (!l.inFlow)
    else if d = ':' ∧ (l.inFlow ∨ c.gapAt 1) then value? l
    else if d = '*' then word? l ((Scan.name? c).map fun (n, c) => (.alias n, c))
    else if d = '&' then word? l ((Scan.name? c).map fun (n, c) => (.anchor n, c))
    else if d = '!' then word? l ((Scan.tag? l.inFlow c).map fun (h, s, c) => (.tag h s, c))
    else if d = '|' ∧ !l.inFlow then block? l true
    else if d = '>' ∧ !l.inFlow then block? l false
    else if d = '\'' then quoted? l true
    else if d = '"' then quoted? l false
    else if beginsPlain l d then plain? l
    else none

/-- Read the tokens that are left. Each takes up a character at least. -/
def tokensFrom? : (fuel : Nat) → Lexer → Option (List Token)
  | 0, _ => none
  | fuel + 1, l => do
    let l ← expireKeys? (skipBlanks (l.cursor.rest.length + 1) l)
    let l := l.closeBlocks l.cursor.column
    if l.cursor.atEnd then
      let l ← atTop? l .streamEnd l.cursor
      some l.tokens.reverse
    else
      let l ← next? l
      tokensFrom? fuel l

end Lexer

/-- The place at the start of a text. A byte order mark there is passed over. -/
def Cursor.start (cs : List Char) : Cursor :=
  let c : Cursor := ⟨cs, 0, 0, 0⟩
  if c.sees '\ufeff' then c.advance 1 else c

/-- The tokens of a text. -/
def Token.ofText? (text : String) : Option (List Token) :=
  let cs := text.toList
  if cs.all isAdmissible then
    Lexer.tokensFrom? (cs.length + 1) ⟨Cursor.start cs, [], -1, [], true, none, []⟩
  else none

end NetIntent.Yaml
