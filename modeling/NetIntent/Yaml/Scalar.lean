import NetIntent.Yaml.Token

namespace NetIntent.Yaml

/-!
# Reading scalars

The four ways to write a text: plain, between quotes of either kind, and as a block. Line ends
inside a text are folded into spaces, except in a literal block.

* `Gap` — the blanks between two pieces of a text, and what they are folded into;
* `Scan.plain?`, `Scan.quoted?`, `Scan.block?` — the text that starts at a place, and the place
  after it. `none` where it is malformed.
-/

/-- The blanks between two pieces of a text. -/
structure Gap where
  /-- The spaces and tabs, if no line ends. -/
  blanks : List Char := []
  /-- A line ends. -/
  broken : Bool := false
  /-- The first end of a line. -/
  first : List Char := []
  /-- The further ends of lines. -/
  more : List Char := []

/-- What a gap is folded into: a space for one line feed, the further ones for several, the blanks
    if no line ends. -/
def Gap.fold (g : Gap) : List Char :=
  if !g.broken then g.blanks
  else if g.first.head? = some '\n' then (if g.more.isEmpty then [' '] else g.more)
  else g.first ++ g.more

namespace Scan

/-- Read a gap. A tab that stands before the given column of a new line is refused. -/
def gap? (indent : Option Nat) : (fuel : Nat) → Gap → Cursor → Option (Gap × Cursor)
  | 0, g, c => some (g, c)
  | fuel + 1, g, c =>
    match c.head? with
    | none => some (g, c)
    | some d =>
      if isSpaceOrTab d then
        if g.broken && d == '\t' && indent.any (fun i => decide (c.column < i)) then none
        else
          let g := if g.broken then g else { g with blanks := g.blanks ++ [d] }
          gap? indent fuel g (c.advance 1)
      else if isBreak d then
        let (b, c) := c.readBreak
        let g :=
          if g.broken then { g with more := g.more ++ b } else ⟨[], true, b, []⟩
        gap? indent fuel g c
      else some (g, c)

/-- A mark that ends a collection or begins one in flow. -/
def isFlowMark (d : Char) : Bool :=
  d = ',' || d = '[' || d = ']' || d = '\x7b' || d = '\x7d'

/-- The characters of a plain text up to the next gap or mark, and the rest. In flow a colon must
    not stand right before a mark. -/
def plainRun? (inFlow : Bool) : List Char → Option (List Char × List Char)
  | [] => some ([], [])
  | d :: rest =>
    if isGap d then some ([], d :: rest)
    else if inFlow && d = ':' && rest.head?.any (fun e => isFlowMark e || e = '?') then none
    else if (d = ':' && gapFollows rest) || (inFlow && isFlowMark d) then some ([], d :: rest)
    else (plainRun? inFlow rest).map fun (run, rest) => (d :: run, rest)

/-- The pieces of a plain text: the text so far, the gap before the next piece, and the place. -/
def plainFrom? (inFlow : Bool) (indent : Nat) : (fuel : Nat) → List Char → Gap → Cursor →
    Option (List Char × Gap × Cursor)
  | 0, text, g, c => some (text, g, c)
  | fuel + 1, text, g, c =>
    if c.atMarker '-' || c.atMarker '.' || c.sees '#' then some (text, g, c)
    else
      match plainRun? inFlow c.rest with
      | none => none
      | some (run, _) =>
        let (text, g) := if run.isEmpty then (text, g) else (text ++ g.fold ++ run, {})
        let c := c.advance run.length
        if c.head?.any isGap then
          match gap? (some indent) c.rest.length g c with
          | none => none
          | some (g, c) =>
            if !inFlow && c.column < indent then some (text, g, c)
            else plainFrom? inFlow indent fuel text g c
        else some (text, g, c)

/-- A plain text: the text, whether a line ended after it, and the place after it. -/
def plain? (inFlow : Bool) (indent : Nat) (c : Cursor) : Option (String × Bool × Cursor) :=
  (plainFrom? inFlow indent (c.rest.length + 1) [] {} c).map fun (text, g, c) =>
    (String.ofList text, g.broken, c)

/-- The character of an escape of one letter. -/
def escapeLetter? (d : Char) : Option Char :=
  match (escapeLetters.find? fun e => e.2 = d).map (·.1) with
  | some e => some e
  | none =>
    if d = '\t' then some '\t'
    else if d = ' ' then some ' '
    else if d = '/' then some '/'
    else none

/-- How many digits follow the letter of a numeric escape. -/
def escapeWidth? (d : Char) : Option Nat :=
  if d = 'x' then some 2 else if d = 'u' then some 4 else if d = 'U' then some 8 else none

/-- The character with a code, if there is one. -/
def character? (n : Nat) : Option Char :=
  if (0xD800 ≤ n ∧ n ≤ 0xDFFF) ∨ 0x10FFFF < n then none else some (Char.ofNat n)

/-- What a step inside a quoted text yields. -/
inductive QuotedStep where
  /-- A piece of the text, and the place after it. -/
  | piece (text : List Char) (next : Cursor)
  /-- The end of a line that is escaped, and the place after it. -/
  | escapedBreak (next : Cursor)
  /-- The closing quote. -/
  | close
  /-- A gap. -/
  | blank

/-- One step inside a quoted text, at a place that is not the end. -/
def quotedStep? (single : Bool) (c : Cursor) : Option QuotedStep :=
  match c.rest with
  | [] => none
  | d :: rest =>
    if isGap d then some .blank
    else if single then
      if d = '\'' then
        if rest.head? = some '\'' then some (.piece ['\''] (c.advance 2)) else some .close
      else some (.piece [d] (c.advance 1))
    else if d = '"' then some .close
    else if d = '\\' then
      match rest with
      | [] => none
      | e :: digits =>
        if isBreak e then some (.escapedBreak (c.advance 1).skipBreak)
        else
          match escapeLetter? e with
          | some x => some (.piece [x] (c.advance 2))
          | none =>
            match escapeWidth? e with
            | none => none
            | some width =>
              let taken := digits.take width
              if taken.length < width then none
              else
                match (Plain.natural? 16 taken).bind character? with
                | some x => some (.piece [x] (c.advance (2 + width)))
                | none => none
    else some (.piece [d] (c.advance 1))

/-- The rest of a quoted text up to its closing quote. -/
def quotedFrom? (single : Bool) : (fuel : Nat) → List Char → Cursor → Option (List Char × Cursor)
  | 0, _, _ => none
  | fuel + 1, text, c =>
    if c.atMarker '-' || c.atMarker '.' then none
    else
      match quotedStep? single c with
      | none => none
      | some .close => some (text, c.advance 1)
      | some (.piece more next) => quotedFrom? single fuel (text ++ more) next
      | some (.escapedBreak next) =>
        match gap? none next.rest.length ⟨[], true, [], []⟩ next with
        | none => none
        | some (g, next) => quotedFrom? single fuel (text ++ g.fold) next
      | some .blank =>
        match gap? none c.rest.length {} c with
        | none => none
        | some (g, next) => quotedFrom? single fuel (text ++ g.fold) next

/-- A quoted text from its opening quote on. -/
def quoted? (single : Bool) (c : Cursor) : Option (String × Cursor) :=
  (quotedFrom? single (c.rest.length + 1) [] (c.advance 1)).map fun (text, c) =>
    (String.ofList text, c)

/-! ### Blocks -/

/-- What becomes of the line ends at the end of a block. -/
inductive Chomp where
  | strip
  | clip
  | keep
deriving DecidableEq

/-- The sign of a chomping mark. -/
def chomp? (d : Char) : Option Chomp :=
  if d = '+' then some .keep else if d = '-' then some .strip else none

/-- The mark of a block after its bar: how it ends and by how much it is indented, in either
    order. -/
def blockMarks? (c : Cursor) : Option (Chomp × Option Nat × Cursor) :=
  let indentation (c : Cursor) : Option (Option Nat × Cursor) :=
    match c.head? with
    | some d =>
      if d = '0' then none
      else if d.isDigit then some (some (Json.Literal.digit d), c.advance 1)
      else some (none, c)
    | none => some (none, c)
  match c.head?.bind chomp? with
  | some chomp => (indentation (c.advance 1)).map fun (n, c) => (chomp, n, c)
  | none =>
    (indentation c).map fun (n, c) =>
      match n, c.head?.bind chomp? with
      | some n, some chomp => (chomp, some n, c.advance 1)
      | n, _ => (.clip, n, c)

/-- Pass over the rest of a line, which may be blanks and a comment. -/
def lineRest? (c : Cursor) : Option Cursor :=
  let c := c.dropWhile isSpaceOrTab
  let c := if c.sees '#' then c.dropWhile (fun d => !isBreak d) else c
  if c.atLineEnd then some c.skipBreak else none

/-- Read the spaces in front of the lines of a block, and the empty lines between them. While the
    level is not known, the widest of them is kept. A tab in their place is refused. -/
def blockGap? (indent : Option Nat) : (fuel : Nat) → (widest : Nat) → List Char → Cursor →
    Option (Nat × List Char × Cursor)
  | 0, widest, breaks, c => some (widest, breaks, c)
  | fuel + 1, widest, breaks, c =>
    let within := fun (column : Nat) => indent.all fun i => decide (column < i)
    let spaces := (c.rest.takeWhile (· = ' ')).length
    let spaces := match indent with
      | some i => min spaces (i - c.column)
      | none => spaces
    let c := c.advance spaces
    let widest := max widest c.column
    if within c.column && c.sees '\t' then none
    else if c.head?.any isBreak then
      let (b, c) := c.readBreak
      blockGap? indent fuel widest (breaks ++ b) c
    else some (widest, breaks, c)

/-- The lines of a block at its level: the text so far, the last end of a line, the empty lines
    after it, and whether the last line began with a blank. -/
def blockLines? (literal : Bool) (indent : Nat) : (fuel : Nat) → (text lineEnd breaks : List Char) →
    (wasBlank : Bool) → Cursor → Option (List Char × List Char × List Char × Cursor)
  | 0, text, lineEnd, breaks, _, c => some (text, lineEnd, breaks, c)
  | fuel + 1, text, lineEnd, breaks, wasBlank, c =>
    if c.column ≠ indent ∨ c.atEnd then some (text, lineEnd, breaks, c)
    else
      let isBlank := c.head?.any isSpaceOrTab
      let joined :=
        if !literal && lineEnd.head? = some '\n' && !wasBlank && !isBlank then
          (if breaks.isEmpty then [' '] else [])
        else lineEnd
      let (line, c) := c.takeWhile (fun d => !isBreak d)
      let text := text ++ joined ++ breaks ++ line
      let (lineEnd, c) := c.readBreak
      match blockGap? (some indent) (c.rest.length + 1) 0 [] c with
      | none => none
      | some (_, breaks, c) => blockLines? literal indent fuel text lineEnd breaks isBlank c

/-- A block from its bar on, inside a collection at the given level. -/
def block? (literal : Bool) (level : Int) (c : Cursor) : Option (String × Cursor) := do
  let (chomp, increment, c) ← blockMarks? (c.advance 1)
  let c ← lineRest? c
  let given := increment.map fun n => if 0 ≤ level then level.toNat + n else n
  let (widest, breaks, c) ← blockGap? given (c.rest.length + 1) 0 [] c
  let indent := given.getD (max (max widest (level + 1).toNat) 1)
  let (text, lineEnd, breaks, c) ←
    blockLines? literal indent (c.rest.length + 1) [] [] breaks false c
  let text := if chomp = .strip then text else text ++ lineEnd
  let text := if chomp = .keep then text ++ breaks else text
  some (String.ofList text, c)

end Scan

end NetIntent.Yaml
