import NetIntent.Yaml.Scalar

namespace NetIntent.Yaml

/-!
# Reading tags, anchors and directives

* `Scan.name?` — the name of an anchor or of an alias;
* `Scan.tag?` — the tag of a node: its handle, which a directive may define, and its suffix;
* `Scan.directive?` — a directive, up to the end of its line.
-/

namespace Scan

/-- The marks that may stand right after the name of an anchor or of an alias. -/
def nameEnds : List Char := ['?', ':', ',', ']', '\x7d', '%', '@', '\x60']

/-- The name after the mark of an anchor or of an alias, and the place after it. -/
def name? (c : Cursor) : Option (String × Cursor) :=
  let (name, c) := (c.advance 1).takeWhile isWord
  if name.isEmpty then none
  else if c.gapAt 0 || c.head?.any nameEnds.contains then some (String.ofList name, c)
  else none

/-! ### Tags -/

/-- A character that may stand in a tag. The marks of flow may do so only where they end nothing. -/
def isTagChar (flowMarks : Bool) (d : Char) : Bool :=
  isWord d || ";/?:@&=+$.%!~*'()".toList.contains d || (flowMarks && [',', '[', ']'].contains d)

/-- The value of two hexadecimal digits after a percent sign, and what follows. -/
def percentByte? : List Char → Option (Nat × List Char)
  | '%' :: a :: b :: rest =>
    match Json.Literal.hexDigit? a, Json.Literal.hexDigit? b with
    | some a, some b => some (16 * a + b, rest)
    | _, _ => none
  | _ => none

/-- How many further bytes a first byte announces, and its part of the character's code. -/
def leadByte? (b : Nat) : Option (Nat × Nat) :=
  if b < 0x80 then some (0, b)
  else if b / 0x20 = 0x06 then some (1, b % 0x20)
  else if b / 0x10 = 0x0E then some (2, b % 0x10)
  else if b / 0x08 = 0x1E then some (3, b % 0x08)
  else none

/-- The code that goes on with so many further bytes, and what follows. -/
def furtherBytes? : (count : Nat) → (code : Nat) → List Char → Option (Nat × List Char)
  | 0, code, cs => some (code, cs)
  | count + 1, code, cs =>
    match percentByte? cs with
    | some (b, rest) =>
      if b / 0x40 = 0x02 then furtherBytes? count (code * 0x40 + b % 0x40) rest else none
    | none => none

/-- The character that a run of percent signs and digits spells, and what follows. -/
def percentChar? (cs : List Char) : Option (Char × List Char) := do
  let (b, rest) ← percentByte? cs
  let (count, code) ← leadByte? b
  let (code, rest) ← furtherBytes? count code rest
  let d ← character? code
  some (d, rest)

/-- The characters of a tag from here on, and what follows. -/
def tagRun? (flowMarks : Bool) : (fuel : Nat) → List Char → Option (List Char × List Char)
  | 0, cs => some ([], cs)
  | _ + 1, [] => some ([], [])
  | fuel + 1, d :: rest =>
    if d = '%' then
      match percentChar? (d :: rest) with
      | none => none
      | some (d, rest) => (tagRun? flowMarks fuel rest).map fun (ds, rest) => (d :: ds, rest)
    else if isTagChar flowMarks d then
      (tagRun? flowMarks fuel rest).map fun (ds, rest) => (d :: ds, rest)
    else some ([], d :: rest)

/-- The characters of a tag from here on, and the place after them. -/
def tagChars? (flowMarks : Bool) (c : Cursor) : Option (List Char × Cursor) :=
  (tagRun? flowMarks (c.rest.length + 1) c.rest).map fun (ds, rest) =>
    (ds, c.advance (c.rest.length - rest.length))

/-- The same, where there has to be one at least. -/
def someTagChars? (flowMarks : Bool) (c : Cursor) : Option (List Char × Cursor) :=
  match tagChars? flowMarks c with
  | some (d :: ds, c) => some (d :: ds, c)
  | _ => none

/-- An exclamation mark, a word and, if there is one, another exclamation mark. -/
def handle (c : Cursor) : List Char × Cursor :=
  let (word, c) := (c.advance 1).takeWhile isWord
  if c.sees '!' then ('!' :: word ++ ['!'], c.advance 1) else ('!' :: word, c)

/-- A tag without angle brackets: a handle and a suffix, or all of it a suffix of the shortest
    handle. A lone exclamation mark is a suffix without a handle. -/
def shortTag? (c : Cursor) : Option (String × String × Cursor) :=
  let (h, next) := handle c
  if 1 < h.length ∧ h.getLast? = some '!' then
    (someTagChars? false next).map fun (suffix, c) => (String.ofList h, String.ofList suffix, c)
  else
    (tagChars? false next).map fun (more, c) =>
      let suffix := h.drop 1 ++ more
      if suffix.isEmpty then ("", "!", c) else ("!", String.ofList suffix, c)

/-- A tag between angle brackets. It has no handle. -/
def verbatimTag? (c : Cursor) : Option (String × String × Cursor) :=
  match someTagChars? true (c.advance 2) with
  | some (suffix, c) => if c.sees '>' then some ("", String.ofList suffix, c.advance 1) else none
  | none => none

/-- The handle and the suffix of a tag, and the place after it. -/
def tag? (inFlow : Bool) (c : Cursor) : Option (String × String × Cursor) :=
  let read := if c.ahead? 1 = some '<' then verbatimTag? c else shortTag? c
  match read with
  | some (handle, suffix, c) =>
    if (inFlow && c.sees ',') || c.gapAt 0 then some (handle, suffix, c) else none
  | none => none

/-! ### Directives -/

/-- The most digits of a number of a version. -/
def maxVersionDigits : Nat := 9

/-- A number of a version, and the place after it. -/
def versionNumber? (c : Cursor) : Option (Nat × Cursor) :=
  let (digits, c) := c.takeWhile Char.isDigit
  if digits.isEmpty ∨ maxVersionDigits < digits.length then none
  else some (Plain.decimalValue digits, c)

/-- The two numbers of a version with a point between them. -/
def version? (c : Cursor) : Option (Token × Cursor) := do
  let (major, c) ← versionNumber? (c.dropWhile isSpaceOrTab)
  if !c.sees '.' then none
  let (minor, c) ← versionNumber? (c.advance 1)
  some (.versionDirective major minor, c)

/-- A handle and what the tags with this handle start with. -/
def tagDefinition? (c : Cursor) : Option (Token × Cursor) := do
  let c := c.dropWhile isSpaceOrTab
  if !c.sees '!' then none
  let (h, c) := handle c
  if 1 < h.length ∧ h.getLast? ≠ some '!' then none
  if !c.head?.any isSpaceOrTab then none
  let (start, c) ← someTagChars? true (c.dropWhile isSpaceOrTab)
  if !c.gapAt 0 then none
  some (.tagDirective (String.ofList h) (String.ofList start), c)

/-- A directive from its percent sign on, to the end of its line. -/
def directive? (c : Cursor) : Option (Token × Cursor) := do
  let (name, c) := (c.advance 1).takeWhile isWord
  if !c.gapAt 0 then none
  let (token, c) ←
    if name = "YAML".toList then version? c
    else if name = "TAG".toList then tagDefinition? c
    else none
  let c ← lineRest? c
  some (token, c)

end Scan

end NetIntent.Yaml
