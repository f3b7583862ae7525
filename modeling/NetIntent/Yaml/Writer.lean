import NetIntent.Yaml.Character
import NetIntent.Yaml.Plain

namespace NetIntent.Yaml

/-!
# Writing documents

A document of texts, lists and maps in block style: two spaces for each level, the items of a list
at the level of its key, and no line ever folded.

* `Outline` — what is written;
* `Style.of` — plain if the text stays itself, a literal block if it has line ends, and otherwise
  quoted, singly if nothing has to be escaped;
* `Outline.write` — the document.
-/

/-- A document of texts, lists and maps. -/
inductive Outline where
  | text (value : String)
  | list (items : List Outline)
  | map (members : List (String × Outline))
deriving Inhabited

/-! ### What a text looks like -/

/-- What the choice of a style depends on. -/
structure Traits where
  /-- A character or a combination that has a meaning outside of quotes. -/
  indicator : Bool := false
  /-- A character that may not stand as it is. -/
  special : Bool := false
  /-- The end of a line. -/
  multiline : Bool := false
  /-- A space after the end of a line. -/
  spaceAfterBreak : Bool := false
  /-- A space before the end of a line. -/
  spaceBeforeBreak : Bool := false

/-- The characters that have a meaning at the start of a text. -/
def leadingIndicators : List Char :=
  ['#', ',', '[', ']', '\x7b', '\x7d', '&', '*', '!', '|', '>', '\'', '"', '%', '@', '\x60']

/-- The next character is a gap or the end of the text. -/
def gapFollows : List Char → Bool
  | [] => true
  | c :: _ => isGap c

/-- Whether a character has a meaning where it stands: after which character, if any, and before
    which rest. -/
def isIndicator (before : Option Char) (c : Char) (rest : List Char) : Bool :=
  match before with
  | none =>
    leadingIndicators.contains c || ((c = '?' || c = ':' || c = '-') && gapFollows rest)
  | some b => (c = ':' && gapFollows rest) || (c = '#' && isGap b)

/-- The traits of the rest of a text after a character. -/
def traitsFrom (before : Option Char) : List Char → Traits
  | [] => {}
  | c :: rest =>
    let t := traitsFrom (some c) rest
    { indicator := t.indicator || isIndicator before c rest
      special := t.special || !isPrintable c
      multiline := t.multiline || isBreak c
      spaceAfterBreak := t.spaceAfterBreak || (c = ' ' && before.any isBreak)
      spaceBeforeBreak := t.spaceBeforeBreak || (isBreak c && before = some ' ') }

/-- The text begins with the mark of the start or of the end of a document. -/
def beginsLikeMarker (cs : List Char) : Bool :=
  ['-', '-', '-'].isPrefixOf cs || ['.', '.', '.'].isPrefixOf cs

/-- The traits of a text. -/
def Traits.of (cs : List Char) : Traits :=
  let t := traitsFrom none cs
  { t with indicator := t.indicator || beginsLikeMarker cs }

/-- How a text is written. -/
inductive Style where
  | plain
  | singleQuoted
  | doubleQuoted
  | literal
  | folded
deriving DecidableEq, Inhabited

namespace Style

/-- A text may stand between single quotes. -/
def allowsSingle (t : Traits) : Bool :=
  !(t.spaceAfterBreak || t.spaceBeforeBreak || t.special)

/-- A text may stand without quotes. -/
def allowsPlain (t : Traits) (cs : List Char) : Bool :=
  allowsSingle t && !t.multiline && !t.indicator &&
    !(cs.head? = some ' ') && !(cs.getLast? = some ' ')

/-- A text may stand as a literal block. -/
def allowsBlock (t : Traits) (cs : List Char) : Bool :=
  !(t.spaceBeforeBreak || t.special) && !(cs.getLast? = some ' ')

/-- The style of a text. -/
def of (cs : List Char) : Style :=
  let t := Traits.of cs
  if cs.contains '\n' then (if allowsBlock t cs then .literal else .doubleQuoted)
  else if !Plain.isTyped cs && allowsPlain t cs then .plain
  else if allowsSingle t then .singleQuoted
  else .doubleQuoted

end Style

/-! ### Texts in their styles -/

/-- The digit of a number below sixteen. -/
def hexDigit (n : Nat) : Char :=
  if n < 10 then Char.ofNat ('0'.toNat + n) else Char.ofNat ('A'.toNat + (n - 10))

/-- So many hexadecimal digits of a number. -/
def hexDigits : (count : Nat) → Nat → List Char
  | 0, _ => []
  | count + 1, n => hexDigits count (n / 16) ++ [hexDigit (n % 16)]

/-- The letters of the escapes that have one. -/
def escapeLetters : List (Char × Char) :=
  [('\x00', '0'), ('\x07', 'a'), ('\x08', 'b'), ('\t', 't'), ('\n', 'n'), ('\x0b', 'v'),
    ('\x0c', 'f'), ('\r', 'r'), ('\x1b', 'e'), ('"', '"'), ('\\', '\\'), ('\u0085', 'N'),
    ('\u00a0', '_'), ('\u2028', 'L'), ('\u2029', 'P')]

/-- A character between double quotes. -/
def escaped (c : Char) : List Char :=
  if isPrintable c && !isBreak c && c ≠ '"' && c ≠ '\\' then [c]
  else
    match escapeLetters.lookup c with
    | some letter => ['\\', letter]
    | none =>
      let n := c.toNat
      if n ≤ 0xFF then '\\' :: 'x' :: hexDigits 2 n
      else if n ≤ 0xFFFF then '\\' :: 'u' :: hexDigits 4 n
      else '\\' :: 'U' :: hexDigits 8 n

/-- So many spaces. -/
def spaces (n : Nat) : List Char := List.replicate n ' '

/-- A text between single quotes, after the opening one: a quote is doubled, and after the end of a
    line the text goes on at its level. -/
def singleQuoted (indent : Nat) (atBreak : Bool) : List Char → List Char
  | [] => (if atBreak then spaces indent else []) ++ ['\'']
  | c :: rest =>
    if c = ' ' then c :: singleQuoted indent atBreak rest
    else if isBreak c then c :: singleQuoted indent true rest
    else
      (if atBreak then spaces indent else []) ++ (if c = '\'' then [c, c] else [c]) ++
        singleQuoted indent false rest

/-- The lines of a literal block: each that is not empty at its level. -/
def literalLines (indent : Nat) (atBreak : Bool) : List Char → List Char
  | [] => []
  | c :: rest =>
    if isBreak c then c :: literalLines indent true rest
    else (if atBreak then spaces indent else []) ++ c :: literalLines indent false rest

/-- The mark after the bar of a literal block: none for one line end at the end, a hyphen for none,
    a plus sign for more, or if there is nothing else. -/
def chompMark (cs : List Char) : List Char :=
  match cs.reverse with
  | [] => ['-']
  | c :: before =>
    if !isBreak c then ['-']
    else
      match before with
      | [] => ['+']
      | b :: _ => if isBreak b then ['+'] else []

/-- A literal block: its bar, its marks and its lines. -/
def literalBlock (indent : Nat) (cs : List Char) : List Char :=
  let indentMark :=
    match cs with
    | c :: _ => if c = ' ' || isBreak c then ['2'] else []
    | [] => []
  '|' :: (indentMark ++ chompMark cs ++ '\n' :: literalLines indent true cs)

/-- A text in its style, at a level. -/
def scalar (indent : Nat) (cs : List Char) : List Char :=
  match Style.of cs with
  | .plain => cs
  | .singleQuoted => '\'' :: singleQuoted indent false cs
  | .doubleQuoted => '"' :: (cs.flatMap escaped ++ ['"'])
  | .literal | .folded => literalBlock indent cs

/-- Line feed at the end, unless a literal block has already ended its last line. -/
def endLine (cs : List Char) : List Char :=
  match cs.getLast? with
  | some c => if isBreak c then cs else cs ++ ['\n']
  | none => ['\n']

namespace Outline

mutual

/-- What follows the mark of an item or the colon of a key, up to the end of its last line. The
    level is that of the lines on which a text goes on; `inList` says that the mark is an item's. -/
def tail (level : Nat) (inList : Bool) : Outline → List Char
  | .text s => endLine (' ' :: scalar level s.toList)
  | .list is =>
    if is.isEmpty then " []\n".toList
    else if inList then ' ' :: items level true is
    else '\n' :: items (level - 2) false is
  | .map ms =>
    if ms.isEmpty then " \x7b\x7d\n".toList
    else if inList then ' ' :: members level true ms
    else '\n' :: members level false ms

/-- The items of a list at a level. The first may stand on a line that is begun already. -/
def items (level : Nat) (begun : Bool) : List Outline → List Char
  | [] => []
  | v :: rest =>
    (if begun then [] else spaces level) ++ '-' :: tail (level + 2) true v ++
      items level false rest

/-- The members of a map at a level. The first may stand on a line that is begun already. -/
def members (level : Nat) (begun : Bool) : List (String × Outline) → List Char
  | [] => []
  | (key, v) :: rest =>
    (if begun then [] else spaces level) ++ scalar level key.toList ++
      ':' :: tail (level + 2) false v ++ members level false rest

end

/-- The document. -/
def write (v : Outline) : String :=
  String.ofList
    (match v with
    | .text s => endLine (scalar 0 s.toList)
    | .list [] => "[]\n".toList
    | .list is => items 0 false is
    | .map [] => "\x7b\x7d\n".toList
    | .map ms => members 0 false ms)

end Outline

end NetIntent.Yaml
