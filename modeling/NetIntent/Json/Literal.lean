import NetIntent.Json.Value

namespace NetIntent.Json

/-!
# JSON texts

A text is first read into a `Literal`, the value as it is written: members keep their order and
their duplicates, and a number out of range or an escape that names no character is only marked.
What a literal stands for is decided afterwards, so that a reader may pass over a member it does
not know without judging what is inside.

* `Literal.ofText?` — the literal that a text spells;
* `Literal.read?` — the value of a literal that nests no deeper than allowed;
* `Json.ofText?` — the value of a text, members in key order.
-/

/-- A value as it is written. -/
inductive Literal where
  | null
  | bool (value : Bool)
  /-- A number, unless it is out of range. -/
  | number (value : Option Number)
  /-- A text, unless one of its escapes names no character. -/
  | string (value : Option String)
  | array (items : List Literal)
  | object (members : List (Option String × Literal))
deriving Inhabited

namespace Literal

/-- Pass over blanks, tabs and line ends. -/
def skipBlanks (cs : List Char) : List Char :=
  cs.dropWhile (fun c => c = ' ' || c = '\n' || c = '\t' || c = '\r')

/-! ### Numbers -/

/-- The value of a decimal digit. -/
def digit (c : Char) : Nat := c.toNat - '0'.toNat

/-- Add digits to a natural as long as it stays within a bound; the digits that are left. -/
def accumulate (bound : Nat) (n : Nat) : List Char → Nat × List Char
  | [] => (n, [])
  | c :: rest =>
    if n * 10 + digit c ≤ bound then accumulate bound (n * 10 + digit c) rest else (n, c :: rest)

/-- Scale a double by a power of ten, in steps that a double can hold. `none` where the result is
    too large. -/
def scale (x : Binary64) (exponent : Int) : (steps : Nat) → Option Binary64
  | 0 => some x
  | steps + 1 =>
    if exponent.natAbs ≤ 308 then
      let power := Binary64.ofDecimal false 1 exponent.natAbs
      if 0 ≤ exponent then
        let y := x.mul power
        if y.isFinite then some y else none
      else some (x.div power)
    else if x.isZero then some x
    else if 0 ≤ exponent then none
    else scale (x.div (Binary64.ofDecimal false 1 308)) (exponent + 308) steps

/-- The double of a significand of 64 bits and a power of ten: the significand is rounded first and
    scaled then. -/
def double (negative : Bool) (significand : Nat) (exponent : Int) : Option Number :=
  (scale (Binary64.ofRatio false significand 1) exponent 8).map
    fun x => .float (Binary64.ofMagnitude negative x.magnitude)

/-- The largest integer of 64 bits without sign. -/
def maxUnsigned : Nat := Nat.pow 2 64 - 1

/-- The number of an integer part: an integer of 64 bits if it fits, and otherwise a double, as is
    minus zero. -/
def integer (negative : Bool) (whole : List Char) : Option Number :=
  match accumulate maxUnsigned 0 whole with
  | (n, []) =>
    if !negative then some (.int n)
    else if n = 0 ∨ Nat.pow 2 63 < n then double true n 0
    else some (.int (-(n : Int)))
  | (n, more) => double negative n more.length

/-- The largest exponent that is read as a number. -/
def maxExponent : Nat := Nat.pow 2 31 - 1

/-- The number with an integer part, a fraction and an exponent. Digits of the significand beyond
    64 bits are dropped. -/
def fractional (negative : Bool) (whole fraction : List Char)
    (exponent : Option (Bool × List Char)) : Option Number :=
  let (n, more) := accumulate maxUnsigned 0 whole
  let (m, ignored) := accumulate maxUnsigned n fraction
  let start : Int := (more.length : Int) - ((fraction.length - ignored.length : Nat) : Int)
  match exponent with
  | none => double negative m start
  | some (below, digits) =>
    match accumulate maxExponent 0 digits with
    | (e, []) =>
      double negative m
        (if below then max (start - e) (-Int.pow 2 31) else min (start + e) (Int.pow 2 31 - 1))
    | _ => if m ≠ 0 ∧ !below then none else some (.float (Binary64.ofMagnitude negative 0))

/-- Read an exponent after its mark: a sign, if any, and at least one digit. -/
def exponent? (cs : List Char) : Option ((Bool × List Char) × List Char) :=
  let (below, cs) :=
    match cs with
    | '-' :: rest => (true, rest)
    | '+' :: rest => (false, rest)
    | _ => (false, cs)
  let digits := cs.takeWhile Char.isDigit
  if digits.isEmpty then none else some ((below, digits), cs.dropWhile Char.isDigit)

/-- Read a number after its sign, if any: no zero before other digits, and at least one digit in
    each part. -/
def number? (negative : Bool) (cs : List Char) : Option (Literal × List Char) :=
  let whole := cs.takeWhile Char.isDigit
  let rest := cs.dropWhile Char.isDigit
  if whole.isEmpty ∨ (1 < whole.length ∧ whole.head? = some '0') then none
  else
    match rest with
    | '.' :: rest =>
      let fraction := rest.takeWhile Char.isDigit
      let rest := rest.dropWhile Char.isDigit
      if fraction.isEmpty then none
      else
        match rest with
        | 'e' :: rest | 'E' :: rest =>
          (exponent? rest).map fun (e, rest) =>
            (.number (fractional negative whole fraction (some e)), rest)
        | _ => some (.number (fractional negative whole fraction none), rest)
    | 'e' :: rest | 'E' :: rest =>
      (exponent? rest).map fun (e, rest) =>
        (.number (fractional negative whole [] (some e)), rest)
    | _ => some (.number (integer negative whole), rest)

/-! ### Texts -/

/-- What stands in a text: a character, or a unit of 16 bits that is written as an escape. -/
inductive Piece where
  | char (c : Char)
  | unit (n : Nat)

/-- The value of a hexadecimal digit. -/
def hexDigit? (c : Char) : Option Nat :=
  if c.isDigit then some (c.toNat - '0'.toNat)
  else if 'a' ≤ c ∧ c ≤ 'f' then some (c.toNat - 'a'.toNat + 10)
  else if 'A' ≤ c ∧ c ≤ 'F' then some (c.toNat - 'A'.toNat + 10)
  else none

/-- The value of four hexadecimal digits. -/
def hexUnit? (a b c d : Char) : Option Nat := do
  let a ← hexDigit? a
  let b ← hexDigit? b
  let c ← hexDigit? c
  let d ← hexDigit? d
  some (((a * 16 + b) * 16 + c) * 16 + d)

/-- The character of an escape with one letter. -/
def escaped? (c : Char) : Option Char :=
  if c = '"' ∨ c = '\\' ∨ c = '/' then some c
  else if c = 'b' then some '\x08'
  else if c = 'f' then some '\x0c'
  else if c = 'n' then some '\n'
  else if c = 'r' then some '\r'
  else if c = 't' then some '\t'
  else none

/-- Read a text after its opening quote up to its closing one. -/
def pieces? : List Char → Option (List Piece × List Char)
  | [] => none
  | '"' :: rest => some ([], rest)
  | '\\' :: 'u' :: a :: b :: c :: d :: rest =>
    match hexUnit? a b c d with
    | none => none
    | some n => (pieces? rest).map fun (ps, rest) => (.unit n :: ps, rest)
  | '\\' :: e :: rest =>
    match escaped? e with
    | none => none
    | some c => (pieces? rest).map fun (ps, rest) => (.char c :: ps, rest)
  | c :: rest =>
    if c = '\\' ∨ c.toNat < 32 then none
    else (pieces? rest).map fun (ps, rest) => (.char c :: ps, rest)

/-- The characters that the pieces spell: two units that are halves of one character stand for it,
    a half without the other for nothing. -/
def characters? : List Piece → Option (List Char)
  | [] => some []
  | .char c :: rest => (characters? rest).map (c :: ·)
  | .unit n :: .unit m :: rest =>
    if 0xD800 ≤ n ∧ n < 0xDC00 then
      if 0xDC00 ≤ m ∧ m < 0xE000 then
        (characters? rest).map (Char.ofNat (0x10000 + (n - 0xD800) * 0x400 + (m - 0xDC00)) :: ·)
      else none
    else if 0xDC00 ≤ n ∧ n < 0xE000 then none
    else (characters? (.unit m :: rest)).map (Char.ofNat n :: ·)
  | .unit n :: rest =>
    if 0xD800 ≤ n ∧ n < 0xE000 then none else (characters? rest).map (Char.ofNat n :: ·)

/-- Read a text after its opening quote. -/
def text? (cs : List Char) : Option (Option String × List Char) :=
  (pieces? cs).map fun (ps, rest) => ((characters? ps).map String.ofList, rest)

/-! ### Values -/

mutual

/-- Read a value. The fuel bounds the calls and is used up by no text shorter than half of it. -/
def value? : (fuel : Nat) → List Char → Option (Literal × List Char)
  | 0, _ => none
  | fuel + 1, cs =>
    match skipBlanks cs with
    | 'n' :: 'u' :: 'l' :: 'l' :: rest => some (.null, rest)
    | 't' :: 'r' :: 'u' :: 'e' :: rest => some (.bool true, rest)
    | 'f' :: 'a' :: 'l' :: 's' :: 'e' :: rest => some (.bool false, rest)
    | '"' :: rest => (text? rest).map fun (s, rest) => (.string s, rest)
    | '-' :: rest => number? true rest
    | '[' :: rest =>
      match skipBlanks rest with
      | ']' :: rest => some (.array [], rest)
      | rest => (items? fuel rest).map fun (vs, rest) => (.array vs, rest)
    | '{' :: rest =>
      match skipBlanks rest with
      | '}' :: rest => some (.object [], rest)
      | rest => (members? fuel rest).map fun (ms, rest) => (.object ms, rest)
    | rest => number? false rest

/-- Read the items of an array that is not empty, up to its closing bracket. -/
def items? : (fuel : Nat) → List Char → Option (List Literal × List Char)
  | 0, _ => none
  | fuel + 1, cs =>
    match value? fuel cs with
    | none => none
    | some (v, rest) =>
      match skipBlanks rest with
      | ']' :: rest => some ([v], rest)
      | ',' :: rest => (items? fuel rest).map fun (vs, rest) => (v :: vs, rest)
      | _ => none

/-- Read the members of an object that is not empty, up to its closing brace. -/
def members? : (fuel : Nat) → List Char → Option (List (Option String × Literal) × List Char)
  | 0, _ => none
  | fuel + 1, cs =>
    match skipBlanks cs with
    | '"' :: rest =>
      match text? rest with
      | none => none
      | some (key, rest) =>
        match skipBlanks rest with
        | ':' :: rest =>
          match value? fuel rest with
          | none => none
          | some (v, rest) =>
            match skipBlanks rest with
            | '}' :: rest => some ([(key, v)], rest)
            | ',' :: rest => (members? fuel rest).map fun (ms, rest) => ((key, v) :: ms, rest)
            | _ => none
        | _ => none
    | _ => none

end

/-- The literal that a text spells, with nothing but blanks around it. -/
def ofText? (text : String) : Option Literal :=
  let cs := text.toList
  match value? (2 * cs.length + 2) cs with
  | some (v, rest) => if (skipBlanks rest).isEmpty then some v else none
  | none => none

mutual

/-- The value of a literal that nests at most so deep, duplicate members included. -/
def read? : Literal → (depth : Nat) → Option Json
  | .null, _ => some .null
  | .bool b, _ => some (.bool b)
  | .number n, _ => n.map .number
  | .string s, _ => s.map .string
  | .array _, 0 => none
  | .array items, depth + 1 => (readItems? items depth).map .array
  | .object _, 0 => none
  | .object members, depth + 1 => (readMembers? members depth).map .object

/-- The values of a list of literals. -/
def readItems? : List Literal → (depth : Nat) → Option (List Json)
  | [], _ => some []
  | v :: rest, depth =>
    match read? v depth, readItems? rest depth with
    | some v, some rest => some (v :: rest)
    | _, _ => none

/-- The members with their values. -/
def readMembers? : List (Option String × Literal) → (depth : Nat) →
    Option (List (String × Json))
  | [], _ => some []
  | (k, v) :: rest, depth =>
    match k, read? v depth, readMembers? rest depth with
    | some k, some v, some rest => some ((k, v) :: rest)
    | _, _, _ => none

end

/-- The deepest nesting that is read. -/
def maxDepth : Nat := 127

end Literal

/-- The value that a text spells, with the members of every object in key order. -/
def ofText? (text : String) : Option Json :=
  ((Literal.ofText? text).bind (·.read? Literal.maxDepth)).map normalize

end NetIntent.Json
