import NetIntent.Json.Literal

namespace NetIntent.Yaml

/-!
# Plain scalars

What a scalar without quotes stands for: null, a truth value, an integer in one of four bases, a
double, or its own text.

* `Plain.integer?`, `Plain.double?` — the numbers;
* `Plain.resolve` — what a plain scalar stands for;
* `Plain.isTyped` — a text that has to be quoted to stay a text.
-/

/-- What a scalar stands for. -/
inductive Resolved where
  | null
  | bool (value : Bool)
  | int (value : Int)
  | double (value : Binary64)
  | text
deriving DecidableEq, Inhabited

namespace Plain

/-- The text is a way to write null. -/
def isNull (cs : List Char) : Bool :=
  ["null".toList, "Null".toList, "NULL".toList, ['~']].contains cs

/-- The truth value that the text is. -/
def bool? (cs : List Char) : Option Bool :=
  if ["true".toList, "True".toList, "TRUE".toList].contains cs then some true
  else if ["false".toList, "False".toList, "FALSE".toList].contains cs then some false
  else none

/-- The value of a digit in a base up to sixteen. -/
def digit? (base : Nat) (c : Char) : Option Nat :=
  match Json.Literal.hexDigit? c with
  | some n => if n < base then some n else none
  | none => none

/-- The natural that a list of digits is; at least one digit. -/
def natural? (base : Nat) (cs : List Char) : Option Nat :=
  if cs.isEmpty then none
  else cs.foldl (fun n c => match n, digit? base c with
    | some n, some d => some (n * base + d)
    | _, _ => none) (some 0)

/-- Whether the text begins with a sign. -/
def isSigned : List Char → Bool
  | '+' :: _ | '-' :: _ => true
  | _ => false

/-- The text without one sign in front. -/
def dropSign : List Char → List Char
  | '+' :: rest | '-' :: rest => rest
  | cs => cs

/-- The text without one plus sign in front. -/
def dropPlus : List Char → List Char
  | '+' :: rest => rest
  | cs => cs

/-- Several digits of which the first is zero: a text, not a number. -/
def isZeroPadded (cs : List Char) : Bool :=
  match dropSign cs with
  | '0' :: c :: rest => (c :: rest).all Char.isDigit
  | _ => false

/-- The base that a mark in front of the digits announces, and the digits. -/
def marked? : List Char → Option (Nat × List Char)
  | '0' :: 'x' :: rest => some (16, rest)
  | '0' :: 'o' :: rest => some (8, rest)
  | '0' :: 'b' :: rest => some (2, rest)
  | _ => none

/-- The natural with a mark of its base. -/
def markedNatural? (cs : List Char) : Option Nat :=
  (marked? cs).bind fun (base, ds) => natural? base ds

/-- The least integer of 128 bits. -/
def minInteger : Int := -Int.pow 2 127

/-- The largest integer of 128 bits without sign. -/
def maxInteger : Int := Int.pow 2 128 - 1

/-- The integer within 128 bits that the text is: a sign, if any, and digits, which may have a mark
    of their base. -/
def integer? (cs : List Char) : Option Int :=
  let inRange := fun (n : Int) => if minInteger ≤ n ∧ n ≤ maxInteger then some n else none
  let signed : Option Int :=
    match cs with
    | '-' :: rest => (markedNatural? rest).map fun n => -(n : Int)
    | _ => (markedNatural? (dropPlus cs)).map fun n => (n : Int)
  match signed.bind inRange with
  | some n => some n
  | none =>
    if isZeroPadded cs then none
    else
      match cs with
      | '-' :: rest => ((natural? 10 rest).map fun n => -(n : Int)).bind inRange
      | _ => ((natural? 10 (dropPlus cs)).map fun n => (n : Int)).bind inRange

/-- The value of decimal digits. -/
def decimalValue (ds : List Char) : Nat := ds.foldl (fun n c => n * 10 + Json.Literal.digit c) 0

/-- The exponent at the end of a decimal: nothing, or a mark, a sign, if any, and digits. -/
def exponent? : List Char → Option Int
  | [] => some 0
  | c :: rest =>
    if c = 'e' ∨ c = 'E' then
      let ds := dropSign rest
      if ds.isEmpty || !ds.all Char.isDigit then none
      else if rest.head? = some '-' then some (-(decimalValue ds : Int))
      else some (decimalValue ds : Int)
    else none

/-- The finite double that a text without sign is: digits with a point before, among or after
    them, or none, and an exponent. -/
def magnitude? (negative : Bool) (cs : List Char) : Option Binary64 :=
  let whole := cs.takeWhile Char.isDigit
  let rest := cs.dropWhile Char.isDigit
  let (fraction, rest) :=
    match rest with
    | '.' :: rest => (rest.takeWhile Char.isDigit, rest.dropWhile Char.isDigit)
    | _ => ([], rest)
  if whole.isEmpty && fraction.isEmpty then none
  else
    match exponent? rest with
    | none => none
    | some e =>
      let digits := decimalValue (whole ++ fraction)
      let exponent := e - fraction.length
      -- Far outside of the range of doubles the value is zero or infinite.
      let places : Int := (whole ++ fraction).length + exponent
      if digits = 0 ∨ places < -400 then some (Binary64.ofMagnitude negative 0)
      else if 400 < places then none
      else
        let x := Binary64.ofDecimal negative digits exponent
        if x.isFinite then some x else none

/-- The double that a text is. -/
def double? (cs : List Char) : Option Binary64 :=
  let unsigned := dropPlus cs
  if cs.head? = some '+' && isSigned unsigned then none
  else if [".inf".toList, ".Inf".toList, ".INF".toList].contains unsigned then
    some (.infinity false)
  else if ["-.inf".toList, "-.Inf".toList, "-.INF".toList].contains cs then some (.infinity true)
  else if [".nan".toList, ".NaN".toList, ".NAN".toList].contains cs then some .nan
  else
    match unsigned with
    | '-' :: rest => if isSigned rest then none else magnitude? true rest
    | _ => magnitude? false unsigned

/-- What a plain scalar stands for. -/
def resolve (cs : List Char) : Resolved :=
  if cs.isEmpty || isNull cs then .null
  else
    match bool? cs with
    | some b => .bool b
    | none =>
      match integer? cs with
      | some n => .int n
      | none =>
        if isZeroPadded cs then .text
        else
          match double? cs with
          | some x => .double x
          | none => .text

/-- A text that without quotes would stand for something else, or look as if it did. -/
def isTyped (cs : List Char) : Bool :=
  isZeroPadded cs || !decide (resolve cs = .text)

end Plain

end NetIntent.Yaml
