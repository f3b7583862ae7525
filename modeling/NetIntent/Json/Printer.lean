import NetIntent.Json.Value
import NetIntent.Number.Shortest

namespace NetIntent.Json

/-!
# Printing JSON

The compact text of a value: no blanks, members in their own order.

* `Json.quote` — a text between quotes;
* `Json.Number.text` — integers in decimal, doubles by their shortest decimal;
* `Json.text` — the text of a value.
-/

/-- The digit of a number below sixteen. -/
def hexChar (n : Nat) : Char :=
  if n < 10 then Char.ofNat ('0'.toNat + n) else Char.ofNat ('a'.toNat + (n - 10))

/-- A character as it stands between quotes. -/
def escape (c : Char) : List Char :=
  if c = '"' then ['\\', '"']
  else if c = '\\' then ['\\', '\\']
  else if c = '\x08' then ['\\', 'b']
  else if c = '\x0c' then ['\\', 'f']
  else if c = '\n' then ['\\', 'n']
  else if c = '\r' then ['\\', 'r']
  else if c = '\t' then ['\\', 't']
  else if c.toNat < 32 then ['\\', 'u', '0', '0', hexChar (c.toNat / 16), hexChar (c.toNat % 16)]
  else [c]

/-- The characters of a text between quotes. -/
def quoteChars (cs : List Char) : List Char := '"' :: (cs.flatMap escape ++ ['"'])

/-- A text between quotes. -/
def quote (s : String) : String := String.ofList (quoteChars s.toList)

/-- The decimal digits of a natural. -/
def natChars (n : Nat) : List Char := Nat.toDigits 10 n

/-- The text of an integer. -/
def intChars : Int → List Char
  | .ofNat n => natChars n
  | .negSucc n => '-' :: natChars (n + 1)

/-- The text of a positive decimal: a point within the first sixteen places or after up to four
    zeros, and otherwise an exponent. A whole number ends in `.0`. -/
def decimalChars (d : Decimal) : List Char :=
  let digits := natChars d.digits
  let length : Int := digits.length
  let point := length + d.exponent
  if 0 ≤ d.exponent ∧ point ≤ 16 then
    digits ++ List.replicate d.exponent.toNat '0' ++ ['.', '0']
  else if 0 < point ∧ point ≤ 16 then
    digits.take point.toNat ++ '.' :: digits.drop point.toNat
  else if -5 < point ∧ point ≤ 0 then
    '0' :: '.' :: (List.replicate (-point).toNat '0' ++ digits)
  else
    digits.take 1 ++ (if digits.length = 1 then [] else '.' :: digits.drop 1) ++
      'e' :: intChars (point - 1)

/-- The text of a double; what is no number has none and is written as null. -/
def doubleChars (x : Binary64) : List Char :=
  if !x.isFinite then ['n', 'u', 'l', 'l']
  else
    (if x.isNegative then ['-'] else []) ++
      if x.isZero then ['0', '.', '0'] else decimalChars x.shortest

/-- The text of a number. -/
def Number.chars : Number → List Char
  | .int n => intChars n
  | .float x => doubleChars x

/-- Lists of characters with a comma between them. -/
def commaJoin : List (List Char) → List Char
  | [] => []
  | [x] => x
  | x :: rest => x ++ ',' :: commaJoin rest

mutual

/-- The characters of a value's compact text. -/
def chars : Json → List Char
  | .null => ['n', 'u', 'l', 'l']
  | .bool true => ['t', 'r', 'u', 'e']
  | .bool false => ['f', 'a', 'l', 's', 'e']
  | .number n => n.chars
  | .string s => quoteChars s.toList
  | .array items => '[' :: (commaJoin (itemChars items) ++ [']'])
  | .object members => '\x7b' :: (commaJoin (memberChars members) ++ ['\x7d'])

/-- The texts of the items of an array. -/
def itemChars : List Json → List (List Char)
  | [] => []
  | v :: rest => chars v :: itemChars rest

/-- The texts of the members of an object. -/
def memberChars : List (String × Json) → List (List Char)
  | [] => []
  | (k, v) :: rest => (quoteChars k.toList ++ ':' :: chars v) :: memberChars rest

end

/-- The compact text of a value. -/
def text (v : Json) : String := String.ofList v.chars

end NetIntent.Json
