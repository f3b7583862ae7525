namespace NetIntent

/-!
# Double-precision numbers

A double is its 64 bits. Values are rounded and read off in exact arithmetic of naturals, so that
two doubles are equal exactly when their bits are.

* `Binary64.ofRatio` — the double nearest to a quotient, of two the one with the even last bit;
* `Binary64.ratio` — the quotient that a finite double stands for;
* `Binary64.mul`, `Binary64.div` — the rounded product and quotient.
-/

/-- A double-precision number, as its bits: sign, eleven bits of exponent, 52 bits of fraction. -/
structure Binary64 where
  /-- The bits. -/
  bits : UInt64
deriving DecidableEq, Inhabited

namespace Binary64

/-- The bits of positive infinity, which are also the least that no finite magnitude has. -/
def infinityBits : Nat := 2047 * Nat.pow 2 52

/-- The number with the given sign and the given lower 63 bits. -/
def ofMagnitude (negative : Bool) (magnitude : Nat) : Binary64 :=
  ⟨UInt64.ofNat (magnitude + if negative then Nat.pow 2 63 else 0)⟩

/-- Positive or negative infinity. -/
def infinity (negative : Bool) : Binary64 := ofMagnitude negative infinityBits

/-- The number that is no number. -/
def nan : Binary64 := ofMagnitude false (infinityBits + Nat.pow 2 51)

/-- The lower 63 bits. -/
def magnitude (x : Binary64) : Nat := x.bits.toNat % Nat.pow 2 63

/-- Whether the sign bit is set. -/
def isNegative (x : Binary64) : Bool := decide (Nat.pow 2 63 ≤ x.bits.toNat)

/-- Whether this is a number other than the infinities. -/
def isFinite (x : Binary64) : Bool := decide (x.magnitude < infinityBits)

/-- Whether this is zero, of either sign. -/
def isZero (x : Binary64) : Bool := decide (x.magnitude = 0)

/-- The number with the other sign. -/
def neg (x : Binary64) : Binary64 := ofMagnitude (!x.isNegative) x.magnitude

/-- The fraction with its leading bit, and the power of two that it is multiplied by. -/
def parts (x : Binary64) : Nat × Int :=
  let e : Nat := x.magnitude / Nat.pow 2 52
  let f : Nat := x.magnitude % Nat.pow 2 52
  if e = 0 then (f, -1074) else (Nat.pow 2 52 + f, (e : Int) - 1075)

/-- The quotient that a finite number's magnitude is. -/
def ratio (x : Binary64) : Nat × Nat :=
  let (m, q) := x.parts
  (m * Nat.pow 2 q.toNat, Nat.pow 2 (-q).toNat)

/-- The natural nearest to a quotient; halfway, the even one. -/
def roundQuotient (num den : Nat) : Nat :=
  let q := num / den
  let r := num % den
  if 2 * r < den then q
  else if den < 2 * r then q + 1
  else q + q % 2

/-- The exponent of the last bit of the number nearest to a positive quotient: the one that leaves
    53 bits, but none below the least. -/
def lastBit (num den : Nat) : Int :=
  let guess : Int := (Nat.log2 num : Int) - (Nat.log2 den : Int) - 52
  -- The guess leaves 52 or 53 bits before the point.
  let num' := num * Nat.pow 2 (-guess).toNat
  let den' := den * Nat.pow 2 guess.toNat
  let exact := if num' / den' < Nat.pow 2 52 then guess - 1 else guess
  max exact (-1074)

/-- The number nearest to a quotient, halfway the one with the even last bit; infinity where the
    quotient is too large. -/
def ofRatio (negative : Bool) (num den : Nat) : Binary64 :=
  if num = 0 ∨ den = 0 then ofMagnitude negative 0
  else
    let e := lastBit num den
    let m := roundQuotient (num * Nat.pow 2 (-e).toNat) (den * Nat.pow 2 e.toNat)
    ofMagnitude negative (min infinityBits ((e + 1074).toNat * Nat.pow 2 52 + m))

/-- The number nearest to a decimal. -/
def ofDecimal (negative : Bool) (digits : Nat) (exponent : Int) : Binary64 :=
  ofRatio negative (digits * Nat.pow 10 exponent.toNat) (Nat.pow 10 (-exponent).toNat)

/-- The rounded product of two finite magnitudes. -/
def mul (x y : Binary64) : Binary64 :=
  ofRatio false (x.ratio.1 * y.ratio.1) (x.ratio.2 * y.ratio.2)

/-- The rounded quotient of two finite magnitudes. -/
def div (x y : Binary64) : Binary64 :=
  ofRatio false (x.ratio.1 * y.ratio.2) (x.ratio.2 * y.ratio.1)

end Binary64

end NetIntent
