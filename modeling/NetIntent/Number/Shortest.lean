import NetIntent.Number.Binary64

namespace NetIntent

/-!
# The shortest decimal of a double

Of all decimals that round to a double, the one with the fewest digits, and of these the nearest.

* `Binary64.ReadsBack` — a decimal lies in the interval that rounds to the double;
* `Binary64.shortest` — the first grid of powers of ten that has such a decimal, and the nearest
  one on it.
-/

/-- A decimal, `digits · 10 ^ exponent`. -/
structure Decimal where
  /-- The digits, as a natural. -/
  digits : Nat
  /-- The power of ten of the last digit. -/
  exponent : Int
deriving DecidableEq

namespace Decimal

/-- The decimal as a quotient. -/
def ratio (d : Decimal) : Nat × Nat :=
  (d.digits * Nat.pow 10 d.exponent.toNat, Nat.pow 10 (-d.exponent).toNat)

/-- The same decimal without zeros at the end of its digits. -/
def strip (fuel : Nat) (d : Decimal) : Decimal :=
  match fuel with
  | 0 => d
  | fuel + 1 =>
    if d.digits ≠ 0 ∧ d.digits % 10 = 0 then strip fuel ⟨d.digits / 10, d.exponent + 1⟩ else d

end Decimal

/-- The order of two quotients with positive denominators. -/
def compareRatios (a b : Nat × Nat) : Ordering := compare (a.1 * b.2) (b.1 * a.2)

namespace Binary64

/-- The ends of the interval of reals that round to a finite magnitude, as quotients. Below a power
    of two the lower neighbour is only half as far away. -/
def interval (x : Binary64) : (Nat × Nat) × (Nat × Nat) :=
  let (m, q) := x.parts
  let narrow := x.magnitude % Nat.pow 2 52 = 0 ∧ Nat.pow 2 52 < x.magnitude
  let scale := fun (n : Nat) => (n * Nat.pow 2 (q - 2).toNat, Nat.pow 2 (2 - q).toNat)
  (scale (if narrow then 4 * m - 1 else 4 * m - 2), scale (4 * m + 2))

/-- The decimal rounds to the magnitude: it lies in the interval, the ends of which belong to the
    double with the even last bit. -/
def readsBack (x : Binary64) (d : Decimal) : Bool :=
  let (low, high) := x.interval
  let closed := x.parts.1 % 2 = 0
  let l := compareRatios low d.ratio
  let h := compareRatios d.ratio high
  (l == .lt || (closed && l == .eq)) && (h == .lt || (closed && h == .eq))

/-- The least power of ten above a positive quotient, from a guess that is not too large. -/
def powerAbove (value : Nat × Nat) : (fuel : Nat) → (guess : Int) → Int
  | 0, guess => guess
  | fuel + 1, guess =>
    if compareRatios value (Decimal.ratio ⟨1, guess⟩) == .lt then guess
    else powerAbove value fuel (guess + 1)

/-- The better of the two neighbours of a value on the grid of a power of ten, if one of them reads
    back: the nearer, halfway the even one. -/
def nearestOnGrid? (x : Binary64) (grid : Int) : Option Decimal :=
  let (num, den) := x.ratio
  let scaledNum := num * Nat.pow 10 (-grid).toNat
  let scaledDen := den * Nat.pow 10 grid.toNat
  let below : Decimal := ⟨scaledNum / scaledDen, grid⟩
  let above : Decimal := ⟨scaledNum / scaledDen + 1, grid⟩
  match x.readsBack below, x.readsBack above with
  | false, false => none
  | true, false => some below
  | false, true => some above
  | true, true =>
    match compare (2 * (scaledNum % scaledDen)) scaledDen with
    | .lt => some below
    | .gt => some above
    | .eq => some (if below.digits % 2 = 0 then below else above)

/-- Search the grids from one digit to as many as are left. -/
def searchGrids (x : Binary64) (top : Int) : (left : Nat) → (digits : Nat) → Option Decimal
  | 0, _ => none
  | left + 1, digits =>
    match x.nearestOnGrid? (top - digits) with
    | some d => some d
    | none => searchGrids x top left (digits + 1)

/-- The shortest decimal that reads back as the magnitude of a finite number, of these the nearest.
    Seventeen digits always suffice. -/
def shortest (x : Binary64) : Decimal :=
  if x.isZero then ⟨0, 0⟩
  else
    let (m, q) := x.parts
    -- 10 ^ guess is at most the value: 1233 / 4096 is a little below the logarithm of two.
    let bits : Int := (Nat.log2 m : Int) + q
    let guess : Int := Int.fdiv (bits * 1233) 4096 - 1
    let top := powerAbove x.ratio 8 guess
    match searchGrids x top 17 1 with
    | some d => d.strip 20
    | none => ⟨0, 0⟩

end Binary64

end NetIntent
