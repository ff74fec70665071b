/-
  ShaderFlow.Number.Shortest — the shortest decimal that reads back to a number.

  A decimal reads back to a binary number when it lies between the midpoints to the two
  neighbours, the midpoints included when the number's significand is even.  The search
  tries the grids of one, two, three, … significant digits: on each grid only the two
  points next to the number can read back, and the first grid with a hit gives the fewest
  digits.

  Main definitions:
    * `Decimal.readsBack` — the interval test, in exact arithmetic;
    * `Binary32.shortest` — the digits and the power of ten of the shortest decimal.
-/

import ShaderFlow.Number.Binary32

namespace ShaderFlow

/-- A non-negative decimal number `digits * 10 ^ exponent`. -/
structure Decimal where
  digits : Nat
  exponent : Int
deriving Repr, DecidableEq

/-- Where the middle between two equally short, equally close decimals goes. -/
inductive Tie where
  | up
  | toEven
deriving Repr, DecidableEq

namespace Decimal

/-! ## §1. Exact comparison -/

/-- Compares `a * 10 ^ i` with `n * 2 ^ j`. -/
def compareScaled (a : Nat) (i : Int) (n : Nat) (j : Int) : Ordering :=
  compare (a * Nat.pow 10 i.toNat * Nat.pow 2 (-j).toNat)
    (n * Nat.pow 2 j.toNat * Nat.pow 10 (-i).toNat)

/-- Whether a decimal lies among the reals that round to the number `x`.  With `narrow` the
    neighbour below is only half as far away as the neighbour above. -/
def readsBack (d : Decimal) (x : Format.Dyadic) (narrow : Bool) : Bool :=
  let low := if narrow then 4 * x.significand - 1 else 4 * x.significand - 2
  let high := 4 * x.significand + 2
  let closed := x.significand % 2 == 0
  let fromLow := compareScaled d.digits d.exponent low (x.scale - 2)
  let fromHigh := compareScaled d.digits d.exponent high (x.scale - 2)
  (fromLow == .gt || closed && fromLow == .eq) && (fromHigh == .lt || closed && fromHigh == .eq)

/-- Moves the zeros at the end of the digits into the exponent. -/
def strip (d : Decimal) : Decimal := go (Format.digitCount d.digits) d
where
  go : Nat → Decimal → Decimal
    | 0, d => d
    | n + 1, d =>
      if d.digits % 10 = 0 && d.digits ≠ 0 then go n ⟨d.digits / 10, d.exponent + 1⟩ else d

end Decimal

namespace Format.Dyadic

/-! ## §2. The grids of a number -/

/-- The least `k` with `x < 10 ^ k`, for a positive number. -/
def decimalTop (x : Dyadic) : Int :=
  let guess := (x.significand.log2 + x.scale) * 30103 / 100000
  let below (k : Int) : Bool := Decimal.compareScaled 1 k x.significand x.scale == .gt
  if below guess then guess else if below (guess + 1) then guess + 1 else guess + 2

/-- The greatest multiple of `10 ^ e` that is at most `x`, as a count of those steps. -/
def gridFloor (x : Dyadic) (e : Int) : Nat :=
  x.significand * Nat.pow 2 x.scale.toNat * Nat.pow 10 (-e).toNat /
    (Nat.pow 2 (-x.scale).toNat * Nat.pow 10 e.toNat)

/-- The point of the grid `10 ^ e` that stands for `x`, if one of its two neighbours there
    reads back: the closer one, and between equally close ones as `tie` says. -/
def onGrid (x : Dyadic) (narrow : Bool) (tie : Tie) (e : Int) : Option Decimal :=
  let floor := x.gridFloor e
  let lower : Decimal := ⟨floor, e⟩
  let upper : Decimal := ⟨floor + 1, e⟩
  match lower.readsBack x narrow, upper.readsBack x narrow with
  | false, false => none
  | true, false => some lower
  | false, true => some upper
  | true, true =>
    match Decimal.compareScaled (2 * floor + 1) e (2 * x.significand) x.scale with
    | .gt => some lower
    | .lt => some upper
    | .eq =>
      match tie with
      | .up => some upper
      | .toEven => some (if floor % 2 = 0 then lower else upper)

/-- The exact value as a decimal. -/
def exact (x : Dyadic) : Decimal :=
  ⟨x.significand * Nat.pow 2 x.scale.toNat * Nat.pow 5 (-x.scale).toNat, min x.scale 0⟩

end Format.Dyadic

namespace Binary32

/-! ## §3. The search -/

/-- Nine significant digits tell all single-precision numbers apart. -/
def maxDigits : Nat := 9

/-- The shortest decimal that reads back to the magnitude of a finite value, the closest
    among the shortest; zero is `0 * 10 ^ 0`. -/
def shortest (x : Binary32) (tie : Tie) : Decimal :=
  if x.isZero then ⟨0, 0⟩
  else
    let m := x.magnitude
    let narrow := Format.binary32.narrowBelow x.rung.val
    let top := m.decimalTop
    let grids := (List.range maxDigits).map fun n => top - (n + 1 : Nat)
    ((grids.findSome? (m.onGrid narrow tie)).getD m.exact).strip

end Binary32

end ShaderFlow
