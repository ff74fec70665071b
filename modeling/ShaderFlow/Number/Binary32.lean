/-
  ShaderFlow.Number.Binary32 — the single-precision numbers a shader graph stores.

  A number is a sign and a rung of the single-precision ladder; rungs above infinity are the
  values that are not numbers.  Comparison is the comparison of numbers, so the two zeros are
  equal and a value that is not a number differs from everything.
-/

import ShaderFlow.Number.Binary

namespace ShaderFlow

/-- A single-precision value: a sign and a rung. -/
structure Binary32 where
  negative : Bool
  rung : Fin (Nat.pow 2 31)
deriving Repr, DecidableEq

namespace Binary32

/-! ## §1. Bits and constants -/

/-- The value with the given 32 bits; higher bits are ignored. -/
def ofBits (bits : Nat) : Binary32 :=
  ⟨bits / Nat.pow 2 31 % 2 == 1, ⟨bits % Nat.pow 2 31, Nat.mod_lt _ (by decide)⟩⟩

/-- The 32 bits of a value. -/
def toBits (x : Binary32) : Nat := (if x.negative then Nat.pow 2 31 else 0) + x.rung.val

/-- The value with a sign and a rung; rungs that no value has are cut to the last one. -/
def ofRung (negative : Bool) (rung : Nat) : Binary32 :=
  ⟨negative, ⟨min rung (Nat.pow 2 31 - 1), Nat.lt_of_le_of_lt (Nat.min_le_right ..) (by decide)⟩⟩

/-- Positive zero. -/
def zero : Binary32 := ofRung false 0

/-- Positive infinity, or negative infinity. -/
def infinity (negative : Bool) : Binary32 := ofRung negative Format.binary32.infinity

/-- The quiet value that is not a number. -/
def nan (negative : Bool) : Binary32 := ofRung negative (Format.binary32.infinity + Nat.pow 2 22)

/-- The number nearest to the quotient of two naturals. -/
def ofQuotient (negative : Bool) (num den : Nat) : Binary32 :=
  ofRung negative (Format.binary32.nearest num den)

/-- The number nearest to `digits * 10 ^ exponent`. -/
def ofDecimal (negative : Bool) (digits : Nat) (exponent : Int) : Binary32 :=
  ofRung negative (Format.binary32.ofDecimal digits exponent)

/-- The number nearest to an integer. -/
def ofInt (n : Int) : Binary32 := ofQuotient (decide (n < 0)) n.natAbs 1

/-- The number nearest to the double-precision number nearest to `digits * 10 ^ exponent`:
    a decimal that passes through double precision on its way is rounded twice. -/
def ofDecimalViaDouble (negative : Bool) (digits : Nat) (exponent : Int) : Binary32 :=
  let rung := Format.binary64.ofDecimal digits exponent
  if rung ≥ Format.binary64.infinity then infinity negative
  else ofRung negative (Format.binary32.ofDyadic (Format.binary64.rungValue rung))

/-! ## §2. Classes and comparison -/

/-- Neither infinite nor a value that is not a number. -/
def isFinite (x : Binary32) : Bool := x.rung.val < Format.binary32.infinity

/-- Not a number. -/
def isNaN (x : Binary32) : Bool := x.rung.val > Format.binary32.infinity

/-- Either zero. -/
def isZero (x : Binary32) : Bool := x.rung.val == 0

/-- The distance of a finite value from zero. -/
def magnitude (x : Binary32) : Format.Dyadic := Format.binary32.rungValue x.rung.val

/-- Equality of numbers: the zeros agree, and what is not a number equals nothing. -/
def sameNumber (x y : Binary32) : Bool :=
  !x.isNaN && !y.isNaN && (x.isZero && y.isZero || x == y)

/-! ## §3. Conversion to integers -/

/-- The least and the greatest 32-bit integer. -/
def minInt32 : Int := -(Int.pow 2 31)

@[inherit_doc minInt32]
def maxInt32 : Int := Int.pow 2 31 - 1

/-- The integer part, cut to the 32-bit integers; zero for what is not a number. -/
def truncateInt32 (x : Binary32) : Int :=
  if x.isNaN then 0
  else if !x.isFinite then (if x.negative then minInt32 else maxInt32)
  else
    let m := x.magnitude
    let whole : Int :=
      (m.significand * Nat.pow 2 m.scale.toNat / Nat.pow 2 (-m.scale).toNat : Nat)
    max minInt32 (min maxInt32 (if x.negative then -whole else whole))

end Binary32

end ShaderFlow
