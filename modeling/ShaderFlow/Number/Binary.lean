/-
  ShaderFlow.Number.Binary — binary floating formats as ladders of numbers.

  The non-negative numbers of a binary format stand on a ladder: rung `0` is zero, each
  higher rung is the next representable number, and one rung is infinity.  The rung of a
  number is what its bits below the sign spell, so conversions between formats, and from
  decimals, are exact arithmetic on naturals followed by one rounding.

  Main definitions:
    * `Format.rungValue` — the number on a rung, as `significand * 2 ^ scale`;
    * `Format.nearest`   — the rung nearest to a quotient, a tie going to the even rung;
    * `Format.ofDecimal` — the rung nearest to `digits * 10 ^ exponent`.
-/

namespace ShaderFlow

/-! ## §1. Formats -/

/-- A binary floating format. -/
structure Format where
  /-- How many bits the significand of a normal number has. -/
  precision : Nat
  /-- The power of two that the last bit of the smallest numbers stands for. -/
  leastScale : Int
  /-- How many blocks of equally spaced numbers lie below infinity. -/
  blocks : Nat
deriving Repr, DecidableEq

namespace Format

/-- Single precision: 24 bits, down to `2 ^ -149`. -/
def binary32 : Format := ⟨24, -149, 255⟩

/-- Double precision: 53 bits, down to `2 ^ -1074`. -/
def binary64 : Format := ⟨53, -1074, 2047⟩

/-- How many rungs one block of equally spaced numbers takes. -/
def blockSize (f : Format) : Nat := Nat.pow 2 (f.precision - 1)

/-- The rung of infinity: all finite numbers stand below it. -/
def infinity (f : Format) : Nat := f.blocks * f.blockSize

/-! ## §2. The number on a rung -/

/-- A non-negative number `significand * 2 ^ scale`. -/
structure Dyadic where
  significand : Nat
  scale : Int
deriving Repr, DecidableEq

/-- The number on a finite rung.  The first block holds the numbers without a leading one;
    from the second block on, each block doubles the spacing of the one before it. -/
def rungValue (f : Format) (rung : Nat) : Dyadic :=
  let block := rung / f.blockSize
  let offset := rung % f.blockSize
  if block = 0 then ⟨offset, f.leastScale⟩
  else ⟨f.blockSize + offset, f.leastScale + (block - 1 : Nat)⟩

/-- Whether the gap below a rung is half the gap above it, as at the first rung of a block
    whose predecessor is spaced more finely. -/
def narrowBelow (f : Format) (rung : Nat) : Bool :=
  rung % f.blockSize == 0 && rung / f.blockSize > 1

/-! ## §3. Rounding -/

/-- `num / den` rounded to a natural number, a tie going to the even neighbour. -/
def halfEven (num den : Nat) : Nat :=
  let quotient := num / den
  let rest := num % den
  if 2 * rest < den then quotient
  else if 2 * rest > den then quotient + 1
  else quotient + quotient % 2

/-- The greatest `l` with `2 ^ l ≤ num / den`, for positive `num` and `den`. -/
def floorLog2 (num den : Nat) : Int :=
  let guess : Int := num.log2 - den.log2
  if num * Nat.pow 2 (-guess).toNat < den * Nat.pow 2 guess.toNat then guess - 1 else guess

/-- The rung nearest to `num / den`; what lies beyond the finite numbers goes to infinity. -/
def nearest (f : Format) (num den : Nat) : Nat :=
  if num = 0 then 0
  else
    let scale := max f.leastScale (floorLog2 num den - (f.precision - 1 : Nat))
    let significand :=
      halfEven (num * Nat.pow 2 (-scale).toNat) (den * Nat.pow 2 scale.toNat)
    min f.infinity ((scale - f.leastScale).toNat * f.blockSize + significand)

/-- The rung nearest to a dyadic number of another format. -/
def ofDyadic (f : Format) (x : Dyadic) : Nat :=
  f.nearest (x.significand * Nat.pow 2 x.scale.toNat) (Nat.pow 2 (-x.scale).toNat)

/-- How many decimal digits a natural number has; zero has one. -/
def digitCount (n : Nat) : Nat := (Nat.toDigits 10 n).length

/-- Decimal exponents beyond this bound are out of the range of every format here. -/
def decimalReach : Int := 400

/-- The rung nearest to `digits * 10 ^ exponent`.  A number whose leading digit stands far
    outside the range of the format is decided without computing its power of ten. -/
def ofDecimal (f : Format) (digits : Nat) (exponent : Int) : Nat :=
  let top := exponent + digitCount digits
  if digits = 0 then 0
  else if top > decimalReach then f.infinity
  else if top < -decimalReach then 0
  else f.nearest (digits * Nat.pow 10 exponent.toNat) (Nat.pow 10 (-exponent).toNat)

end Format

end ShaderFlow
