/-
  ShaderFlow.Number.Layout — how the chosen digits of a number are laid out.

  Three formats write numbers: code literals, graph documents and manifests.  All three
  write the shortest digits that read back, always with a point in positional form; they
  differ in when a power of ten is used and in how it is spelt.  Those decisions are one
  record, `Layout`, with one value per format beside the format itself.
-/

import ShaderFlow.Number.Shortest

namespace ShaderFlow

/-- The decisions of a number format. -/
structure Layout where
  /-- The exponents of the leading digit that are written without a power of ten: from the
      first up to, but not including, the second.  Without bounds every number is. -/
  plain : Option (Int × Int)
  /-- Whether a positive power of ten shows its sign. -/
  explicitPlus : Bool
  /-- Which of two equally short and equally close decimals is written. -/
  tie : Tie
deriving Repr, DecidableEq

namespace Layout

/-- The decimal digits of a natural number. -/
def digitsOf (n : Nat) : List Char := Nat.toDigits 10 n

/-- Positional form.  The point stands after, inside or before the digits; where no digit
    would stand beside it, a zero does. -/
def positional (d : Decimal) : List Char :=
  let ds := digitsOf d.digits
  let point := (ds.length : Int) + d.exponent
  if d.exponent ≥ 0 then ds ++ List.replicate d.exponent.toNat '0' ++ ['.', '0']
  else if point > 0 then ds.take point.toNat ++ '.' :: ds.drop point.toNat
  else ['0', '.'] ++ List.replicate (-point).toNat '0' ++ ds

/-- The text of an integer exponent. -/
def exponentText (explicitPlus : Bool) (e : Int) : List Char :=
  if e < 0 then '-' :: digitsOf e.natAbs
  else if explicitPlus then '+' :: digitsOf e.natAbs
  else digitsOf e.natAbs

/-- One digit, the remaining ones behind a point if there are any, and the power of ten. -/
def scientific (explicitPlus : Bool) (d : Decimal) : List Char :=
  match digitsOf d.digits with
  | [] => []
  | lead :: rest =>
    let e := (rest.length : Int) + d.exponent
    let fraction := if rest.isEmpty then [] else '.' :: rest
    lead :: fraction ++ 'e' :: exponentText explicitPlus e

/-- Whether a decimal is written without a power of ten. -/
def isPlain (l : Layout) (d : Decimal) : Bool :=
  match l.plain with
  | none => true
  | some (first, last) =>
    let lead := (Format.digitCount d.digits : Int) + d.exponent - 1
    d.digits == 0 || first ≤ lead && lead < last

/-- The text of a decimal with its sign. -/
def write (l : Layout) (negative : Bool) (d : Decimal) : String :=
  let body := if l.isPlain d then positional d else scientific l.explicitPlus d
  String.ofList (if negative then '-' :: body else body)

/-- The text of a finite value: its sign, also that of a zero, and its shortest digits. -/
def render (l : Layout) (x : Binary32) : String := l.write x.negative (x.shortest l.tie)

end Layout

end ShaderFlow
