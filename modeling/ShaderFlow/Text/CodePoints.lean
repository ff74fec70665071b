/-
  ShaderFlow.Text.CodePoints — classes of characters as ranges of code points.

  A class is a list of closed ranges, ascending and apart.
-/

namespace ShaderFlow

/-- A class of characters: closed ranges of code points, ascending and apart. -/
abbrev CodePoints := List (Nat × Nat)

namespace CodePoints

/-- Whether a character belongs to a class. -/
def has (ranges : CodePoints) (c : Char) : Bool :=
  ranges.any fun (first, last) => first ≤ c.toNat && c.toNat ≤ last

/-- Ranges that ascend and do not touch. -/
def isOrdered : CodePoints → Bool
  | [] => true
  | [(first, last)] => first ≤ last
  | (first, last) :: (next, stop) :: rest =>
    first ≤ last && last + 1 < next && isOrdered ((next, stop) :: rest)

/-- White space: the 25 characters of the property of that name. -/
def blank : CodePoints :=
  [(0x9, 0xd), (0x20, 0x20), (0x85, 0x85), (0xa0, 0xa0), (0x1680, 0x1680), (0x2000, 0x200a),
   (0x2028, 0x2029), (0x202f, 0x202f), (0x205f, 0x205f), (0x3000, 0x3000)]

example : isOrdered blank = true := by decide

example : (blank.map fun (first, last) => last + 1 - first).sum = 25 := by decide

end CodePoints

end ShaderFlow
