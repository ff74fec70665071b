/-
  ShaderFlow.Port.Value — the constants a graph holds.

  Values are compared as numbers are, and written in code as literals that always read as
  floats where a float is meant.
-/

import ShaderFlow.Number.Layout
import ShaderFlow.Port.Type

namespace ShaderFlow

/-- A constant of a type that has literals. -/
inductive Value where
  | bool (b : Bool)
  | int (n : Int32)
  | float (x : Binary32)
  | vector2 (x y : Binary32)
  | vector3 (x y z : Binary32)
  | vector4 (x y z w : Binary32)
deriving Repr, DecidableEq

/-! ## §1. Number text in code -/

/-- Numbers in code use a power of ten below a ten-thousandth and from ten to the sixteenth
    on; a middle goes up. -/
def Layout.code : Layout where
  plain := some (-4, 16)
  explicitPlus := false
  tie := .up

/-- A float literal.  What is not finite has no literal and becomes zero. -/
def Binary32.literal (x : Binary32) : String :=
  if x.isFinite then Layout.code.render x else "0.0"

namespace Value

/-! ## §2. Values -/

/-- The type of a value. -/
def portType : Value → PortType
  | .bool _ => .bool
  | .int _ => .int
  | .float _ => .float
  | .vector2 .. => .vector2
  | .vector3 .. => .vector3
  | .vector4 .. => .vector4

/-- A value of the given type whose components are all `x`.  Samplers and arrays have no
    literals and so no such value. -/
def splat (x : Binary32) : PortType → Option Value
  | .bool => some (.bool (!x.isZero))
  | .int => some (.int (Int32.ofInt x.truncateInt32))
  | .float => some (.float x)
  | .vector2 => some (.vector2 x x)
  | .vector3 => some (.vector3 x x x)
  | .vector4 => some (.vector4 x x x x)
  | .texture | .array .. => none

/-- A vector in code: the constructor of its type around its components. -/
def vectorLiteral (constructor : String) (xs : List Binary32) : String :=
  constructor ++ "(" ++ String.intercalate ", " (xs.map Binary32.literal) ++ ")"

/-- A value in code. -/
def literal : Value → String
  | .bool b => if b then "true" else "false"
  | .int n => toString n.toInt
  | .float x => x.literal
  | .vector2 x y => vectorLiteral "vec2" [x, y]
  | .vector3 x y z => vectorLiteral "vec3" [x, y, z]
  | .vector4 x y z w => vectorLiteral "vec4" [x, y, z, w]

/-- Whether two values are of one type and hold the same numbers. -/
def same : Value → Value → Bool
  | .bool a, .bool b => a == b
  | .int a, .int b => a == b
  | .float x, .float x' => x.sameNumber x'
  | .vector2 x y, .vector2 x' y' => x.sameNumber x' && y.sameNumber y'
  | .vector3 x y z, .vector3 x' y' z' => x.sameNumber x' && y.sameNumber y' && z.sameNumber z'
  | .vector4 x y z w, .vector4 x' y' z' w' =>
    x.sameNumber x' && y.sameNumber y' && z.sameNumber z' && w.sameNumber w'
  | _, _ => false

end Value

end ShaderFlow
