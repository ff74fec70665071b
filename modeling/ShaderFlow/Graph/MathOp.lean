/-
  ShaderFlow.Graph.MathOp — the operations that code has built in.

  An operation knows the names of its operands, what each is when nothing feeds it, and how
  it is written around the code of its operands.
-/

import ShaderFlow.Port.Basic

namespace ShaderFlow

/-- A built-in operation. -/
inductive MathOp where
  | add
  | subtract
  | multiply
  | divide
  | min
  | max
  | pow
  | dot
  | step
  | abs
  | negate
  | sin
  | cos
  | sqrt
  | fract
  | floor
  | normalize
  | length
  | mix
  | clamp
  | smoothstep
deriving Repr, DecidableEq

namespace Binary32

/-- One half. -/
def half : Binary32 := ofBits 0x3f000000

/-- One. -/
def one : Binary32 := ofBits 0x3f800000

/-- Two. -/
def two : Binary32 := ofBits 0x40000000

end Binary32

namespace MathOp

/-- The operands in call order, each with the number its components have by default. -/
def operands : MathOp → List (String × Binary32)
  | .add | .subtract => [("a", .zero), ("b", .zero)]
  | .multiply | .divide => [("a", .one), ("b", .one)]
  | .pow => [("a", .zero), ("b", .two)]
  | .min | .max | .dot | .step => [("a", .zero), ("b", .zero)]
  | .abs | .negate | .sin | .cos | .sqrt | .fract | .floor | .normalize | .length =>
    [("x", .zero)]
  | .mix => [("a", .zero), ("b", .one), ("t", .half)]
  | .clamp => [("x", .zero), ("min", .zero), ("max", .one)]
  | .smoothstep => [("edge0", .zero), ("edge1", .one), ("x", .zero)]

/-- The sign of an operation written between its two operands. -/
def infixSign : MathOp → Option String
  | .add => some "+"
  | .subtract => some "-"
  | .multiply => some "*"
  | .divide => some "/"
  | _ => none

/-- The name of an operation written as a call; an operation written with a sign has none. -/
def functionName : MathOp → String
  | .add | .subtract | .multiply | .divide | .negate => ""
  | .min => "min"
  | .max => "max"
  | .pow => "pow"
  | .dot => "dot"
  | .step => "step"
  | .abs => "abs"
  | .sin => "sin"
  | .cos => "cos"
  | .sqrt => "sqrt"
  | .fract => "fract"
  | .floor => "floor"
  | .normalize => "normalize"
  | .length => "length"
  | .mix => "mix"
  | .clamp => "clamp"
  | .smoothstep => "smoothstep"

/-- Whether the result is a single number whatever the type of the operands. -/
def isReduction : MathOp → Bool
  | .dot | .length => true
  | _ => false

/-- The type of the result for operands of the given type. -/
def resultType (op : MathOp) (operand : PortType) : PortType :=
  if op.isReduction then .float else operand

/-- An operation in code, around the code of its operands. -/
def expression (op : MathOp) (args : List String) : String :=
  match op.infixSign, op, args with
  | some sign, _, [a, b] => a ++ " " ++ sign ++ " " ++ b
  | _, .negate, [x] => "-(" ++ x ++ ")"
  | _, _, _ => op.functionName ++ "(" ++ String.intercalate ", " args ++ ")"

/-- The inputs of an operation on operands of one type. -/
def inputs (op : MathOp) (type : PortType) : List Port :=
  op.operands.map fun (name, x) => { Port.input name type with default := Value.splat x type }

end MathOp

end ShaderFlow
