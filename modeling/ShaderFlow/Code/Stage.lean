/-
  ShaderFlow.Code.Stage — the parts of a program that run on their own.
-/

namespace ShaderFlow

/-- A phase of a generated program. -/
inductive Stage where
  /-- Runs for each vertex of a material. -/
  | vertex
  /-- Runs for each fragment of a material. -/
  | fragment
  /-- Computes the state texture with the given index, which is below 256. -/
  | simulation (index : Nat)
  /-- The function that builds a point. -/
  | point
deriving Repr, DecidableEq

namespace Stage

/-- The name of a stage. -/
def name : Stage → String
  | .vertex => "vertex"
  | .fragment => "fragment"
  | .simulation index => "simulation_" ++ toString index
  | .point => "point"

/-- The texture that a stage computes. -/
def texture? : Stage → Option Nat
  | .simulation index => some index
  | _ => none

end Stage

end ShaderFlow
