/-
  ShaderFlow.Port.Basic — the inputs and outputs of nodes.
-/

import ShaderFlow.Port.Value

namespace ShaderFlow

/-- Which side of a node a port is on. -/
inductive Direction where
  | input
  | output
deriving Repr, DecidableEq

/-- A port of a node. -/
structure Port where
  name : String
  direction : Direction
  type : PortType
  /-- What an input that nothing feeds evaluates to, where it is not the zero of its type. -/
  default : Option Value := none
  /-- Whether an input has to be fed. -/
  required : Bool := false
deriving Repr, DecidableEq

/-- The name and type of a port that is declared by data: at the boundary of a subnet or in
    the signature of a function. -/
structure PortSpec where
  name : String
  type : PortType
deriving Repr, DecidableEq

namespace Port

/-- An input without a default. -/
def input (name : String) (type : PortType) : Port :=
  { name, direction := .input, type }

/-- An output. -/
def output (name : String) (type : PortType) : Port :=
  { name, direction := .output, type }

/-- Whether two ports can be wired: one has to be an output whose type the other accepts. -/
def canConnect (a b : Port) : Bool :=
  match a.direction, b.direction with
  | .output, .input => a.type.connectsTo b.type
  | .input, .output => b.type.connectsTo a.type
  | _, _ => false

end Port

namespace PortSpec

/-- The input that a specification declares. -/
def toInput (spec : PortSpec) : Port := Port.input spec.name spec.type

/-- The output that a specification declares. -/
def toOutput (spec : PortSpec) : Port := Port.output spec.name spec.type

end PortSpec

end ShaderFlow
