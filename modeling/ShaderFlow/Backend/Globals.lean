/-
  ShaderFlow.Backend.Globals — values that the host provides.

  Only the outputs that feed something are declared, so a program asks for no more than it
  uses.  How each one is read is a matter of the backend.
-/

import ShaderFlow.Compile.Site

namespace ShaderFlow

/-- An operand together with what reading it adds to a program. -/
structure Reading where
  contributions : List Contribution := []
  operand : Operand
deriving Repr, DecidableEq

namespace Site

/-- Reads the elapsed time. -/
def readTime (s : Site) : Reading where
  contributions := [.define s.stage [.uniform .float "time"], .note .time]
  operand := .uniform "time"

/-- Reads the size of the viewport through a uniform. -/
def readResolution (s : Site) : Reading where
  contributions := [.define s.stage [.uniform .vector2 "resolution"], .note .resolution]
  operand := .uniform "resolution"

/-- Declares the outputs of the node that feed something, each as `read` reads it. -/
def emitGlobals (s : Site) (read : String → Except CompileError Reading) :
    Except CompileError (List Contribution) := do
  let outputs := s.graph.connectedOutputs s.node.id
  let readings ← outputs.mapM read
  let declare (output : String) (reading : Reading) : Statement :=
    s.declare output (.operand reading.operand)
  pure (readings.flatMap (·.contributions) ++
    [.statements s.stage (List.zipWith declare outputs readings)])

end Site

end ShaderFlow
