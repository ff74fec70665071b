/-
  ShaderFlow.Backend.Points — a function that builds a point.

  The function changes a record in place: attributes and the inputs of the output node are
  its fields.  The host owns the rest of the program.
-/

import ShaderFlow.Backend.Globals
import ShaderFlow.Compile.SideRoots
import ShaderFlow.Compile.Traversal

namespace ShaderFlow.Points

/-- The fields that the output node writes. -/
def outputFields : List String := ["position", "normal", "color"]

/-- The function around the collected code. -/
def template (config : Config) : String :=
  let points := config.points
  "void " ++ points.functionName ++ "(inout Point " ++ points.pointVariable ++
    ") \x7b\n\t// INSERT BODY\n\x7d\n"

/-- Whether a node of the given kind can take part. -/
def supports : Kind → Bool
  | .output target => target == .points
  | .varyingWrite .. | .varyingRead .. => false
  | _ => true

/-- The name of the record. -/
def pointOf (s : Site) : String := s.context.config.points.pointVariable

/-- Reads a field. -/
def readField (s : Site) (name : String) : Reading where
  contributions := [.note (.reads name)]
  operand := .field (pointOf s) name

/-- Writes a field. -/
def writeField (s : Site) (name : String) (value : Operand) : Contribution × Statement :=
  (.note (.writes name), .assign (.field (pointOf s) name) (.operand value))

/-- The output node. -/
def emitOutput (s : Site) : Except CompileError (List Contribution) := do
  let writes ← (outputFields.filter s.isFed).mapM fun name =>
    (s.input name).map (writeField s name)
  pure (writes.map (·.1) ++ [.statements s.stage (writes.map (·.2))])

/-- An attribute node: it reads where its value feeds something, and writes where its export
    is fed. -/
def emitAttribute (s : Site) (name : String) (type : PortType) :
    Except CompileError (List Contribution) := do
  if type.components = 0 then .error (.unsupportedAttributeType s.ref name type)
  else
    let readings :=
      if s.graph.isOutputConnected s.node.id "value" then [readField s name] else []
    let writes ←
      if s.isFed Kind.exportInput then
        (s.input Kind.exportInput).map fun value => [writeField s name value]
      else pure []
    let reads := readings.map fun reading => s.declare "value" (.operand reading.operand)
    pure (readings.flatMap (·.contributions) ++ writes.map (·.1) ++
      [.statements s.stage (reads ++ writes.map (·.2))])

/-- A value that the host provides.  A point has no coordinates on the screen. -/
def readGlobal (s : Site) : String → Except CompileError Reading
  | "time" => .ok s.readTime
  | "resolution" => .ok s.readResolution
  | "frag_coord" => .ok { operand := .zero .vector4 }
  | field => .ok (readField s field)

end ShaderFlow.Points
