/-
  ShaderFlow.Backend.Particles — one stage for each state texture.

  A stage starts from what its texture held in the last frame and overwrites the channels of
  the attributes that the graph writes there.  Every read samples the last frame.

  Main definitions:
    * `Particles.collectRequests` — the attributes that a graph can touch;
    * `Particles.read`, `Particles.write` — attributes by way of their channels.
-/

import ShaderFlow.Allocation
import ShaderFlow.Backend.Globals
import ShaderFlow.Compile.SideRoots
import ShaderFlow.Compile.Traversal

namespace ShaderFlow.Particles

/-- The inputs of the output node, each of which writes the attribute of its name. -/
def outputAttributes : List String := ["position", "velocity"]

/-! ## §1. What a graph asks for -/

/-- What one node asks for, where `nested` tells what a network inside a subnet asks for. -/
def requestsOf (nested : Graph → String → List NodeId → Except CompileError (List AttributeRequest))
    (g : Graph) (r : Reached) : Except CompileError (List AttributeRequest) :=
  let request (name : String) (type : PortType) : AttributeRequest :=
    { name, type, node := NodeRef.of r.path r.node }
  match r.node.kind with
  | .attribute name type => .ok [request name type]
  | .output _ =>
    let fed := outputAttributes.filter fun name => (g.inputSource? r.node.id name).isSome
    .ok (fed.map (request · .vector3))
  | .subnet s =>
    let roots := s.network.exports
    if roots.isEmpty then .ok [] else nested s.network (r.path ++ "/" ++ r.node.name) roots
  | _ => .ok []

/-- The attributes that a graph with the given number of levels of subnets can touch, from
    root nodes and from the nodes in its subnets that write attributes back. -/
def collectRequests (levels : Nat) (g : Graph) (path : String) (roots : List NodeId) :
    Except CompileError (List AttributeRequest) := do
  let reached ← g.traverse path .deep (fun _ => .all) roots
  let nested :=
    match levels with
    | 0 => fun _ _ _ => .ok []
    | levels + 1 => collectRequests levels
  return (← reached.ordered.mapM (requestsOf nested g)).flatten

/-! ## §2. Policy -/

/-- The stages: one for each texture. -/
def stages (table : Allocations) : List Stage :=
  (List.range (min table.textures.length (Allocations.lastIndex + 1))).map Stage.simulation

/-- The sampler of the texture that a stage computes. -/
def ownTexture (table : Allocations) (stage : Stage) : String :=
  (stage.texture?.map table.textureName).getD ""

/-- Whether an attribute is stored in the texture that a stage computes. -/
def isOwned (table : Allocations) (name : String) (stage : Stage) : Bool :=
  (table.get? name).any fun a => some a.texture == stage.texture?

/-- The stage around the collected code. -/
def template (table : Allocations) (stage : Stage) : String :=
  Text.unlines
    ["// INSERT DEFINITIONS",
     "",
     "void main() \x7b",
     "\tvec2 particleUV = gl_FragCoord.xy / resolution.xy;",
     "\tgl_FragColor = texture2D(" ++ ownTexture table stage ++ ", particleUV);",
     "\t// INSERT BODY",
     "\x7d"]

/-- What every stage declares. -/
def declarations (table : Allocations) (config : Config) (stage : Stage) : List Declaration :=
  [.precision config.formatting.precision,
   .uniform .vector2 "resolution",
   .uniform .texture (ownTexture table stage)]

/-- Whether a node of the given kind can take part. -/
def supports : Kind → Bool
  | .output target => target == .particles
  | .varyingWrite .. | .varyingRead .. => false
  | _ => true

/-- Which inputs of a node matter in a stage: what is written elsewhere does not. -/
def follows (table : Allocations) (kind : Kind) (stage : Stage) : InputFilter :=
  match kind with
  | .output _ => .only (outputAttributes.filter (isOwned table · stage))
  | .attribute name _ => if isOwned table name stage then .all else .only []
  | _ => .all

/-! ## §3. Emission -/

/-- The place of an attribute, which has to be there. -/
def allocation (table : Allocations) (s : Site) (name : String) :
    Except CompileError AttributeAllocation :=
  match table.get? name with
  | some a => .ok a
  | none => .error (.unallocatedAttribute s.ref name)

/-- The type of what the named channels hold. -/
def channelType (swizzle : String) : PortType :=
  (PortType.floatVector swizzle.length).getD .float

/-- Samples an attribute as it was in the last frame, as a value of the given type. -/
def read (table : Allocations) (s : Site) (name : String) (type : PortType) :
    Except CompileError Reading := do
  let a ← allocation table s name
  let texture := table.textureName a.texture
  let swizzle := a.swizzle type.components
  pure {
    contributions := [.define s.stage [.uniform .texture texture], .note (.reads name)]
    operand := (Operand.channels texture swizzle).as (channelType swizzle) type }

/-- Writes a value of the given type into the channels of an attribute. -/
def write (table : Allocations) (s : Site) (name : String) (type : PortType) (value : Operand) :
    Except CompileError (Contribution × Statement) := do
  let a ← allocation table s name
  let swizzle := a.swizzle type.components
  let stored := value.as type (channelType swizzle)
  pure (.note (.writes name), .assign (.channels swizzle) (.operand stored))

/-- Writes what feeds an input of the output node. -/
def writeOutput (table : Allocations) (s : Site) (name : String) :
    Except CompileError (Contribution × Statement) := do
  write table s name .vector3 (← s.input name)

/-- The output node. -/
def emitOutput (table : Allocations) (s : Site) : Except CompileError (List Contribution) := do
  let written := outputAttributes.filter fun name => isOwned table name s.stage && s.isFed name
  let writes ← written.mapM (writeOutput table s)
  pure (writes.map (·.1) ++ [.statements s.stage (writes.map (·.2))])

/-- An attribute node: it reads where its value feeds something, and writes back in the stage
    that computes its texture. -/
def emitAttribute (table : Allocations) (s : Site) (name : String) (type : PortType) :
    Except CompileError (List Contribution) := do
  let readings ←
    if s.graph.isOutputConnected s.node.id "value" then
      (read table s name type).map ([·])
    else pure []
  let writes ←
    if s.isFed Kind.exportInput && isOwned table name s.stage then do
      let value ← s.input Kind.exportInput
      (write table s name type value).map ([·])
    else pure []
  let reads := readings.map fun reading => s.declare "value" (.operand reading.operand)
  pure (readings.flatMap (·.contributions) ++ writes.map (·.1) ++
    [.statements s.stage (reads ++ writes.map (·.2))])

/-- A value that the host provides. -/
def readGlobal (table : Allocations) (s : Site) : String → Except CompileError Reading
  | "time" => .ok s.readTime
  | "resolution" => .ok { contributions := [.note .resolution], operand := .uniform "resolution" }
  | "frag_coord" => .ok { operand := .builtin "gl_FragCoord" }
  | "position" => read table s "position" .vector3
  | _ => .ok { operand := .builtin "particleUV" }

end ShaderFlow.Particles
