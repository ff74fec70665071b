/-
  ShaderFlow.Backend.Basic — the policies of the three backends side by side.

  A backend decides which stages there are, which inputs matter in which stage, which nodes
  can take part, and how outputs, attributes and host values are wired.  A particle backend
  carries the table of places that its stages read and write.
-/

import ShaderFlow.Backend.Material
import ShaderFlow.Backend.Particles
import ShaderFlow.Backend.Points

namespace ShaderFlow

/-- A backend at work. -/
inductive Backend where
  | material
  | particles (table : Allocations)
  | points
deriving Repr, DecidableEq

namespace Backend

/-- A backend that has not compiled anything. -/
def new : Target → Backend
  | .material => .material
  | .particles => .particles {}
  | .points => .points

/-- The kind of output node that a backend compiles from. -/
def target : Backend → Target
  | .material => .material
  | .particles _ => .particles
  | .points => .points

/-- The places of attributes; only a particle backend stores any. -/
def allocations : Backend → Allocations
  | .particles table => table
  | _ => {}

/-- The stages in the order in which they are built. -/
def stages : Backend → List Stage
  | .material => [.vertex, .fragment]
  | .particles table => Particles.stages table
  | .points => [.point]

/-- The template of a stage. -/
def template (b : Backend) (config : Config) (stage : Stage) : String :=
  match b with
  | .material => Material.template config stage
  | .particles table => Particles.template table stage
  | .points => Points.template config

/-- Whether a node of the given kind can take part. -/
def supports : Backend → Kind → Bool
  | .material => Material.supports
  | .particles _ => Particles.supports
  | .points => Points.supports

/-- The nodes that act besides the output node. -/
def sideRoots : Backend → Graph → List NodeId
  | .material => Material.sideRoots
  | .particles _ | .points => Graph.exports

/-- Which inputs of a node matter in a stage. -/
def follows (b : Backend) (stage : Stage) (n : Node) : InputFilter :=
  match b with
  | .material => Material.follows n.kind stage
  | .particles table => Particles.follows table n.kind stage
  | .points => .all

/-- What every stage declares.  The host of a point function declares the precision. -/
def declarations (b : Backend) (config : Config) (stage : Stage) : List Declaration :=
  match b with
  | .material => [.precision config.formatting.precision]
  | .particles table => Particles.declarations table config stage
  | .points => []

/-- The output node. -/
def emitOutput : Backend → Site → Except CompileError (List Contribution)
  | .material => Material.emitOutput
  | .particles table => Particles.emitOutput table
  | .points => Points.emitOutput

/-- An attribute node. -/
def emitAttribute : Backend → Site → String → PortType → Except CompileError (List Contribution)
  | .material => Material.emitAttribute
  | .particles table => Particles.emitAttribute table
  | .points => Points.emitAttribute

/-- A value that the host provides. -/
def readGlobal : Backend → Site → String → Except CompileError Reading
  | .material => Material.readGlobal
  | .particles table => Particles.readGlobal table
  | .points => Points.readGlobal

end Backend

end ShaderFlow
