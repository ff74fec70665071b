/-
  ShaderFlow.Program — compiled programs.

  Main definitions:
    * `Program` — what each backend makes of a graph;
    * `Backend.compile` — compiling a graph; a particle backend keeps the places of its
      attributes from one compilation to the next.
-/

import ShaderFlow.Compile.Pass

namespace ShaderFlow

/-! ## §1. Programs -/

/-- A compiled material. -/
structure MaterialProgram where
  vertex : String
  fragment : String
  params : Table String ParamBinding
  timeDependent : Bool
  resolutionDependent : Bool
deriving Repr, DecidableEq

/-- A shader that computes one state texture. -/
structure SimulationShader where
  /-- The index of the texture. -/
  index : Nat
  /-- The sampler of the texture. -/
  texture : String
  source : String
deriving Repr, DecidableEq

/-- A compiled particle simulation. -/
structure ParticlesProgram where
  /-- One shader for each texture. -/
  shaders : List SimulationShader
  /-- The places that the shaders read and write. -/
  allocations : Allocations
  params : Table String ParamBinding
  timeDependent : Bool
deriving Repr, DecidableEq

/-- A uniform that the host of a point function has to declare. -/
structure FreeVariable where
  name : String
  /-- The name of its type in code. -/
  type : String
deriving Repr, DecidableEq

/-- A compiled point builder. -/
structure PointProgram where
  /-- The helper functions and the point function. -/
  source : String
  /-- The statements of the point function. -/
  body : String
  /-- The helper functions. -/
  functions : List String
  freeVariables : List FreeVariable
  params : Table String ParamBinding
  /-- The fields that are read. -/
  reads : List String
  /-- The fields that are written. -/
  writes : List String
  timeDependent : Bool
deriving Repr, DecidableEq

/-- What a backend makes of a graph. -/
inductive Program where
  | material (program : MaterialProgram)
  | particles (program : ParticlesProgram)
  | points (program : PointProgram)
deriving Repr, DecidableEq

/-! ## §2. Assembly -/

/-- A material from a finished pass. -/
def MaterialProgram.assemble (p : Progress) (config : Config) :
    Except CompileError MaterialProgram := do
  let stage (stage : Stage) (epilogue : String) :=
    p.render (Material.template config stage) stage [epilogue]
  let vertex ← stage .vertex Material.vertexEpilogue
  let fragment ← stage .fragment Material.fragmentEpilogue
  pure {
    vertex
    fragment
    params := p.needs.params
    timeDependent := p.needs.timeDependent
    resolutionDependent := p.needs.resolutionDependent }

/-- A shader of a particle simulation from a finished pass. -/
def SimulationShader.assemble (p : Progress) (table : Allocations) (index : Nat) :
    Except CompileError SimulationShader := do
  let stage := Stage.simulation index
  let source ← p.render (Particles.template table stage) stage []
  pure { index, texture := table.textureName index, source }

/-- A particle simulation from a finished pass. -/
def ParticlesProgram.assemble (p : Progress) (table : Allocations) :
    Except CompileError ParticlesProgram := do
  let shaders ← ((Particles.stages table).filterMap Stage.texture?).mapM
    (SimulationShader.assemble p table)
  pure {
    shaders
    allocations := table
    params := p.needs.params
    timeDependent := p.needs.timeDependent }

namespace PointProgram

/-- The helper function that a definition is. -/
def helper? (d : Definition) : Option String :=
  match d.declaration with
  | .function .. => some d.declaration.line
  | _ => none

/-- The uniform that a definition is. -/
def freeVariable? (d : Definition) : Option FreeVariable :=
  match d.declaration with
  | .uniform type name => some { name, type := type.glslName }
  | _ => none

/-- A point builder from a finished pass. -/
def assemble (p : Progress) (config : Config) : Except CompileError PointProgram := do
  let body := p.bodyTexts .point []
  let function ← Template.insert .point .body body (Points.template config)
  let definitions := p.listing.definitionsOf .point
  let functions := definitions.filterMap helper?
  let helpers := String.intercalate "\n\n" functions
  pure {
    source := (if helpers.isEmpty then "" else helpers ++ "\n\n") ++ function
    body := String.intercalate "\n" body
    functions
    freeVariables := definitions.filterMap freeVariable?
    params := p.needs.params
    reads := p.needs.reads
    writes := p.needs.writes
    timeDependent := p.needs.timeDependent }

end PointProgram

/-! ## §3. Compilation -/

namespace Particles

/-- Brings a table of places in line with what a graph asks for. -/
def allocate (table : Allocations) (g : Graph) (context : Context) :
    Except CompileError Allocations := do
  let output ← g.outputNode .particles
  let roots := output :: g.exports
  let requests ← collectRequests g.depth g (Scope.root g.name).path roots
  return (← table.update requests context.config.particles).2

end Particles

/-- Compiles a graph.  A particle backend places the attributes first and keeps the new table
    whatever becomes of the pass. -/
def Backend.compile (b : Backend) (g : Graph) (context : Context) :
    Backend × Except CompileError Program :=
  match b with
  | .material =>
    (b, do
      let p ← b.pass g context
      return .material (← MaterialProgram.assemble p context.config))
  | .particles table =>
    match Particles.allocate table g context with
    | .error e => (b, .error e)
    | .ok table =>
      let b := Backend.particles table
      (b, do
        let p ← b.pass g context
        return .particles (← ParticlesProgram.assemble p table))
  | .points =>
    (b, do
      let p ← b.pass g context
      return .points (← PointProgram.assemble p context.config))

end ShaderFlow
