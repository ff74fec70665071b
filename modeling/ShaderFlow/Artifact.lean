/-
  ShaderFlow.Artifact — a program that is kept up to date with its graph.

  A failed compilation leaves the last good program in place; its error is kept beside the
  program and put on the graph, at the node it came from.

  Main definitions:
    * `Artifact.compile` — compiles, whatever the state of the graph;
    * `Artifact.update` — compiles if the graph changed.
-/

import ShaderFlow.Graph.Marks
import ShaderFlow.Program

namespace ShaderFlow

/-- A backend with the outcome of its compilations. -/
structure Artifact where
  backend : Backend
  /-- The last program that came of a compilation. -/
  output : Option Program := none
  /-- Why the last compilation failed, if it did. -/
  error : Option CompileError := none
  /-- The version of the graph that was compiled last. -/
  version : Option Nat := none
deriving Repr, DecidableEq

namespace Artifact

/-- An artifact that was never compiled, around a backend that may have been in use. -/
def ofBackend (b : Backend) : Artifact := { backend := b }

/-- An artifact that was never compiled, around a backend of its own. -/
def new (target : Target) : Artifact := ofBackend (.new target)

/-- Whether a graph changed since it was compiled. -/
def isStale (a : Artifact) (g : Graph) : Bool := a.version != some g.version || g.isDirty

/-- Compiles a graph.  Marks of earlier changes and errors go; a new error is put on the
    graph. -/
def compile (a : Artifact) (g : Graph) (context : Context) :
    Artifact × Graph × Except CompileError Program :=
  let (backend, result) := a.backend.compile g context
  let compiled := { a with backend, version := some g.version }
  let clean := g.clearErrors.clean
  match result with
  | .ok program => ({ compiled with output := some program, error := none }, clean, result)
  | .error e =>
    ({ compiled with error := some e }, clean.attachError (e.node?.map (·.id)) e.message, result)

/-- Compiles a graph if it changed. -/
def update (a : Artifact) (g : Graph) (context : Context) : Artifact × Graph :=
  if a.isStale g then
    let (a, g, _) := a.compile g context
    (a, g)
  else (a, g)

end Artifact

end ShaderFlow
