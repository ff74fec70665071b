/-
  ShaderFlow.Compile.Needs — what a program needs from its host.

  While nodes are emitted they leave notes on what the host has to provide.  The needs of a
  program are its notes, put together in the order in which they were left.

  Main definitions:
    * `Note` — one thing the host has to know;
    * `Needs.ofNotes` — the needs of a program.
-/

import ShaderFlow.Graph.Basic
import ShaderFlow.Table

namespace ShaderFlow

/-- A parameter and the uniform that carries it. -/
structure ParamBinding where
  /-- The path of the first node that uses the parameter. -/
  node : String
  param : String
  uniform : String
  type : PortType
  /-- What the host sets it to at first. -/
  default : Value
deriving Repr, DecidableEq

/-- One thing that the host has to know. -/
inductive Note where
  | param (binding : ParamBinding)
  /-- The elapsed time is read. -/
  | time
  /-- The size of the viewport is read. -/
  | resolution
  | reads (name : String)
  | writes (name : String)
deriving Repr, DecidableEq

/-- What a program needs from its host. -/
structure Needs where
  /-- The parameters by name, each as it was first met. -/
  params : Table String ParamBinding := []
  timeDependent : Bool := false
  resolutionDependent : Bool := false
  /-- The attributes that are read, in the order in which they were first met. -/
  reads : List String := []
  /-- The attributes that are written, in the order in which they were first met. -/
  writes : List String := []
deriving Repr, DecidableEq

namespace Needs

/-- Adds a name to names that were met before. -/
def meet (names : List String) (name : String) : List String :=
  if names.contains name then names else names ++ [name]

/-- Adds a note. -/
def note (n : Needs) : Note → Needs
  | .param binding => { n with params := n.params.keep binding.param binding }
  | .time => { n with timeDependent := true }
  | .resolution => { n with resolutionDependent := true }
  | .reads name => { n with reads := meet n.reads name }
  | .writes name => { n with writes := meet n.writes name }

/-- The needs of a program that left the given notes. -/
def ofNotes (notes : List Note) : Needs := notes.foldl note {}

end Needs

end ShaderFlow
