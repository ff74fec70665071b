/-
  ShaderFlow.Delivery.Bundle — the files of a compiled graph.

  A program is delivered as one file for each stage and a manifest that says what the host
  has to bind.  File names come from the name of the graph, of which only characters are kept
  that cannot lead out of a directory.

  Main definitions:
    * `fileStem` — what the file names begin with;
    * `Bundle.of` — the files and the manifest of a program;
    * `Bundle.allFiles` — what is written, the manifest last.
-/

import ShaderFlow.Artifact
import ShaderFlow.Document.Json

namespace ShaderFlow

/-! ## §1. File names -/

/-- Whether a character may stand in a file name. -/
def isFileChar (c : Char) : Bool := c.isAlphanum || c == '_' || c == '-'

/-- What the names of the files of a graph begin with. -/
def fileStem (graph : String) : String :=
  if graph.isEmpty then "graph"
  else String.ofList (graph.toList.map fun c => if isFileChar c then c else '_')

/-- The stage files of a program: names and contents. -/
def Program.files (stem : String) : Program → List (String × String)
  | .material p => [(stem ++ ".vert", p.vertex), (stem ++ ".frag", p.fragment)]
  | .particles p =>
    p.shaders.map fun shader => (stem ++ ".sim" ++ toString shader.index ++ ".frag", shader.source)
  | .points p => [(stem ++ ".point.glsl", p.source)]

/-! ## §2. The manifest -/

/-- A parameter in a manifest. -/
def ParamBinding.json (b : ParamBinding) : Json :=
  .object
    [("node", .string b.node), ("param", .string b.param), ("uniform", .string b.uniform),
     ("port_type", b.type.json), ("default", b.default.json)]

/-- A list of texts in a manifest. -/
def textsJson (texts : List String) : Json := .array (texts.map Json.string)

/-- The place of an attribute in a manifest. -/
def AttributeAllocation.json (a : AttributeAllocation) : Json :=
  .object
    [("name", .string a.name), ("port_type", a.type.json), ("texture", .nat a.texture),
     ("offset", .nat a.offset)]

/-- A state texture in a manifest. -/
def StateTexture.json (t : StateTexture) : Json :=
  .object
    [("index", .nat t.index), ("name", .string t.name), ("attributes", textsJson t.attributes),
     ("used", .nat t.used)]

/-- The table of places in a manifest. -/
def Allocations.json (t : Allocations) : Json :=
  .object
    [("generation", .nat t.generation),
     ("attributes", .object (t.attributes.map fun (name, a) => (name, a.json))),
     ("textures", .array (t.textures.map StateTexture.json))]

/-- A uniform to be declared, in a manifest. -/
def FreeVariable.json (v : FreeVariable) : Json :=
  .object [("name", .string v.name), ("ty", .string v.type)]

namespace Program

/-- The backend of a program. -/
def target : Program → Target
  | .material _ => .material
  | .particles _ => .particles
  | .points _ => .points

/-- The parameters of a program. -/
def params : Program → Table String ParamBinding
  | .material p => p.params
  | .particles p => p.params
  | .points p => p.params

/-- Whether a program reads the elapsed time. -/
def timeDependent : Program → Bool
  | .material p => p.timeDependent
  | .particles p => p.timeDependent
  | .points p => p.timeDependent

/-- What only the manifest of this backend says. -/
def details : Program → List (String × Json)
  | .material p => [("resolution_dependent", .bool p.resolutionDependent)]
  | .particles p => [("allocations", p.allocations.json)]
  | .points p =>
    [("free_variables", .array (p.freeVariables.map FreeVariable.json)),
     ("attributes_read", textsJson p.reads), ("attributes_written", textsJson p.writes)]

/-- The manifest of a program. -/
def manifest (p : Program) (graph : String) (files : List String) : Json :=
  .object
    ([("graph", .string graph), ("backend", .string p.target.name), ("files", textsJson files),
      ("params", .object (p.params.map fun (name, b) => (name, b.json))),
      ("time_dependent", .bool p.timeDependent)] ++ p.details)

end Program

/-! ## §3. Bundles -/

/-- Everything that is written for a compiled graph. -/
structure Bundle where
  /-- What the file names begin with. -/
  stem : String
  /-- Names and contents of the stage files. -/
  files : List (String × String)
  /-- The text of the manifest. -/
  manifest : String
deriving Repr, DecidableEq

namespace Bundle

/-- The bundle of a program that was compiled from a graph. -/
def of (graph : String) (p : Program) : Bundle :=
  let stem := fileStem graph
  let files := p.files stem
  { stem, files, manifest := (p.manifest graph (files.map (·.1))).pretty }

/-- All files in the order in which they are written. -/
def allFiles (b : Bundle) : List (String × String) :=
  b.files ++ [(b.stem ++ ".json", b.manifest)]

end Bundle

/-- Compiles a graph into a bundle. -/
def Artifact.bundle (a : Artifact) (g : Graph) (context : Context) :
    Artifact × Graph × Except CompileError Bundle :=
  let (a, compiled, result) := a.compile g context
  (a, compiled, result.map (Bundle.of g.name))

end ShaderFlow
