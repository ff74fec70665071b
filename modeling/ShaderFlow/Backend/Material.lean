/-
  ShaderFlow.Backend.Material — a vertex and a fragment stage.

  The position and normal of the output node belong to the vertex stage, its color and alpha
  to the fragment stage.  Attributes exist per vertex only, so the fragment stage reads them
  through a varying that the vertex stage sets.
-/

import ShaderFlow.Backend.Globals
import ShaderFlow.Compile.SideRoots
import ShaderFlow.Compile.Traversal

namespace ShaderFlow.Material

/-! ## §1. Templates -/

/-- The vertex stage around the collected code. -/
def vertexTemplate : String :=
  Text.unlines
    ["// INSERT DEFINITIONS",
     "uniform mat4 modelViewMatrix;",
     "uniform mat4 projectionMatrix;",
     "uniform mat3 normalMatrix;",
     "",
     "void main() \x7b",
     "\t// INSERT BODY",
     "\x7d"]

/-- The fragment stage around the collected code. -/
def fragmentTemplate : String :=
  Text.unlines
    ["// INSERT DEFINITIONS",
     "",
     "void main() \x7b",
     "\t// INSERT BODY",
     "\x7d"]

/-- The template of a stage: that of the settings, if they have one. -/
def template (config : Config) : Stage → String
  | .vertex => config.material.vertexTemplate.getD vertexTemplate
  | _ => config.material.fragmentTemplate.getD fragmentTemplate

/-- The last line of the vertex stage. -/
def vertexEpilogue : String :=
  "gl_Position = projectionMatrix * modelViewMatrix * vec4(transformed, 1.0);"

/-- The last line of the fragment stage. -/
def fragmentEpilogue : String := "gl_FragColor = diffuseColor;"

/-! ## §2. Policy -/

/-- Whether a node of the given kind can take part. -/
def supports : Kind → Bool
  | .output target => target == .material
  | _ => true

/-- Which inputs of a node matter in a stage.  A varying is computed in the vertex stage, and
    attributes are never written. -/
def follows (kind : Kind) (stage : Stage) : InputFilter :=
  match kind, stage with
  | .output _, .vertex => .only ["position", "normal"]
  | .output _, _ => .only ["color", "alpha"]
  | .varyingWrite .., .vertex => .all
  | .varyingWrite .., _ | .attribute .., _ => .only []
  | _, _ => .all

/-- The nodes that write varyings. -/
def sideRoots (g : Graph) : List NodeId := g.sideRoots Kind.isVaryingWrite "value"

/-! ## §3. Emission -/

/-- The varying through which an attribute reaches the fragment stage. -/
def attributeVarying (name : String) : String := "v_attr_" ++ name

/-- Reads an attribute in the stage of a site. -/
def readAttribute (s : Site) (name : String) (type : PortType) : Reading :=
  let declared : List Contribution :=
    [.note (.reads name), .define .vertex [.attribute type name]]
  if s.stage = .vertex then { contributions := declared, operand := .attribute name }
  else
    let varying := attributeVarying name
    let pass : Statement := .assign (.varying varying) (.operand (.attribute name))
    { contributions := declared ++
        [.define .vertex [.varying type varying],
         .define s.stage [.varying type varying],
         .write .vertex [{ statement := pass }] .once]
      operand := .varying varying }

/-- The position of the output node. -/
def position (s : Site) : Except CompileError Reading :=
  if s.isFed "position" then (s.input "position").map fun operand => { operand }
  else .ok (readAttribute s "position" .vector3)

/-- The normal of the output node, if it is fed: what it adds, and the statement. -/
def normal (s : Site) : Except CompileError (List Contribution × List Statement) :=
  if s.isFed "normal" then
    (s.input "normal").map fun operand =>
      ([.define .vertex [.varying .vector3 "v_normal"],
        .define .fragment [.varying .vector3 "v_normal"]],
       [.assign (.varying "v_normal") (.viewNormal operand)])
  else .ok ([], [])

/-- The output node. -/
def emitOutput (s : Site) : Except CompileError (List Contribution) := do
  if s.stage = .vertex then
    let position ← position s
    let (definitions, statements) ← normal s
    let body := .declare .vector3 "transformed" (.operand position.operand) :: statements
    pure (position.contributions ++ definitions ++ [.statements s.stage body])
  else
    let color ← s.input "color"
    let alpha ← s.input "alpha"
    pure [.statements s.stage [.declare .vector4 "diffuseColor" (.withAlpha color alpha)]]

/-- An attribute node.  What feeds its export is ignored. -/
def emitAttribute (s : Site) (name : String) (type : PortType) :
    Except CompileError (List Contribution) :=
  if type.components = 0 then .error (.unsupportedAttributeType s.ref name type)
  else
    let reading := readAttribute s name type
    .ok (reading.contributions ++
      [.statements s.stage [s.declare "value" (.operand reading.operand)]])

/-- A value that the host provides.  Only fragments have coordinates on the screen. -/
def readGlobal (s : Site) : String → Except CompileError Reading
  | "time" => .ok s.readTime
  | "resolution" => .ok s.readResolution
  | "frag_coord" =>
    if s.stage = .fragment then .ok { operand := .builtin "gl_FragCoord" }
    else .ok { operand := .zero .vector4 }
  | "position" => .ok (readAttribute s "position" .vector3)
  | _ => .ok (readAttribute s "uv" .vector2)

end ShaderFlow.Material
