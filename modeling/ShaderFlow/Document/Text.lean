/-
  ShaderFlow.Document.Text — the text form of graph documents, which is RON.

  Each part of a document has a form to write and a reader, side by side.  The network of a
  subnet is a document inside the document and is loaded as soon as it has been read, so a
  text is refused at the first network that is not the document of a graph.

  Main definitions:
    * `Document.text` — a document as text;
    * `Document.write` — the text, unless the writer of the format refuses it;
    * `Document.ofText` — a text as a document;
    * `Graph.ofText` — a text as a graph.
-/

import ShaderFlow.Document.Basic
import ShaderFlow.Markup.Structure
import ShaderFlow.Markup.Writer

namespace ShaderFlow

/-! ## §1. Port types and values -/

namespace ElementType

/-- The name of an element type in a document. -/
def documentName : ElementType → String
  | .float => "Float"
  | .vector2 => "Vector2"
  | .vector3 => "Vector3"
  | .vector4 => "Vector4"

/-- The element type of the given name. -/
def named? (name : String) : Option ElementType :=
  [.float, .vector2, .vector3, .vector4].find? (·.documentName == name)

/-- Reads an element type. -/
def reader : Reader ElementType := Reader.word named? "an element type"

end ElementType

namespace PortType

/-- The name of a port type in a document. -/
def documentName : PortType → String
  | .bool => "Bool"
  | .int => "Int"
  | .float => "Float"
  | .vector2 => "Vector2"
  | .vector3 => "Vector3"
  | .vector4 => "Vector4"
  | .texture => "Texture"
  | .array .. => "Array"

/-- The port type without parameters of the given name. -/
def named? (name : String) : Option PortType :=
  [.bool, .int, .float, .vector2, .vector3, .vector4, .texture].find? (·.documentName == name)

/-- The form of a port type. -/
def form (type : PortType) : Form :=
  match type with
  | .array element length =>
    .tuple type.documentName [.word element.documentName, .int length.toNat]
  | _ => .word type.documentName

/-- Reads the length of an array. -/
def lengthReader : Reader UInt16 := do
  return UInt16.ofNat (← Reader.integer (.unsigned 16)).toNat

/-- Reads a port type. -/
def reader : Reader PortType := Reader.variant fun name => do
  if name == "Array" then
    Reader.skipBlank
    let (element, length) ← Reader.pair false ElementType.reader lengthReader
    pure (.array element length)
  else
    match named? name with
    | some type => pure type
    | none => Reader.expected "a port type"

end PortType

namespace Value

/-- The form of a value. -/
def form : Value → Form
  | .bool b => .variant "Bool" (.bool b)
  | .int n => .variant "Int" (.int n.toInt)
  | .float x => .variant "Float" (.float x)
  | .vector2 x y => .variant "Vector2" (.tuple "" [.float x, .float y])
  | .vector3 x y z => .variant "Vector3" (.tuple "" [.float x, .float y, .float z])
  | .vector4 x y z w => .variant "Vector4" (.tuple "" [.float x, .float y, .float z, .float w])

/-- Reads the components of a vector. -/
def vectorReader (count : Nat) (make : List Binary32 → Option Value) : Reader Value :=
  Reader.payload fun bare => do
    match make (← Reader.tuple bare count Reader.float) with
    | some value => pure value
    | none => Reader.expected "a vector"

/-- Reads a value. -/
def reader : Reader Value := Reader.variant fun
  | "Bool" => return .bool (← Reader.payload fun _ => Reader.bool)
  | "Int" => return .int (Int32.ofInt (← Reader.payload fun _ => Reader.integer (.signed 32)))
  | "Float" => return .float (← Reader.payload fun _ => Reader.float)
  | "Vector2" => vectorReader 2 fun | [x, y] => some (.vector2 x y) | _ => none
  | "Vector3" => vectorReader 3 fun | [x, y, z] => some (.vector3 x y z) | _ => none
  | "Vector4" => vectorReader 4 fun | [x, y, z, w] => some (.vector4 x y z w) | _ => none
  | _ => Reader.expected "a value"

end Value

/-! ## §2. Records of names, types and defaults -/

/-- What is known of a record of port-like fields while it is being read. -/
structure PortSlots where
  name : Option String := none
  type : Option PortType := none
  default : Option Value := none

namespace PortSlots

/-- The name of a port, a parameter or an attribute. -/
def nameField : Reader.Field PortSlots :=
  .slot "name" (·.name) (fun s a => { s with name := some a }) Reader.text

/-- Its type. -/
def typeField : Reader.Field PortSlots :=
  .slot "port_type" (·.type) (fun s a => { s with type := some a }) PortType.reader

/-- The default of a parameter. -/
def defaultField : Reader.Field PortSlots :=
  .slot "default" (·.default) (fun s a => { s with default := some a }) Value.reader

/-- Reads a record of a name and a type. -/
def nameAndType (recordType : String) (bare : Bool) : Reader (String × PortType) := do
  let s ← Reader.record recordType bare [nameField, typeField] {}
  pure (← Reader.required s.name "name", ← Reader.required s.type "port_type")

end PortSlots

namespace PortSpec

/-- The form of a port specification. -/
def form (spec : PortSpec) : Form :=
  .record "" [("name", .text spec.name), ("port_type", spec.type.form)]

/-- Reads a port specification. -/
def reader : Reader PortSpec := do
  let (name, type) ← PortSlots.nameAndType "PortSpec" false
  pure { name, type }

end PortSpec

/-! ## §3. Operations, targets and blocks -/

namespace MathOp

/-- All operations. -/
def all : List MathOp :=
  [.add, .subtract, .multiply, .divide, .min, .max, .pow, .dot, .step, .abs, .negate, .sin,
   .cos, .sqrt, .fract, .floor, .normalize, .length, .mix, .clamp, .smoothstep]

/-- The name of an operation in a document. -/
def documentName : MathOp → String
  | .add => "Add"
  | .subtract => "Subtract"
  | .multiply => "Multiply"
  | .divide => "Divide"
  | .min => "Min"
  | .max => "Max"
  | .pow => "Pow"
  | .dot => "Dot"
  | .step => "Step"
  | .abs => "Abs"
  | .negate => "Negate"
  | .sin => "Sin"
  | .cos => "Cos"
  | .sqrt => "Sqrt"
  | .fract => "Fract"
  | .floor => "Floor"
  | .normalize => "Normalize"
  | .length => "Length"
  | .mix => "Mix"
  | .clamp => "Clamp"
  | .smoothstep => "Smoothstep"

/-- The operation of the given name. -/
def named? (name : String) : Option MathOp := all.find? (·.documentName == name)

/-- Reads an operation. -/
def reader : Reader MathOp := Reader.word named? "an operation"

end MathOp

namespace Target

/-- The name of a target in a document. -/
def documentName : Target → String
  | .material => "Material"
  | .particles => "Particles"
  | .points => "Points"

/-- The target of the given name. -/
def named? (name : String) : Option Target :=
  [.material, .particles, .points].find? (·.documentName == name)

/-- Reads a target. -/
def reader : Reader Target := Reader.word named? "a target"

end Target

namespace Block

/-- The form of a block. -/
def form : Block → Form
  | .always => .word "Always"
  | .conditional condition => .record "Conditional" [("condition", .text condition)]

/-- Reads a block. -/
def reader : Reader Block := Reader.variant fun
  | "Always" => pure .always
  | "Conditional" => do
    Reader.skipBlank
    let rounds := (← Reader.rest).length + 1
    let slot : Reader.Field (Option String) :=
      .slot "condition" id (fun _ a => some a) Reader.text
    let condition ← Reader.enclosed false (Reader.fields [slot] rounds true none)
    return .conditional (← Reader.required condition "condition")
  | _ => Reader.expected "a block"

end Block

/-! ## §4. Wires -/

namespace Wire

/-- The form of a wire. -/
def form (w : Wire) : Form :=
  .record "" [("from", .text w.source), ("to", .text w.target)]

/-- Reads a wire. -/
def reader : Reader Wire := do
  let known : List (Reader.Field (Option String × Option String)) :=
    [.slot "from" (·.1) (fun s a => (some a, s.2)) Reader.text,
     .slot "to" (·.2) (fun s a => (s.1, some a)) Reader.text]
  let s ← Reader.record "ConnectionDocument" false known (none, none)
  pure { source := ← Reader.required s.1 "from", target := ← Reader.required s.2 "to" }

end Wire

/-! ## §5. Writing kinds and graphs -/

/-- The form of a record of a name and a type. -/
def nameAndTypeForm (name : String) (type : PortType) : Form :=
  .record "" [("name", .text name), ("port_type", type.form)]

/-- The form of a list of port specifications. -/
def portSpecsForm (specs : List PortSpec) : Form := .list (specs.map PortSpec.form)

/-- The form of a document, from those of its nodes. -/
def documentForm (name : String) (nodes : List Form) (wires : List Wire) : Form :=
  .record ""
    [("name", .text name), ("nodes", .list nodes), ("connections", .list (wires.map Wire.form))]

mutual

/-- The form of a kind. -/
def Kind.form : Kind → Form
  | .constant value => .variant "Constant" value.form
  | .param name type value =>
    .variant "Param"
      (.record "" [("name", .text name), ("port_type", type.form), ("default", value.form)])
  | .math op type =>
    .variant "Math" (.record "" [("op", .word op.documentName), ("port_type", type.form)])
  | .globals => .word "Globals"
  | .attribute name type => .variant "Attribute" (nameAndTypeForm name type)
  | .varyingWrite name type => .variant "VaryingWrite" (nameAndTypeForm name type)
  | .varyingRead name type => .variant "VaryingRead" (nameAndTypeForm name type)
  | .function name inputs result =>
    .variant "Function"
      (.record ""
        [("function", .text name), ("inputs", portSpecsForm inputs), ("output", result.form)])
  | .output target => .variant "Output" (.word target.documentName)
  | .subnet { inputs, outputs, block, network } =>
    .variant "Subnet"
      (.record ""
        [("inputs", portSpecsForm inputs), ("outputs", portSpecsForm outputs),
         ("block", block.form), ("network", network.form)])
  | .subnetInput ports => .variant "SubnetInput" (portSpecsForm ports)
  | .subnetOutput ports => .variant "SubnetOutput" (portSpecsForm ports)

/-- The form of a graph: that of its document. -/
def Graph.form : Graph → Form
  | { name, nodes, connections, version, error } =>
    let g : Graph := { name, nodes, connections, version, error }
    documentForm name (Node.forms nodes) g.toDocument.wires

/-- The forms of nodes. -/
def Node.forms : List Node → List Form
  | [] => []
  | { name, kind, .. } :: ns =>
    .record "" [("name", .text name), ("kind", kind.form)] :: Node.forms ns

end

namespace Document

/-- The form of a document. -/
def form (d : Document) : Form :=
  documentForm d.name
    (d.nodes.map fun (name, kind) => .record "" [("name", .text name), ("kind", kind.form)])
    d.wires

/-- The text of a document. -/
def text (d : Document) : String := d.form.pretty

/-- Why a document was not written. -/
inductive WriteError where
  /-- The writer of the format did not take it, and says why. -/
  | refused (reason : String)
deriving Repr, DecidableEq

/-- The text of an error in writing. -/
def WriteError.message : WriteError → String
  | .refused reason => "Failed to write graph document: " ++ reason

/-- Writes a document.  A writer of the format may refuse forms, such as those that nest too
    deeply for it, so which ones it refuses is a parameter. -/
def write (refusal? : Form → Option String) (d : Document) : Except WriteError String :=
  match refusal? d.form with
  | some reason => .error (.refused reason)
  | none => .ok d.text

/-- Whatever a writer refuses, what it writes is the text of the document. -/
theorem eq_text_of_write {refusal? : Form → Option String} {d : Document} {written : String}
    (h : d.write refusal? = .ok written) : written = d.text := by
  rw [write] at h
  split at h
  · cases h
  · exact (Except.ok.inj h).symm

end Document

/-! ## §6. Reading kinds and graphs -/

/-- What is known of an operation while it is being read. -/
structure MathSlots where
  op : Option MathOp := none
  type : Option PortType := none

/-- What is known of a call while it is being read. -/
structure CallSlots where
  name : Option String := none
  inputs : Option (List PortSpec) := none
  result : Option PortType := none

/-- What is known of a subnet while it is being read. -/
structure SubnetSlots where
  inputs : Option (List PortSpec) := none
  outputs : Option (List PortSpec) := none
  block : Option Block := none
  network : Option Graph := none

/-- What is known of a node while it is being read. -/
structure NodeSlots where
  name : Option String := none
  kind : Option Kind := none

/-- What is known of a document while it is being read. -/
structure DocumentSlots where
  name : Option String := none
  nodes : Option (List (String × Kind)) := none
  wires : Option (List Wire) := none

/-- Reads a list of port specifications. -/
def portSpecsReader : Reader (List PortSpec) := Reader.list PortSpec.reader

/-- Reads a parameter. -/
def paramReader (bare : Bool) : Reader Kind := do
  let known := [PortSlots.nameField, PortSlots.typeField, PortSlots.defaultField]
  let s ← Reader.record "ParamNode" bare known {}
  pure (.param (← Reader.required s.name "name") (← Reader.required s.type "port_type")
    (← Reader.required s.default "default"))

/-- Reads an operation on operands of one type. -/
def mathReader (bare : Bool) : Reader Kind := do
  let known : List (Reader.Field MathSlots) :=
    [.slot "op" (·.op) (fun s a => { s with op := some a }) MathOp.reader,
     .slot "port_type" (·.type) (fun s a => { s with type := some a }) PortType.reader]
  let s ← Reader.record "MathNode" bare known {}
  pure (.math (← Reader.required s.op "op") (← Reader.required s.type "port_type"))

/-- Reads a call. -/
def callReader (bare : Bool) : Reader Kind := do
  let known : List (Reader.Field CallSlots) :=
    [.slot "function" (·.name) (fun s a => { s with name := some a }) Reader.text,
     .slot "inputs" (·.inputs) (fun s a => { s with inputs := some a }) portSpecsReader,
     .slot "output" (·.result) (fun s a => { s with result := some a }) PortType.reader]
  let s ← Reader.record "FunctionCall" bare known {}
  pure (.function (← Reader.required s.name "function") (← Reader.required s.inputs "inputs")
    (← Reader.required s.result "output"))

/-- Reads a subnet, given how to read its network. -/
def subnetReader (network : Reader Graph) (bare : Bool) : Reader Kind := do
  let known : List (Reader.Field SubnetSlots) :=
    [.slot "inputs" (·.inputs) (fun s a => { s with inputs := some a }) portSpecsReader,
     .slot "outputs" (·.outputs) (fun s a => { s with outputs := some a }) portSpecsReader,
     .slot "block" (·.block) (fun s a => { s with block := some a }) Block.reader,
     .slot "network" (·.network) (fun s a => { s with network := some a }) network]
  let s ← Reader.record "SubnetNetwork" bare known {}
  pure (.subnet {
    inputs := ← Reader.required s.inputs "inputs"
    outputs := ← Reader.required s.outputs "outputs"
    block := s.block.getD .always
    network := ← Reader.required s.network "network" })

/-- Reads a kind, given how to read the network of a subnet. -/
def kindReader (network : Reader Graph) : Reader Kind := Reader.variant fun
  | "Constant" => return .constant (← Reader.payload fun _ => Value.reader)
  | "Param" => Reader.payload paramReader
  | "Math" => Reader.payload mathReader
  | "Globals" => pure .globals
  | "Attribute" => do
    let (name, type) ← Reader.payload (PortSlots.nameAndType "AttributeNode")
    pure (.attribute name type)
  | "VaryingWrite" => do
    let (name, type) ← Reader.payload (PortSlots.nameAndType "VaryingNode")
    pure (.varyingWrite name type)
  | "VaryingRead" => do
    let (name, type) ← Reader.payload (PortSlots.nameAndType "VaryingNode")
    pure (.varyingRead name type)
  | "Function" => Reader.payload callReader
  | "Output" => return .output (← Reader.payload fun _ => Target.reader)
  | "Subnet" => Reader.payload (subnetReader network)
  | "SubnetInput" => return .subnetInput (← Reader.payload fun _ => portSpecsReader)
  | "SubnetOutput" => return .subnetOutput (← Reader.payload fun _ => portSpecsReader)
  | _ => Reader.expected "a kind of node"

/-- Reads a node, given how to read the network of a subnet. -/
def nodeReader (network : Reader Graph) : Reader (String × Kind) := do
  let known : List (Reader.Field NodeSlots) :=
    [.slot "name" (·.name) (fun s a => { s with name := some a }) Reader.text,
     .slot "kind" (·.kind) (fun s a => { s with kind := some a }) (kindReader network)]
  let s ← Reader.record "NodeDocument" false known {}
  pure (← Reader.required s.name "name", ← Reader.required s.kind "kind")

/-- Reads a document, given how to read the network of a subnet. -/
def documentReader (network : Reader Graph) : Reader Document := do
  let known : List (Reader.Field DocumentSlots) :=
    [.slot "name" (·.name) (fun s a => { s with name := some a }) Reader.text,
     .slot "nodes" (·.nodes) (fun s a => { s with nodes := some a })
      (Reader.list (nodeReader network)),
     .slot "connections" (·.wires) (fun s a => { s with wires := some a })
      (Reader.list Wire.reader)]
  let s ← Reader.record "GraphDocument" false known {}
  pure {
    name := ← Reader.required s.name "name"
    nodes := s.nodes.getD []
    wires := s.wires.getD [] }

namespace Document

/-- Loads a document that stands inside a text, which is refused when the document is. -/
def loadInside (d : Document) : Reader Graph := fun _ c =>
  match d.load c.supply with
  | .ok (g, supply) => .ok (g, { c with supply })
  | .error e => .error (.refused e.message)

/-- Reads the network of a subnet that holds at most the given number of further levels. -/
def networkReader : (levels : Nat) → Reader Graph
  | 0 => fun _ _ => .error .tooDeep
  | levels + 1 => do (← documentReader (networkReader levels)).loadInside

/-- The document that a text holds. -/
def ofText (text : String) (supply : Supply) : Except DocumentError (Document × Supply) :=
  (Reader.readAll (documentReader (networkReader Reader.nestingLimit)) text supply).mapError
    .unreadable

end Document

/-- The graph that a text holds. -/
def Graph.ofText (text : String) (supply : Supply) : Except DocumentError (Graph × Supply) := do
  let (d, supply) ← Document.ofText text supply
  d.load supply

end ShaderFlow
