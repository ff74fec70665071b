/-
  ShaderFlow.Document.Json — graph documents as JSON.

  JSON is the form in which hosts pass documents around and in which manifests show types
  and values.  As in the text form, the network of a subnet is loaded as soon as it has been
  decoded.

  Main definitions:
    * `PortType.json`, `Value.json` — types and values as JSON;
    * `Kind.decode` — the kind of a node;
    * `Document.decode` — a document.
-/

import ShaderFlow.Document.Text
import ShaderFlow.Json.Decode
import ShaderFlow.Json.Reader

namespace ShaderFlow

/-! ## §1. Types and values -/

namespace PortType

/-- A port type as JSON. -/
def json (type : PortType) : Json :=
  match type with
  | .array element length =>
    .object [("Array", .array [.string element.documentName, .nat length.toNat])]
  | _ => .string type.documentName

/-- Decodes a port type. -/
def decode (j : Json) : Decoding PortType := do
  match ← Decode.variant j with
  | ("Array", some (.array [element, length])) =>
    let element ← Decode.word ElementType.named? element
    return .array element (UInt16.ofNat (← Decode.natural 65535 length))
  | _ => Decode.word named? j

end PortType

namespace PortSpec

/-- Decodes a port specification. -/
def decode (j : Json) : Decoding PortSpec := do
  let fs ← Decode.fields ["name", "port_type"] j
  return { name := ← fs.get "name" Decode.text, type := ← fs.get "port_type" PortType.decode }

end PortSpec

namespace Value

/-- A value as JSON: its type and its components. -/
def json (value : Value) : Json :=
  let content : Json :=
    match value with
    | .bool b => .bool b
    | .int n => .int n.toInt
    | .float x => .float x
    | .vector2 x y => .array [.float x, .float y]
    | .vector3 x y z => .array [.float x, .float y, .float z]
    | .vector4 x y z w => .array [.float x, .float y, .float z, .float w]
  .object [(value.portType.documentName, content)]

/-- Decodes a value. -/
def decode (j : Json) : Decoding Value := do
  let (type, content) ← Decode.variant j
  match type with
  | "Bool" => return .bool (← Decode.content Decode.flag content)
  | "Int" =>
    let integer := Decode.integer Binary32.minInt32 Binary32.maxInt32
    return .int (Int32.ofInt (← Decode.content integer content))
  | "Float" => return .float (← Decode.content Decode.float content)
  | _ =>
    match type, ← Decode.content (Decode.list Decode.float) content with
    | "Vector2", [x, y] => return .vector2 x y
    | "Vector3", [x, y, z] => return .vector3 x y z
    | "Vector4", [x, y, z, w] => return .vector4 x y z w
    | _, _ => Decode.expected "a value"

end Value

/-! ## §2. Blocks and wires -/

/-- Decodes a block. -/
def Block.decode (j : Json) : Decoding Block := do
  match ← Decode.variant j with
  | ("Conditional", some (.object members)) =>
    return .conditional (← Decode.Fields.get members "condition" Decode.text)
  | _ => Decode.word (fun name => if name == "Always" then some .always else none) j

/-- Decodes a wire. -/
def Wire.decode (j : Json) : Decoding Wire := do
  let fs ← Decode.fields ["from", "to"] j
  return { source := ← fs.get "from" Decode.text, target := ← fs.get "to" Decode.text }

/-! ## §3. Kinds and documents -/

namespace Kind

/-- Decodes a name with a type. -/
def decodeNamed (make : String → PortType → Kind) (j : Json) : Decoding Kind := do
  let spec ← PortSpec.decode j
  pure (make spec.name spec.type)

/-- Decodes a parameter. -/
def decodeParam (j : Json) : Decoding Kind := do
  let fs ← Decode.fields ["name", "port_type", "default"] j
  return .param (← fs.get "name" Decode.text) (← fs.get "port_type" PortType.decode)
    (← fs.get "default" Value.decode)

/-- Decodes an operation. -/
def decodeMath (j : Json) : Decoding Kind := do
  let fs ← Decode.fields ["op", "port_type"] j
  return .math (← fs.get "op" (Decode.word MathOp.named?)) (← fs.get "port_type" PortType.decode)

/-- Decodes a call. -/
def decodeCall (j : Json) : Decoding Kind := do
  let fs ← Decode.fields ["function", "inputs", "output"] j
  return .function (← fs.get "function" Decode.text)
    (← fs.get "inputs" (Decode.list PortSpec.decode)) (← fs.get "output" PortType.decode)

/-- Decodes one field of a subnet, given how to decode its network. -/
def decodeSubnetField (network : Json → Decoding Graph) (s : SubnetSlots) (field : String)
    (j : Json) : Decoding SubnetSlots := do
  let specs := Decode.list PortSpec.decode
  match field with
  | "inputs" => return { s with inputs := some (← specs j) }
  | "outputs" => return { s with outputs := some (← specs j) }
  | "block" => return { s with block := some (← Block.decode j) }
  | _ => return { s with network := some (← network j) }

/-- Decodes a subnet, given how to decode its network. -/
def decodeSubnet (network : Json → Decoding Graph) (j : Json) : Decoding Kind := do
  let s ← Decode.record ["inputs", "outputs", "block", "network"] (decodeSubnetField network) {} j
  return .subnet {
    inputs := ← Decode.found "inputs" s.inputs
    outputs := ← Decode.found "outputs" s.outputs
    block := s.block.getD .always
    network := ← Decode.found "network" s.network }

/-- Decodes a kind, given how to decode the network of a subnet. -/
def decodeWith (network : Json → Decoding Graph) (j : Json) : Decoding Kind := do
  let (name, content) ← Decode.variant j
  match name with
  | "Constant" => return .constant (← Decode.content Value.decode content)
  | "Param" => Decode.content decodeParam content
  | "Math" => Decode.content decodeMath content
  | "Attribute" => Decode.content (decodeNamed .attribute) content
  | "VaryingWrite" => Decode.content (decodeNamed .varyingWrite) content
  | "VaryingRead" => Decode.content (decodeNamed .varyingRead) content
  | "Function" => Decode.content decodeCall content
  | "Output" => return .output (← Decode.content (Decode.word Target.named?) content)
  | "Subnet" => Decode.content (decodeSubnet network) content
  | "SubnetInput" => return .subnetInput (← Decode.content (Decode.list PortSpec.decode) content)
  | "SubnetOutput" => return .subnetOutput (← Decode.content (Decode.list PortSpec.decode) content)
  | _ => Decode.word (fun name => if name == "Globals" then some .globals else none) j

end Kind

namespace Document

/-- Decodes one field of a node, given how to decode the network of a subnet. -/
def decodeNodeField (network : Json → Decoding Graph) (s : NodeSlots) (field : String) (j : Json) :
    Decoding NodeSlots := do
  if field == "name" then return { s with name := some (← Decode.text j) }
  else return { s with kind := some (← Kind.decodeWith network j) }

/-- Decodes a node, given how to decode the network of a subnet. -/
def decodeNode (network : Json → Decoding Graph) (j : Json) : Decoding (String × Kind) := do
  let s ← Decode.record ["name", "kind"] (decodeNodeField network) {} j
  return (← Decode.found "name" s.name, ← Decode.found "kind" s.kind)

/-- Decodes one field of a document, given how to decode the network of a subnet. -/
def decodeField (network : Json → Decoding Graph) (s : DocumentSlots) (field : String) (j : Json) :
    Decoding DocumentSlots := do
  match field with
  | "name" => return { s with name := some (← Decode.text j) }
  | "nodes" => return { s with nodes := some (← Decode.list (decodeNode network) j) }
  | _ => return { s with wires := some (← Decode.list Wire.decode j) }

/-- Decodes a document, given how to decode the network of a subnet. -/
def decodeWith (network : Json → Decoding Graph) (j : Json) : Decoding Document := do
  let s ← Decode.record ["name", "nodes", "connections"] (decodeField network) {} j
  return {
    name := ← Decode.found "name" s.name
    nodes := s.nodes.getD []
    wires := s.wires.getD [] }

/-- Loads a document that stands inside another one, which is refused when the document is. -/
def loadDecoded (d : Document) : Decoding Graph := fun supply =>
  (d.load supply).mapError fun e => .refused e.message

/-- Decodes the network of a subnet that holds at most the given number of further levels. -/
def decodeNetwork : (levels : Nat) → Json → Decoding Graph
  | 0, _ => throw .tooDeep
  | levels + 1, j => do (← decodeWith (decodeNetwork levels) j).loadDecoded

/-- Decodes a document. -/
def decode : Json → Decoding Document := decodeWith (decodeNetwork Json.nestingLimit)

end Document

/-- Decodes a kind. -/
def Kind.decode : Json → Decoding Kind := Kind.decodeWith (Document.decodeNetwork Json.nestingLimit)

end ShaderFlow
