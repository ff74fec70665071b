/-
  ShaderFlow.Graph.Basic — graphs of shader nodes.

  A graph is a list of named nodes and a list of connections from outputs to inputs, both in
  the order in which they were added.  A node of kind `subnet` holds a graph of its own
  behind a boundary of declared ports, so graphs nest.  The ports of a node are computed
  from its kind, so a node cannot carry ports of another kind.

  Main definitions:
    * `Kind`, `Subnet`, `Node`, `Graph` — the nested types;
    * `Kind.inputs`, `Kind.outputs` — the ports of a kind;
    * `Graph.node?`, `Graph.inputSource?`, … — looking things up in one network.
-/

import ShaderFlow.Graph.MathOp

namespace ShaderFlow

/-! ## §1. Identities -/

/-- The identity of a node, a 128-bit number where a host chose it.  Names are for people and
    documents; identities last through renaming and are shared by copies of a subnet. -/
structure NodeId where
  value : Nat
deriving Repr, DecidableEq

/-- The identity of a connection. -/
structure ConnectionId where
  value : Nat
deriving Repr, DecidableEq

namespace NodeId

/-- A number in hexadecimal, padded with zeros to the given width. -/
def hex (width n : Nat) : String :=
  let ds := Nat.toDigits 16 n
  String.ofList (List.replicate (width - ds.length) '0' ++ ds)

/-- The five groups of a 128-bit identity in hexadecimal. -/
def text (id : NodeId) : String :=
  let group (shift width : Nat) := hex width (id.value / Nat.pow 2 shift % Nat.pow 2 (4 * width))
  String.intercalate "-" [group 96 8, group 80 4, group 64 4, group 48 4, group 0 12]

end NodeId

/-! ## §2. The nested types -/

/-- The backend that an output node feeds. -/
inductive Target where
  | material
  | particles
  | points
deriving Repr, DecidableEq

/-- The block around the body of a subnet. -/
inductive Block where
  /-- A block that always runs and only encloses names. -/
  | always
  /-- A block that runs when the named input of the subnet holds. -/
  | conditional (condition : String)
deriving Repr, DecidableEq

/-- A connection from an output to an input of the same network. -/
structure Connection where
  id : ConnectionId
  source : NodeId
  output : String
  target : NodeId
  input : String
deriving Repr, DecidableEq

mutual

/-- What a node computes. -/
inductive Kind where
  /-- A literal value. -/
  | constant (value : Value)
  /-- A value that the host sets through a uniform; parameters of one name share it. -/
  | param (name : String) (type : PortType) (default : Value)
  /-- A built-in operation on operands of one type. -/
  | math (op : MathOp) (type : PortType)
  /-- Values that the host provides: time, resolution, screen position, geometry. -/
  | globals
  /-- A named value that lives outside the program, read and optionally written back. -/
  | attribute (name : String) (type : PortType)
  /-- Writes an interpolated value. -/
  | varyingWrite (name : String) (type : PortType)
  /-- Reads an interpolated value. -/
  | varyingRead (name : String) (type : PortType)
  /-- Calls a function of the library. -/
  | function (name : String) (inputs : List PortSpec) (output : PortType)
  /-- The results of a program. -/
  | output (target : Target)
  /-- A nested network in a scope of its own. -/
  | subnet (subnet : Subnet)
  /-- Inside a subnet: offers the subnet's inputs. -/
  | subnetInput (ports : List PortSpec)
  /-- Inside a subnet: collects the subnet's outputs. -/
  | subnetOutput (ports : List PortSpec)

/-- A nested network behind a boundary of declared ports. -/
structure Subnet where
  inputs : List PortSpec
  outputs : List PortSpec
  block : Block
  network : Graph

/-- A node of a graph. -/
structure Node where
  id : NodeId
  name : String
  kind : Kind
  /-- Whether the node changed since the changes were last taken. -/
  dirty : Bool
  /-- What the last compilation found wrong with the node. -/
  error : Option String

/-- A graph of nodes. -/
structure Graph where
  name : String
  nodes : List Node
  connections : List Connection
  /-- Grows with every change of structure. -/
  version : Nat
  /-- What the last compilation found wrong with the graph as a whole. -/
  error : Option String

end

/-! ## §3. Ports of a kind -/

namespace Target

/-- The name of a target. -/
def name : Target → String
  | .material => "material"
  | .particles => "particles"
  | .points => "points"

/-- The inputs of an output node. -/
def inputs : Target → List Port
  | .material =>
    [.input "position" .vector3,
     .input "normal" .vector3,
     { Port.input "color" .vector3 with default := some (.vector3 .one .one .one) },
     { Port.input "alpha" .float with default := some (.float .one) }]
  | .particles => [.input "position" .vector3, .input "velocity" .vector3]
  | .points => [.input "position" .vector3, .input "normal" .vector3, .input "color" .vector3]

end Target

namespace Kind

/-- What the host provides, with the type of each. -/
def globalOutputs : List Port :=
  [.output "time" .float,
   .output "resolution" .vector2,
   .output "frag_coord" .vector4,
   .output "position" .vector3,
   .output "uv" .vector2]

/-- The input that writes an attribute back. -/
def exportInput : String := "export"

/-- The inputs of a kind.  The arguments of a function have no default: each has to be fed. -/
def inputs : Kind → List Port
  | .math op type => op.inputs type
  | .attribute _ type => [.input exportInput type]
  | .varyingWrite _ type => [.input "value" type]
  | .function _ specs _ => specs.map fun spec => { spec.toInput with required := true }
  | .output target => target.inputs
  | .subnet s => s.inputs.map PortSpec.toInput
  | .subnetOutput ports => ports.map PortSpec.toInput
  | .constant _ | .param .. | .globals | .varyingRead .. | .subnetInput _ => []

/-- The outputs of a kind. -/
def outputs : Kind → List Port
  | .constant value => [.output "value" value.portType]
  | .param _ type _ => [.output "value" type]
  | .math op type => [.output "result" (op.resultType type)]
  | .globals => globalOutputs
  | .attribute _ type => [.output "value" type]
  | .varyingRead _ type => [.output "value" type]
  | .function _ _ type => [.output "result" type]
  | .subnet s => s.outputs.map PortSpec.toOutput
  | .subnetInput ports => ports.map PortSpec.toOutput
  | .varyingWrite .. | .output _ | .subnetOutput _ => []

/-- A short tag for the kind of a node. -/
def tag : Kind → String
  | .constant _ => "constant"
  | .param .. => "param"
  | .math .. => "math"
  | .globals => "globals"
  | .attribute .. => "attribute"
  | .varyingWrite .. => "varying_write"
  | .varyingRead .. => "varying_read"
  | .function .. => "function"
  | .output _ => "output"
  | .subnet _ => "subnet"
  | .subnetInput _ => "subnet_input"
  | .subnetOutput _ => "subnet_output"

/-- The network of a subnet. -/
def network? : Kind → Option Graph
  | .subnet s => some s.network
  | _ => none

/-- Whether a node offers the inputs of a subnet. -/
def isSubnetInput : Kind → Bool
  | .subnetInput _ => true
  | _ => false

/-- Whether a node collects the outputs of a subnet. -/
def isSubnetOutput : Kind → Bool
  | .subnetOutput _ => true
  | _ => false

/-- Whether a node reads or writes an attribute. -/
def isAttribute : Kind → Bool
  | .attribute .. => true
  | _ => false

/-- Whether a node writes an interpolated value. -/
def isVaryingWrite : Kind → Bool
  | .varyingWrite .. => true
  | _ => false

/-- A parameter with the type of its default. -/
def paramOf (name : String) (default : Value) : Kind := .param name default.portType default

end Kind

/-! ## §4. Nodes -/

namespace Node

/-- A node that no compilation has seen yet. -/
def make (id : NodeId) (name : String) (kind : Kind) : Node :=
  { id, name, kind, dirty := true, error := none }

/-- The inputs of a node. -/
def inputs (n : Node) : List Port := n.kind.inputs

/-- The outputs of a node. -/
def outputs (n : Node) : List Port := n.kind.outputs

/-- The input of the given name. -/
def input? (n : Node) (name : String) : Option Port := n.inputs.find? (·.name == name)

/-- The output of the given name. -/
def output? (n : Node) (name : String) : Option Port := n.outputs.find? (·.name == name)

/-- The names of the inputs, in declaration order. -/
def inputNames (n : Node) : List String := n.inputs.map (·.name)

end Node

/-! ## §5. Looking things up -/

namespace Graph

/-- A graph without nodes. -/
def empty (name : String) : Graph :=
  { name, nodes := [], connections := [], version := 0, error := none }

/-- The node with the given identity. -/
def node? (g : Graph) (id : NodeId) : Option Node := g.nodes.find? (·.id == id)

/-- The node with the given name. -/
def nodeNamed? (g : Graph) (name : String) : Option Node := g.nodes.find? (·.name == name)

/-- The connection with the given identity. -/
def connection? (g : Graph) (id : ConnectionId) : Option Connection :=
  g.connections.find? (·.id == id)

/-- The connection that feeds an input. -/
def inputSource? (g : Graph) (id : NodeId) (input : String) : Option Connection :=
  g.connections.find? fun c => c.target == id && c.input == input

/-- The connections that leave a node. -/
def connectionsFrom (g : Graph) (id : NodeId) : List Connection :=
  g.connections.filter (·.source == id)

/-- Whether an output feeds anything. -/
def isOutputConnected (g : Graph) (id : NodeId) (output : String) : Bool :=
  g.connections.any fun c => c.source == id && c.output == output

/-- The outputs of a node that feed something, in port order. -/
def connectedOutputs (g : Graph) (id : NodeId) : List String :=
  match g.node? id with
  | none => []
  | some n => (n.outputs.map (·.name)).filter (g.isOutputConnected id)

/-- A connection as its two endpoints, the nodes by name where the graph has them. -/
structure Endpoints where
  source : Option String
  output : String
  target : Option String
  input : String
deriving Repr, DecidableEq

/-- The endpoints of a connection. -/
def endpointsOf (g : Graph) (c : Connection) : Endpoints where
  source := (g.node? c.source).map (·.name)
  output := c.output
  target := (g.node? c.target).map (·.name)
  input := c.input

/-- The connections of a graph as endpoints, in order. -/
def endpoints (g : Graph) : List Endpoints := g.connections.map g.endpointsOf

end Graph

namespace Connection

/-- Whether a connection begins or ends at a node. -/
def involves (c : Connection) (id : NodeId) : Bool := c.source == id || c.target == id

end Connection

namespace Subnet

/-- The node that collects the outputs. -/
def outputNode? (s : Subnet) : Option Node := s.network.nodes.find? (·.kind.isSubnetOutput)

/-- The node that offers the inputs. -/
def inputNode? (s : Subnet) : Option Node := s.network.nodes.find? (·.kind.isSubnetInput)

end Subnet

end ShaderFlow
