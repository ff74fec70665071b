/-
  ShaderFlow.Graph.Edit — changing a graph.

  Edits keep names unique and fit for code, wire only ports whose types agree, feed an input
  at most once and never close a cycle.  An edit that is refused says why and leaves the
  graph as it was.

  Main definitions:
    * `Graph.add`, `Graph.addNode`, `Graph.remove`, `Graph.editKind` — nodes;
    * `Graph.connect`, `Graph.connectNames`, `Graph.disconnect` — connections;
    * `Graph.editSubnet` — reaching into a nested network;
    * `EditError` — why an edit was refused.
-/

import ShaderFlow.Graph.Basic

namespace ShaderFlow

/-! ## §1. Refusals -/

/-- Why an edit was refused. -/
inductive EditError where
  | nodeNotFound (id : NodeId)
  | nameNotFound (name : String)
  | portNotFound (node port : String)
  | incompatible (source target : PortType)
  | alreadyConnected (node input : String)
  | selfLoop
  | cycle
  | duplicateNode (id : NodeId)
deriving Repr, DecidableEq

namespace EditError

/-- An identity as it is shown to people. -/
def idText (id : NodeId) : String := "NodeId(" ++ id.text ++ ")"

/-- The text of a refusal. -/
def message : EditError → String
  | .nodeNotFound id => "Node not found: " ++ idText id
  | .nameNotFound name => "Node not found: " ++ name
  | .portNotFound node port => "Port not found: " ++ node ++ "." ++ port
  | .incompatible source target =>
    "Incompatible port types: " ++ source.glslName ++ " -> " ++ target.glslName
  | .alreadyConnected node input => "Port already connected: " ++ node ++ "." ++ input
  | .selfLoop => "Self-loop not allowed"
  | .cycle => "Connection would create a cycle"
  | .duplicateNode id => "Node already present: " ++ idText id

end EditError

/-! ## §2. Names -/

/-- Whether a character may stand in the name of a node: an ASCII letter, an ASCII digit or
    an underscore. -/
def isNameChar (c : Char) : Bool := c.isAlphanum || c == '_'

/-- A requested name made fit for code: other characters become underscores, and an empty
    name becomes `node`. -/
def cleanName (requested : String) : String :=
  if requested.isEmpty then "node"
  else String.ofList (requested.toList.map fun c => if isNameChar c then c else '_')

/-- A name without the digits at its end, unless it is nothing else. -/
def nameStem (name : String) : String :=
  let stem := (name.toList.reverse.dropWhile Char.isDigit).reverse
  if stem.isEmpty then name else String.ofList stem

namespace Graph

/-- Whether a node has the given name. -/
def hasName (g : Graph) (name : String) : Bool := g.nodes.any (·.name == name)

/-- The name that a new node gets: the cleaned name if it is free, else its stem with the
    first number that makes it so.  Among one more number than there are nodes one is free. -/
def freeName (g : Graph) (requested : String) : String :=
  let base := cleanName requested
  if g.hasName base then
    let stem := nameStem base
    let numbered := (List.range (g.nodes.length + 1)).map fun n => stem ++ toString (n + 1)
    (numbered.find? (!g.hasName ·)).getD base
  else base

/-! ## §3. Nodes -/

/-- Adds a node at the end under a free name. -/
def insertNode (g : Graph) (n : Node) : Graph :=
  { g with nodes := g.nodes ++ [{ n with name := g.freeName n.name }], version := g.version + 1 }

/-- Adds a new node, whose identity the caller takes from a supply of unused ones. -/
def add (g : Graph) (id : NodeId) (name : String) (kind : Kind) : Graph :=
  g.insertNode (Node.make id name kind)

/-- Adds a node made elsewhere, unless its identity is in use. -/
def addNode (g : Graph) (n : Node) : Except EditError Graph :=
  if g.nodes.any (·.id == n.id) then .error (.duplicateNode n.id) else .ok (g.insertNode n)

/-- Removes a node and every connection that begins or ends at it.  Connections go also when
    there is no such node; only the removal of a node counts as a change. -/
def remove (g : Graph) (id : NodeId) : Option Node × Graph :=
  let connections := g.connections.filter (!·.involves id)
  match g.node? id with
  | none => (none, { g with connections })
  | some n =>
    (some n, { g with
      nodes := g.nodes.filter (·.id != id), connections, version := g.version + 1 })

/-- Whether both ports of a connection exist. -/
def hasPorts (g : Graph) (c : Connection) : Bool :=
  ((g.node? c.source).any fun n => (n.output? c.output).isSome) &&
    (g.node? c.target).any fun n => (n.input? c.input).isSome

/-- Replaces one node of a list. -/
def replaceNode (nodes : List Node) (id : NodeId) (f : Node → Node) : List Node :=
  nodes.map fun n => if n.id == id then f n else n

/-- Changes the kind of a node.  When the ports change, too, connections to ports that are
    gone are dropped, and the change counts as one of structure. -/
def editKind (g : Graph) (id : NodeId) (edit : Kind → Kind) : Except EditError Graph :=
  match g.node? id with
  | none => .error (.nodeNotFound id)
  | some n =>
    let kind := edit n.kind
    let nodes := replaceNode g.nodes id fun n => { n with kind, dirty := true }
    if kind.inputs == n.inputs && kind.outputs == n.outputs then .ok { g with nodes }
    else
      let changed := { g with nodes, version := g.version + 1 }
      .ok { changed with connections := changed.connections.filter changed.hasPorts }

/-- Reaches into the network of a subnet, which counts as a change of structure. -/
def editSubnet {α : Type} (g : Graph) (id : NodeId) (edit : Graph → α × Graph) :
    Option (α × Graph) :=
  match g.node? id with
  | some { kind := .subnet s, .. } =>
    let (result, network) := edit s.network
    let kind := Kind.subnet { s with network }
    let nodes := replaceNode g.nodes id fun n => { n with kind }
    some (result, { g with nodes, version := g.version + 1 })
  | _ => none

/-! ## §4. Connections -/

/-- Searches the nodes on `stack` and all that feed them for `goal`, skipping the nodes in
    `seen`.  The sources of a node go onto the stack in the order of their connections.  Each
    round takes one node from it, so `rounds` need not exceed the number of nodes that are ever
    put there: the first one and one for each connection. -/
def searchSources (connections : List Connection) (goal : NodeId) :
    (rounds : Nat) → (stack seen : List NodeId) → Bool
  | _, [], _ => false
  | 0, _ :: _, _ => false
  | rounds + 1, id :: stack, seen =>
    if id == goal then true
    else if seen.contains id then searchSources connections goal rounds stack seen
    else
      let sources := (connections.filter (·.target == id)).map (·.source)
      searchSources connections goal rounds (sources.reverse ++ stack) (id :: seen)

/-- Whether a node reads from `ancestor`, directly or through other nodes, or is that node. -/
def dependsOn (g : Graph) (id ancestor : NodeId) : Bool :=
  searchSources g.connections ancestor (g.connections.length + 1) [id] []

/-- Whether a connection may be made: both nodes and ports exist, the types agree, the input
    is free, and no value would come to depend on itself. -/
def checkConnection (g : Graph) (source : NodeId) (output : String) (target : NodeId)
    (input : String) : Except EditError Unit :=
  match g.node? source, g.node? target with
  | none, _ => .error (.nodeNotFound source)
  | some _, none => .error (.nodeNotFound target)
  | some s, some t =>
    match s.output? output, t.input? input with
    | none, _ => .error (.portNotFound s.name output)
    | some _, none => .error (.portNotFound t.name input)
    | some o, some i =>
      if !o.canConnect i then .error (.incompatible o.type i.type)
      else if (g.inputSource? target input).isSome then .error (.alreadyConnected t.name input)
      else if source == target then .error .selfLoop
      else if g.dependsOn source target then .error .cycle
      else .ok ()

/-- Adds a connection of an identity that is not in use. -/
def appendConnection (g : Graph) (c : Connection) : Graph :=
  { g with connections := g.connections ++ [c], version := g.version + 1 }

/-- Adds a connection without any check.  It takes the place of the one that has its identity. -/
def insertConnection (g : Graph) (c : Connection) : Graph :=
  if g.connections.any (·.id == c.id) then
    { g with
      connections := g.connections.map fun other => if other.id == c.id then c else other
      version := g.version + 1 }
  else g.appendConnection c

@[simp] theorem version_insertConnection (g : Graph) (c : Connection) :
    (g.insertConnection c).version = g.version + 1 := by
  rw [insertConnection]
  split <;> rfl

/-- Connects an output to an input, under an identity that the caller takes from a supply of
    unused ones. -/
def connect (g : Graph) (id : ConnectionId) (source : NodeId) (output : String) (target : NodeId)
    (input : String) : Except EditError Graph :=
  (g.checkConnection source output target input).map fun () =>
    g.appendConnection { id, source, output, target, input }

/-- Connects ports of nodes given by name. -/
def connectNames (g : Graph) (id : ConnectionId) (source output target input : String) :
    Except EditError Graph :=
  match g.nodeNamed? source, g.nodeNamed? target with
  | none, _ => .error (.nameNotFound source)
  | some _, none => .error (.nameNotFound target)
  | some s, some t => g.connect id s.id output t.id input

/-- Removes a connection. -/
def disconnect (g : Graph) (id : ConnectionId) : Option Connection × Graph :=
  match g.connection? id with
  | none => (none, g)
  | some c =>
    (some c, { g with
      connections := g.connections.filter (·.id != id), version := g.version + 1 })

end Graph

/-! ## §5. Fresh identities -/

/-- A supply of identities that no host chose: hosts choose 128-bit numbers. -/
structure Supply where
  next : Nat := Nat.pow 2 128
deriving Repr, DecidableEq

namespace Supply

/-- Takes an identity for a node. -/
def node (s : Supply) : NodeId × Supply := (⟨s.next⟩, ⟨s.next + 1⟩)

/-- Takes an identity for a connection. -/
def connection (s : Supply) : ConnectionId × Supply := (⟨s.next⟩, ⟨s.next + 1⟩)

end Supply

namespace Subnet

/-- The name of the node that offers the inputs of a new subnet. -/
def inputName : String := "subnet_input"

/-- The name of the node that collects the outputs of a new subnet. -/
def outputName : String := "subnet_output"

/-- A subnet whose network holds just the two nodes of its boundary. -/
def make (name : String) (inputs outputs : List PortSpec) (block : Block) (supply : Supply) :
    Subnet × Supply :=
  let (inputId, supply) := supply.node
  let (outputId, supply) := supply.node
  let network := ((Graph.empty name).add inputId inputName (.subnetInput inputs)).add outputId
    outputName (.subnetOutput outputs)
  ({ inputs, outputs, block, network }, supply)

end Subnet

end ShaderFlow
