/-
  ShaderFlow.Document.Basic — graphs as documents.

  A document lists nodes by name with their kinds, and connections as pairs of endpoints
  `node.port`.  Identities are not part of a document: loading gives out fresh ones and makes
  every connection with the checks of `Graph.connect`, so what loads is a valid graph.

  Main definitions:
    * `Document.load` — a document as a graph, or why it is none;
    * `Graph.toDocument` — a graph as a document.
-/

import ShaderFlow.Graph.Edit
import ShaderFlow.Graph.Marks
import ShaderFlow.Markup.Reader

namespace ShaderFlow

/-! ## §1. Documents -/

/-- A connection by its endpoints. -/
structure Wire where
  source : String
  target : String
deriving Repr, DecidableEq

/-- A graph without identities. -/
structure Document where
  name : String
  /-- Names and kinds, in order.  The networks of subnets are graphs already. -/
  nodes : List (String × Kind)
  wires : List Wire

/-- Why a document is not the document of a graph. -/
inductive DocumentError where
  /-- The text is no document. -/
  | unreadable (cause : ReadError)
  | duplicateNode (name : String)
  | invalidNodeName (name : String)
  | invalidEndpoint (endpoint : String)
  | connection (wire : Wire) (cause : EditError)
deriving Repr, DecidableEq

namespace DocumentError

/-- The text of a document error. -/
def message : DocumentError → String
  | .unreadable cause => "Invalid graph document: " ++ cause.message
  | .duplicateNode name => "Duplicate node name: " ++ name
  | .invalidNodeName name => "Invalid node name: " ++ name
  | .invalidEndpoint endpoint =>
    "Invalid connection endpoint '" ++ endpoint ++ "', expected 'node.port'"
  | .connection wire cause =>
    "Connection " ++ wire.source ++ " -> " ++ wire.target ++ ": " ++ cause.message

end DocumentError

namespace Document

/-! ## §2. Loading -/

/-- An endpoint cut at its last dot into a node and a port, both of which have to be there. -/
def splitEndpoint (endpoint : String) : Except DocumentError (String × String) :=
  let reversed := endpoint.toList.reverse
  let port := (reversed.takeWhile (· != '.')).reverse
  match reversed.dropWhile (· != '.') with
  | '.' :: node =>
    if port.isEmpty || node.isEmpty then .error (.invalidEndpoint endpoint)
    else .ok (String.ofList node.reverse, String.ofList port)
  | _ => .error (.invalidEndpoint endpoint)

/-- Adds a node under exactly its name. -/
def loadNode (g : Graph) (id : NodeId) (name : String) (kind : Kind) :
    Except DocumentError Graph :=
  if g.hasName name then .error (.duplicateNode name)
  else if g.freeName name == name then .ok (g.add id name kind)
  else .error (.invalidNodeName name)

/-- Adds the nodes of a document one after the other. -/
def loadNodes (g : Graph) (supply : Supply) :
    List (String × Kind) → Except DocumentError (Graph × Supply)
  | [] => .ok (g, supply)
  | (name, kind) :: nodes => do
    let (id, supply) := supply.node
    loadNodes (← loadNode g id name kind) supply nodes

/-- Makes a connection of a document. -/
def loadWire (g : Graph) (id : ConnectionId) (wire : Wire) : Except DocumentError Graph := do
  let (source, output) ← splitEndpoint wire.source
  let (target, input) ← splitEndpoint wire.target
  (g.connectNames id source output target input).mapError (.connection wire)

/-- Makes the connections of a document one after the other. -/
def loadWires (g : Graph) (supply : Supply) :
    List Wire → Except DocumentError (Graph × Supply)
  | [] => .ok (g, supply)
  | wire :: wires => do
    let (id, supply) := supply.connection
    loadWires (← loadWire g id wire) supply wires

/-- The graph of a document.  Loading is no change: no node of the graph is dirty. -/
def load (d : Document) (supply : Supply) : Except DocumentError (Graph × Supply) := do
  let (g, supply) ← loadNodes (.empty d.name) supply d.nodes
  let (g, supply) ← loadWires g supply d.wires
  pure (g.clean, supply)

end Document

/-! ## §3. Saving -/

namespace Graph

/-- A connection as the document of a graph shows it; one whose nodes are gone is left out. -/
def wire? (g : Graph) (c : Connection) : Option Wire := do
  let source ← g.node? c.source
  let target ← g.node? c.target
  pure { source := source.name ++ "." ++ c.output, target := target.name ++ "." ++ c.input }

/-- The document of a graph. -/
def toDocument (g : Graph) : Document where
  name := g.name
  nodes := g.nodes.map fun n => (n.name, n.kind)
  wires := g.connections.filterMap g.wire?

end Graph

end ShaderFlow
