/-
  ShaderFlow.Compile.Traversal — the nodes that values come from, in dependency order.

  A traversal starts from root nodes and follows inputs back to what feeds them, as far as a
  filter lets it.  Each node is reached once and comes after everything it was followed to.
  A deep traversal also enters subnets: a subnet leads to the node that collects its outputs,
  and the node that offers its inputs leads on to what feeds the subnet from outside.

  Main definitions:
    * `Visit.steps` — where a node leads;
    * `Graph.traverse` — the traversal, or why there is none.
-/

import ShaderFlow.Compile.Error
import ShaderFlow.Graph.Content

namespace ShaderFlow

/-! ## §1. What is followed -/

/-- Which inputs of a node are followed. -/
inductive InputFilter where
  | all
  | only (names : List String)
deriving Repr, DecidableEq

namespace InputFilter

/-- Whether an input is followed. -/
def allows (f : InputFilter) (input : String) : Bool :=
  match f with
  | .all => true
  | .only names => names.contains input

/-- Whether no input is followed. -/
def isEmpty : InputFilter → Bool
  | .all => false
  | .only names => names.isEmpty

end InputFilter

/-- How subnets are treated. -/
inductive TraversalMode where
  /-- A subnet is a node like any other. -/
  | shallow
  /-- Subnets are entered. -/
  | deep
deriving Repr, DecidableEq

/-- A node that was reached, with the path of its network. -/
structure Reached where
  path : String
  node : Node

/-- The outcome of a traversal. -/
structure Traversal where
  /-- Every node that was reached, behind everything it was followed to. -/
  ordered : List Reached := []
  /-- The nodes that led nowhere, in the order in which they were found. -/
  leaves : List Node := []

namespace Traversal

/-- The nodes in dependency order. -/
def nodes (t : Traversal) : List Node := t.ordered.map (·.node)

end Traversal

/-! ## §2. Where a node leads -/

/-- A subnet that is being walked through, in the network that holds it. -/
structure Frame where
  graph : Graph
  path : String
  subnet : Node

/-- A node to be visited, in its network and the subnets around that. -/
structure Visit where
  graph : Graph
  path : String
  node : Node
  /-- The subnets that were entered, the innermost one first. -/
  frames : List Frame := []

namespace Visit

/-- The nodes that feed the given inputs, in order: each as a visit, or as the error that its
    node does not exist. -/
def sources (v : Visit) (inputs : List String) : List (Except CompileError Visit) :=
  inputs.filterMap fun input =>
    (v.graph.inputSource? v.node.id input).map fun c =>
      match v.graph.node? c.source with
      | some source => .ok { v with node := source }
      | none => .error (.nodeNotFound c.source)

/-- The inputs of a node that a filter lets follow. -/
def followed (filter : Node → InputFilter) (n : Node) : List String :=
  n.inputNames.filter (filter n).allows

/-- Where a node leads. -/
def steps (mode : TraversalMode) (filter : Node → InputFilter) (v : Visit) :
    List (Except CompileError Visit) :=
  match v.node.kind, mode, v.frames with
  | .subnet s, .deep, frames =>
    match s.outputNode? with
    | some output =>
      let frame : Frame := { graph := v.graph, path := v.path, subnet := v.node }
      let path := NodeRef.join v.path v.node.name
      [.ok { graph := s.network, path, node := output, frames := frame :: frames }]
    | none => []
  | .subnetInput _, .deep, frame :: outer =>
    sources { graph := frame.graph, path := frame.path, node := frame.subnet, frames := outer }
      (followed filter frame.subnet)
  | _, _, _ => v.sources (followed filter v.node)

end Visit

/-! ## §3. The traversal -/

/-- Whether a node was reached. -/
def Traversal.hasReached (t : Traversal) (id : NodeId) : Bool := t.ordered.any (·.node.id == id)

/-- Visits a node behind the nodes on the way to it.  The way cannot hold a node twice, so it
    is no longer than there are nodes; a longer one would be a cycle. -/
def visit (mode : TraversalMode) (filter : Node → InputFilter) :
    (bound : Nat) → (way : List NodeId) → Visit → Traversal → Except CompileError Traversal
  | 0, _, v, _ => .error (.cyclicDependency (NodeRef.of v.path v.node))
  | bound + 1, way, v, t =>
    if way.contains v.node.id then .error (.cyclicDependency (NodeRef.of v.path v.node))
    else if t.hasReached v.node.id then .ok t
    else do
      let steps := v.steps mode filter
      let follow (t : Traversal) (step : Except CompileError Visit) :=
        step.bind fun next => visit mode filter bound (v.node.id :: way) next t
      let t ← steps.foldlM follow t
      pure {
        ordered := t.ordered ++ [{ path := v.path, node := v.node }]
        leaves := if steps.isEmpty then t.leaves ++ [v.node] else t.leaves }

/-- The traversal of a graph, whose nodes have the given path, from its root nodes. -/
def Graph.traverse (g : Graph) (path : String) (mode : TraversalMode) (filter : Node → InputFilter)
    (roots : List NodeId) : Except CompileError Traversal :=
  let start (t : Traversal) (root : NodeId) : Except CompileError Traversal :=
    match g.node? root with
    | none => .error (.nodeNotFound root)
    | some node => visit mode filter (g.size + 1) [] { graph := g, path, node } t
  roots.foldlM start {}

end ShaderFlow
