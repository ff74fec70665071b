/-
  ShaderFlow.Graph.Marks — the marks that editing and compiling leave on a graph.

  A node is dirty from the edit that changed it until the changes are taken.  The text of a
  compile error sits on the node it came from, or on the graph when it came from no node
  there is.  Marks are not content.

  Main definitions:
    * `Graph.isDirty`, `Graph.dirtyIds`, `Graph.clean` — changes since they were last taken;
    * `Graph.attachError`, `Graph.clearErrors` — the errors of the last compilation.
-/

import ShaderFlow.Graph.Content

namespace ShaderFlow

/-! ## §1. Changes -/

mutual

/-- Whether a node changed, at any level. -/
def Graph.isDirty : Graph → Bool
  | { nodes, .. } => Node.anyDirty nodes

/-- Whether a node of a list or of its subnets changed. -/
def Node.anyDirty : List Node → Bool
  | [] => false
  | { dirty, kind := .subnet { network, .. }, .. } :: ns =>
    dirty || network.isDirty || Node.anyDirty ns
  | { dirty, .. } :: ns => dirty || Node.anyDirty ns

end

mutual

/-- The nodes that changed: each node before the nodes of its network. -/
def Graph.dirtyIds : Graph → List NodeId
  | { nodes, .. } => Node.dirtyAmong nodes

/-- The nodes of a list and of its subnets that changed. -/
def Node.dirtyAmong : List Node → List NodeId
  | [] => []
  | { id, dirty, kind := .subnet { network, .. }, .. } :: ns =>
    (if dirty then [id] else []) ++ network.dirtyIds ++ Node.dirtyAmong ns
  | { id, dirty, .. } :: ns => (if dirty then [id] else []) ++ Node.dirtyAmong ns

end

mutual

/-- The graph without a trace of changes. -/
def Graph.clean : Graph → Graph
  | { name, nodes, connections, version, error } =>
    { name, nodes := Node.cleanAll nodes, connections, version, error }

/-- Nodes without a trace of changes. -/
def Node.cleanAll : List Node → List Node
  | [] => []
  | { id, name, kind, error, .. } :: ns =>
    { id, name, kind := kind.clean, dirty := false, error } :: Node.cleanAll ns

/-- A kind whose network is without a trace of changes. -/
def Kind.clean : Kind → Kind
  | .subnet { inputs, outputs, block, network } =>
    .subnet { inputs, outputs, block, network := network.clean }
  | kind => kind

end

/-! ## §2. Errors -/

mutual

/-- The graph without errors, at every level. -/
def Graph.clearErrors : Graph → Graph
  | { name, nodes, connections, version, .. } =>
    { name, nodes := Node.clearAll nodes, connections, version, error := none }

/-- Nodes without errors. -/
def Node.clearAll : List Node → List Node
  | [] => []
  | { id, name, kind, dirty, .. } :: ns =>
    { id, name, kind := kind.clearErrors, dirty, error := none } :: Node.clearAll ns

/-- A kind whose network is without errors. -/
def Kind.clearErrors : Kind → Kind
  | .subnet { inputs, outputs, block, network } =>
    .subnet { inputs, outputs, block, network := network.clearErrors }
  | kind => kind

end

mutual

/-- Puts an error on the node that `findDeep?` finds, if it finds one. -/
def Graph.setError? (id : NodeId) (text : String) : Graph → Option Graph
  | { name, nodes, connections, version, error } =>
    if nodes.any (·.id == id) then
      let marked := nodes.map fun n => if n.id == id then { n with error := some text } else n
      some { name, nodes := marked, connections, version, error }
    else
      (Node.setNested? id text nodes).map fun nodes =>
        { name, nodes, connections, version, error }

/-- Puts an error on a node of the subnets among the nodes. -/
def Node.setNested? (id : NodeId) (text : String) : List Node → Option (List Node)
  | [] => none
  | { id := own, name, kind, dirty, error } :: ns =>
    match kind.setError? id text with
    | some kind => some ({ id := own, name, kind, dirty, error } :: ns)
    | none =>
      (Node.setNested? id text ns).map ({ id := own, name, kind, dirty, error } :: ·)

/-- Puts an error on a node of the network of a subnet. -/
def Kind.setError? (id : NodeId) (text : String) : Kind → Option Kind
  | .subnet { inputs, outputs, block, network } =>
    (network.setError? id text).map fun network => .subnet { inputs, outputs, block, network }
  | _ => none

end

/-- Puts an error on the node it came from, or on the graph if it came from no node or from
    one that is not there. -/
def Graph.attachError (g : Graph) (origin : Option NodeId) (text : String) : Graph :=
  (origin.bind fun id => g.setError? id text).getD { g with error := some text }

end ShaderFlow
