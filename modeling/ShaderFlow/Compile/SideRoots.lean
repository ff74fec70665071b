/-
  ShaderFlow.Compile.SideRoots — nodes that act without feeding the output node.

  A node whose writing input is fed acts by itself: it writes an attribute or a varying.  So
  does a subnet that holds such a node at any depth.
-/

import ShaderFlow.Graph.Basic

namespace ShaderFlow

mutual

/-- The nodes of a network whose kind writes and whose given input is fed, and the subnets
    that hold such nodes. -/
def Graph.sideRoots (writes : Kind → Bool) (input : String) : Graph → List NodeId
  | { name, nodes, connections, version, error } =>
    Node.sideRootsAmong writes input { name, nodes, connections, version, error } nodes

/-- The same, among some of the nodes of the network `g`. -/
def Node.sideRootsAmong (writes : Kind → Bool) (input : String) (g : Graph) :
    List Node → List NodeId
  | [] => []
  | { id, kind := .subnet { network, .. }, .. } :: ns =>
    (if (network.sideRoots writes input).isEmpty then [] else [id]) ++
      Node.sideRootsAmong writes input g ns
  | { id, kind, .. } :: ns =>
    (if writes kind && (g.inputSource? id input).isSome then [id] else []) ++
      Node.sideRootsAmong writes input g ns

end

/-- The nodes that write attributes back. -/
def Graph.exports (g : Graph) : List NodeId := g.sideRoots Kind.isAttribute Kind.exportInput

end ShaderFlow
