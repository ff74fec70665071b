/-
  ShaderFlow.Graph.Content — what a hierarchy of networks holds, whatever its history.

  Two graphs have the same content when their names, their nodes by name and kind, and their
  connections by endpoints agree in order; identities, versions and marks do not count.

  Main definitions:
    * `Graph.sameContent` — that comparison, through every subnet;
    * `Graph.findDeep?`   — a node of the hierarchy by its identity;
    * `Graph.depth`, `Graph.size` — how deep subnets nest and how many nodes there are.
-/

import ShaderFlow.Graph.Basic

namespace ShaderFlow

/-! ## §1. Comparison -/

namespace Kind

/-- Comparison of two kinds without networks. -/
def sameLeaf : Kind → Kind → Bool
  | .constant a, .constant b => a.same b
  | .param name type a, .param name' type' b => name == name' && type == type' && a.same b
  | .math op type, .math op' type' => op == op' && type == type'
  | .globals, .globals => true
  | .attribute name type, .attribute name' type' => name == name' && type == type'
  | .varyingWrite name type, .varyingWrite name' type' => name == name' && type == type'
  | .varyingRead name type, .varyingRead name' type' => name == name' && type == type'
  | .function name specs type, .function name' specs' type' =>
    name == name' && specs == specs' && type == type'
  | .output target, .output target' => target == target'
  | .subnetInput ports, .subnetInput ports' => ports == ports'
  | .subnetOutput ports, .subnetOutput ports' => ports == ports'
  | _, _ => false

end Kind

mutual

/-- Whether two graphs hold the same content. -/
def Graph.sameContent : Graph → Graph → Bool
  | { name, nodes, connections, version, error }, h =>
    name == h.name && Node.sameContents nodes h.nodes &&
      Graph.endpoints { name, nodes, connections, version, error } == h.endpoints

/-- Whether two lists of nodes agree by name and kind. -/
def Node.sameContents : List Node → List Node → Bool
  | [], [] => true
  | { name, kind, .. } :: ns, m :: ms =>
    name == m.name && kind.sameContent m.kind && Node.sameContents ns ms
  | _, _ => false

/-- Whether two kinds agree. -/
def Kind.sameContent : Kind → Kind → Bool
  | .subnet { inputs, outputs, block, network }, .subnet t =>
    inputs == t.inputs && outputs == t.outputs && block == t.block &&
      network.sameContent t.network
  | k, k' => k.sameLeaf k'

end

/-! ## §2. Reaching every network -/

mutual

/-- The node with the given identity: of the network itself, else of the first subnet that
    has it at any depth. -/
def Graph.findDeep? (id : NodeId) : Graph → Option Node
  | { nodes, .. } => (nodes.find? (·.id == id)).or (Node.findNested? id nodes)

/-- The node with the given identity in the subnets among the nodes. -/
def Node.findNested? (id : NodeId) : List Node → Option Node
  | [] => none
  | { kind := .subnet { network, .. }, .. } :: ns =>
    (network.findDeep? id).or (Node.findNested? id ns)
  | _ :: ns => Node.findNested? id ns

end

mutual

/-- How many levels of subnets a graph holds. -/
def Graph.depth : Graph → Nat
  | { nodes, .. } => Node.depths nodes

/-- The greatest number of levels of subnets that a node of a list brings. -/
def Node.depths : List Node → Nat
  | [] => 0
  | { kind := .subnet { network, .. }, .. } :: ns => max (network.depth + 1) (Node.depths ns)
  | _ :: ns => Node.depths ns

end

mutual

/-- How many nodes a graph holds at all levels. -/
def Graph.size : Graph → Nat
  | { nodes, .. } => Node.sizes nodes

/-- How many nodes a list of nodes holds at all levels. -/
def Node.sizes : List Node → Nat
  | [] => 0
  | { kind := .subnet { network, .. }, .. } :: ns => network.size + 1 + Node.sizes ns
  | _ :: ns => 1 + Node.sizes ns

end

end ShaderFlow
