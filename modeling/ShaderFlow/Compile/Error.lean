/-
  ShaderFlow.Compile.Error — why a graph does not compile.

  An error that comes from a node says which, so that a host can show it there.
-/

import ShaderFlow.Code.Definition
import ShaderFlow.Code.Stage
import ShaderFlow.Config.Basic

namespace ShaderFlow

/-- A node by identity and path, for people to find it. -/
structure NodeRef where
  id : NodeId
  path : String
deriving Repr, DecidableEq

namespace NodeRef

/-- A path without slashes at its end. -/
def trimSlashes (path : String) : String :=
  String.ofList (path.toList.reverse.dropWhile (· == '/')).reverse

/-- The path of something in a network. -/
def join (networkPath name : String) : String := trimSlashes networkPath ++ "/" ++ name

/-- A node of the network with the given path. -/
def of (networkPath : String) (n : Node) : NodeRef := ⟨n.id, join networkPath n.name⟩

end NodeRef

/-- A line of a template that something is put in place of. -/
inductive Marker where
  | definitions
  | body
deriving Repr, DecidableEq

/-- The text of a marker. -/
def Marker.text : Marker → String
  | .definitions => "// INSERT DEFINITIONS"
  | .body => "// INSERT BODY"

/-- Why a graph does not compile. -/
inductive CompileError where
  /-- The graph has no output node for the backend. -/
  | missingOutputNode (graph : String)
  /-- The graph has several output nodes for the backend. -/
  | multipleOutputNodes (graph : String) (count : Nat)
  /-- A subnet has no node that collects its outputs. -/
  | missingSubnetOutput (node : NodeRef)
  /-- An input that has to be fed is not, or does not exist. -/
  | missingInput (node : NodeRef) (input : String)
  /-- The library has no function of that name. -/
  | unknownFunction (node : NodeRef) (function : String)
  /-- An attribute has no channels in the state textures. -/
  | unallocatedAttribute (node : NodeRef) (name : String)
  /-- An attribute has a type that cannot be stored. -/
  | unsupportedAttributeType (node : NodeRef) (name : String) (type : PortType)
  /-- A node that the backend cannot compile where it stands. -/
  | unsupportedNode (node : NodeRef) (backend : Target)
  /-- A value depends on itself through this node. -/
  | cyclicDependency (node : NodeRef)
  /-- A connection or a root names a node that does not exist. -/
  | nodeNotFound (id : NodeId)
  | invalidConfig (fault : ConfigFault)
  /-- Two values would share a variable; `other` is what has it already. -/
  | duplicateVariable (node : NodeRef) (name other : String)
  /-- Two nodes declare the same thing differently. -/
  | conflictingDefinition (node : NodeRef) (kept dropped : Declaration)
  /-- A template has no line for what has to be put there. -/
  | template (stage : Stage) (marker : Marker)
deriving Repr, DecidableEq

namespace CompileError

/-- The text of a compile error. -/
def message : CompileError → String
  | .missingOutputNode graph => graph ++ ": one output node is required"
  | .multipleOutputNodes graph count =>
    graph ++ ": only one output node is allowed, found " ++ toString count
  | .missingSubnetOutput node => node.path ++ ": a subnet output node is required"
  | .missingInput node input => node.path ++ ": input '" ++ input ++ "' requires a connection"
  | .unknownFunction node function =>
    node.path ++ ": unknown function '" ++ function ++ "'"
  | .unallocatedAttribute node name =>
    node.path ++ ": attribute '" ++ name ++ "' has no texture allocation"
  | .unsupportedAttributeType node name type =>
    node.path ++ ": attribute '" ++ name ++ "' of type " ++ type.glslName ++
      " cannot be simulated"
  | .unsupportedNode node backend =>
    node.path ++ ": node is not supported by the " ++ backend.name ++ " backend"
  | .cyclicDependency node => node.path ++ ": cyclic dependency"
  | .nodeNotFound id => "node NodeId(" ++ id.text ++ ") not found"
  | .invalidConfig fault => fault.message
  | .duplicateVariable node name other =>
    node.path ++ ": variable '" ++ name ++ "' is already used by " ++ other
  | .conflictingDefinition node kept dropped =>
    node.path ++ ": '" ++ dropped.line ++ "' conflicts with '" ++ kept.line ++ "'"
  | .template stage marker =>
    stage.name ++ " template is missing the '" ++ marker.text ++ "' marker"

/-- The node that an error comes from. -/
def node? : CompileError → Option NodeRef
  | .missingSubnetOutput node | .missingInput node _ | .unknownFunction node _
  | .unallocatedAttribute node _ | .unsupportedAttributeType node _ _ | .unsupportedNode node _
  | .cyclicDependency node | .duplicateVariable node _ _ | .conflictingDefinition node _ _ =>
    some node
  | .missingOutputNode _ | .multipleOutputNodes _ _ | .nodeNotFound _ | .invalidConfig _
  | .template _ _ => none

end CompileError

end ShaderFlow
