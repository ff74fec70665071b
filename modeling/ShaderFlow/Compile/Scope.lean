/-
  ShaderFlow.Compile.Scope — the names of variables in nested networks.

  Each network is a scope whose variables begin with the names of the subnets around it.
  Names are joined by underscores, so different values can come to the same name; a graph in
  which they do is refused as a whole, whether its nodes are used or not.

  Main definitions:
    * `Scope` — a network's path and the start of its variables;
    * `Graph.checkVariables` — refuses graphs in which two values share a variable.
-/

import ShaderFlow.Compile.Error
import ShaderFlow.Table

namespace ShaderFlow

/-! ## §1. Scopes -/

/-- The scope of one network. -/
structure Scope where
  /-- The names of the networks from the outermost one, with slashes. -/
  path : String
  /-- How many subnets enclose the network. -/
  depth : Nat
  /-- The name of the subnet that the network belongs to. -/
  subnet : Option String
  /-- What the names of the variables begin with, behind `v_`. -/
  lead : String
deriving Repr, DecidableEq

namespace Scope

/-- The scope of a graph that no subnet encloses. -/
def root (graph : String) : Scope :=
  { path := "/" ++ graph, depth := 0, subnet := none, lead := "" }

/-- The scope of the network of a subnet. -/
def enter (s : Scope) (subnet : String) : Scope where
  path := s.path ++ "/" ++ subnet
  depth := s.depth + 1
  subnet := some subnet
  lead := s.lead ++ subnet ++ "_"

/-- The variable that holds an output of a node. -/
def varName (s : Scope) (node output : String) : String :=
  "v_" ++ s.lead ++ node ++ "_" ++ output

/-- The variable that an input of the enclosing subnet is bound to. -/
def inputVar (s : Scope) (input : String) : String := "v_" ++ s.lead ++ "input_" ++ input

/-- The variable, declared outside the block, that holds an output of the subnet. -/
def outputVar (s : Scope) (output : String) : String := "v_" ++ s.lead ++ output

end Scope

/-! ## §2. Variables of a hierarchy -/

/-- What the names of varyings begin with; no variable may. -/
def reservedPrefixes : List String := ["v_attr_", "v_var_"]

/-- The variables that a node needs: for a subnet one for each input, bound inside, and for
    every node one for each output.  What offers the inputs of a subnet needs none. -/
def Node.variables (scope : Scope) (n : Node) : List String :=
  let outputs := n.outputs.map fun port => scope.varName n.name port.name
  match n.kind with
  | .subnetInput _ => []
  | .subnet s => s.inputs.map (fun spec => (scope.enter n.name).inputVar spec.name) ++ outputs
  | _ => outputs

/-- What has a variable already: the varyings, by the start of its name, or a node. -/
def holder? (taken : Table String String) (name : String) : Option String :=
  match reservedPrefixes.find? fun start => start.toList.isPrefixOf name.toList with
  | some start => some ("the " ++ start ++ " varyings")
  | none => taken.get? name

/-- Takes variables for a node, one after the other, as long as they are free. -/
def reserve (scope : Scope) (n : Node) (taken : Table String String) :
    List String → Except CompileError (Table String String)
  | [] => .ok taken
  | name :: rest =>
    match holder? taken name with
    | some other => .error (.duplicateVariable (NodeRef.of scope.path n) name other)
    | none => reserve scope n (taken.put name (scope.path ++ "/" ++ n.name)) rest

mutual

/-- Takes variables for every node of a hierarchy: for each node in order, and for the
    network of a subnet right after the subnet. -/
def Graph.reserveVariables (scope : Scope) (taken : Table String String) :
    Graph → Except CompileError (Table String String)
  | { nodes, .. } => Node.reserveAll scope taken nodes

/-- Takes variables for nodes and their networks. -/
def Node.reserveAll (scope : Scope) (taken : Table String String) :
    List Node → Except CompileError (Table String String)
  | [] => .ok taken
  | { id, name, kind, dirty, error } :: ns => do
    let n : Node := { id, name, kind, dirty, error }
    let taken ← reserve scope n taken (n.variables scope)
    let taken ← kind.reserveVariables (scope.enter name) taken
    Node.reserveAll scope taken ns

/-- Takes variables for the network of a subnet, whose scope is given. -/
def Kind.reserveVariables (inner : Scope) (taken : Table String String) :
    Kind → Except CompileError (Table String String)
  | .subnet { network, .. } => network.reserveVariables inner taken
  | _ => .ok taken

end

/-- Refuses a graph in which two values would share a variable. -/
def Graph.checkVariables (g : Graph) (scope : Scope) : Except CompileError Unit :=
  (g.reserveVariables scope []).map fun _ => ()

end ShaderFlow
