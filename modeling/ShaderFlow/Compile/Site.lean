/-
  ShaderFlow.Compile.Site — a node at the point of being emitted.

  A site is a node in its network, stage and scope.  Here an input becomes an operand, an
  output becomes a variable, and what a node adds to a program becomes contributions.

  Main definitions:
    * `Site.input` — what an input evaluates to;
    * `Site.declare` — the statement that sets an output;
    * `Contribution`, `Progress` — additions to a program, and the program so far.
-/

import ShaderFlow.Code.Listing
import ShaderFlow.Compile.Needs
import ShaderFlow.Compile.Scope

namespace ShaderFlow

/-! ## §1. Sites -/

/-- A node in the network, stage and scope that it is emitted in. -/
structure Site where
  graph : Graph
  node : Node
  stage : Stage
  scope : Scope
  context : Context

namespace Site

/-- The node, for people to find it. -/
def ref (s : Site) : NodeRef := NodeRef.of s.scope.path s.node

/-- The variable that holds an output of a node of this network.  What offers the inputs of
    the enclosing subnet has the variables that those are bound to. -/
def variableOf (s : Site) (n : Node) (output : String) : String :=
  if n.kind.isSubnetInput then s.scope.inputVar output else s.scope.varName n.name output

/-- The variable that holds an output of the node. -/
def varName (s : Site) (output : String) : String := s.variableOf s.node output

/-- Declares the variable of an output with its value. -/
def declare (s : Site) (output : String) (value : Expr) : Statement :=
  let type := ((s.node.output? output).map (·.type)).getD .float
  .declare type (s.varName output) value

/-- Whether an input is fed. -/
def isFed (s : Site) (input : String) : Bool := (s.graph.inputSource? s.node.id input).isSome

/-- What an input evaluates to, as a value of its type: the variable of the output that feeds
    it, else its default, else zero.  An input that has to be fed must be. -/
def input (s : Site) (name : String) : Except CompileError Operand :=
  match s.node.input? name with
  | none => .error (.missingInput s.ref name)
  | some port =>
    match s.graph.inputSource? s.node.id name with
    | some c =>
      match s.graph.node? c.source with
      | none => .error (.nodeNotFound c.source)
      | some source =>
        let type := ((source.output? c.output).map (·.type)).getD port.type
        .ok ((Operand.var (s.variableOf source c.output)).as type port.type)
    | none =>
      if port.required then .error (.missingInput s.ref name)
      else
        match port.default with
        | some value => .ok ((Operand.literal value).as value.portType port.type)
        | none => .ok (.zero port.type)

/-- What inputs evaluate to, one after the other. -/
def inputs (s : Site) (names : List String) : Except CompileError (List Operand) :=
  names.mapM s.input

end Site

/-! ## §2. Contributions -/

/-- What a node adds to a program. -/
inductive Contribution where
  | define (stage : Stage) (declarations : List Declaration)
  | write (stage : Stage) (entries : List Entry) (repetition : Repetition)
  | note (note : Note)
deriving Repr, DecidableEq

namespace Contribution

/-- Statements for a stage, without white space in front. -/
def statements (stage : Stage) (body : List Statement) : Contribution :=
  .write stage (body.map fun statement => { statement }) .allowed

end Contribution

/-- A program so far. -/
structure Progress where
  listing : Listing
  notes : List Note := []
deriving Repr, DecidableEq

namespace Progress

/-- A program without content, whose current stage is given. -/
def start (stage : Stage) : Progress := { listing := { current := stage } }

/-- Adds a contribution of a node. -/
def add (owner : NodeId) (p : Progress) : Contribution → Progress
  | .define stage declarations =>
    { p with listing := p.listing.define owner declarations (some stage) }
  | .write stage entries repetition =>
    { p with listing := p.listing.write owner entries repetition (some stage) }
  | .note note => { p with notes := p.notes ++ [note] }

/-- Adds the contributions of a node, which must not contradict a declaration. -/
def addAll (p : Progress) (path : String) (n : Node) (contributions : List Contribution) :
    Except CompileError Progress :=
  let p := contributions.foldl (add n.id) p
  match p.listing.conflicts with
  | [] => .ok p
  | conflict :: _ =>
    .error (.conflictingDefinition (NodeRef.of path n) conflict.kept conflict.dropped)

end Progress

end ShaderFlow
