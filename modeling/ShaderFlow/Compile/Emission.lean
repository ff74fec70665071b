/-
  ShaderFlow.Compile.Emission — turning networks into code.

  For each stage the nodes it needs are emitted in dependency order.  A subnet is emitted
  into a program of its own and spliced in: its inputs are bound and its outputs declared
  before a block that holds its code, one unit deeper; declarations, and lines for other
  stages, go where they would go without the subnet.

  Main definitions:
    * `Backend.stageOrder` — the nodes that a stage needs, in order;
    * `Graph.emitStage` — a network in one stage, through every subnet.
-/

import ShaderFlow.Backend.Basic

namespace ShaderFlow

/-! ## §1. Which nodes a stage needs -/

namespace Backend

/-- Whether a root node has something to do in a stage.  A root that does not exist is kept,
    to be refused. -/
def concerns (b : Backend) (g : Graph) (stage : Stage) (root : NodeId) : Bool :=
  match g.node? root with
  | none => true
  | some n => n.inputs.isEmpty || !(b.follows stage n).isEmpty

/-- The nodes that a stage needs, each behind the nodes that feed it. -/
def stageOrder (b : Backend) (g : Graph) (path : String) (stage : Stage) (roots : List NodeId) :
    Except CompileError (List Node) :=
  (g.traverse path .shallow (b.follows stage) (roots.filter (b.concerns g stage))).map
    Traversal.nodes

/-- Refuses a node that cannot be compiled where it stands: one of a kind that the backend
    does not know, or an output node inside a subnet. -/
def checkSupported (b : Backend) (scope : Scope) (n : Node) : Except CompileError Unit :=
  let nestedOutput :=
    match n.kind with
    | .output _ => scope.depth > 0
    | _ => false
  if nestedOutput || !b.supports n.kind then
    .error (.unsupportedNode (NodeRef.of scope.path n) b.target)
  else .ok ()

/-! ## §2. Nodes without a network -/

/-- The name of the uniform that carries a parameter. -/
def paramUniform (name : String) : String := "param_" ++ name

/-- The name of a varying in code. -/
def varyingName (name : String) : String := "v_var_" ++ name

/-- A parameter. -/
def emitParam (s : Site) (name : String) (type : PortType) (default : Value) : List Contribution :=
  let uniform := paramUniform name
  [.define s.stage [.uniform type uniform],
   .note (.param { node := s.ref.path, param := name, uniform, type, default }),
   .statements s.stage [s.declare "value" (.operand (.uniform uniform))]]

/-- A varying that is written.  The fragment stage declares it, too, whether or not anything
    reads it there. -/
def emitVaryingWrite (s : Site) (name : String) (type : PortType) :
    Except CompileError (List Contribution) := do
  let varying := varyingName name
  let both : List Contribution :=
    if s.stage = .vertex then [.define .fragment [.varying type varying]] else []
  let value ← s.input "value"
  pure ([.define s.stage [.varying type varying]] ++ both ++
    [.statements s.stage [.assign (.varying varying) (.operand value)]])

/-- A varying that is read. -/
def emitVaryingRead (s : Site) (name : String) (type : PortType) : List Contribution :=
  let varying := varyingName name
  [.define s.stage [.varying type varying],
   .statements s.stage [s.declare "value" (.operand (.varying varying))]]

/-- A call of a function of the library. -/
def emitCall (s : Site) (name : String) (inputs : List PortSpec) :
    Except CompileError (List Contribution) := do
  match s.context.library.get? name with
  | none => .error (.unknownFunction s.ref name)
  | some f =>
    let args ← s.inputs (inputs.map (·.name))
    pure [.define s.stage [.function f.output f.name f.source],
      .statements s.stage [s.declare "result" (.call f.name args)]]

/-- What collects the outputs of a subnet: each fed input is assigned to the variable that
    was declared outside the block. -/
def emitBridge (s : Site) : Except CompileError (List Contribution) := do
  let body ← (s.node.inputNames.filter s.isFed).mapM fun name =>
    (s.input name).map fun value =>
      Statement.assign (.var (s.scope.outputVar name)) (.operand value)
  pure [.statements s.stage body]

/-- A node of any kind but a subnet. -/
def emitLeaf (b : Backend) (s : Site) : Kind → Except CompileError (List Contribution)
  | .constant value => .ok [.statements s.stage [s.declare "value" (.operand (.literal value))]]
  | .param name type default => .ok (emitParam s name type default)
  | .math op _ => do
    let args ← s.inputs (op.operands.map (·.1))
    pure [.statements s.stage [s.declare "result" (.math op args)]]
  | .globals => s.emitGlobals (b.readGlobal s)
  | .attribute name type => b.emitAttribute s name type
  | .varyingWrite name type => emitVaryingWrite s name type
  | .varyingRead name type => .ok (emitVaryingRead s name type)
  | .function name inputs _ => emitCall s name inputs
  | .output _ => b.emitOutput s
  | .subnetOutput _ => emitBridge s
  | .subnetInput _ | .subnet _ => .ok []

end Backend

/-! ## §3. Subnets -/

namespace Site

/-- The scope of the network of a subnet. -/
def inner (s : Site) : Scope := s.scope.enter s.node.name

/-- Binds one input of a subnet. -/
def bindInput (s : Site) (spec : PortSpec) : Except CompileError Statement :=
  (s.input spec.name).map fun value =>
    .declare spec.type (s.inner.inputVar spec.name) (.operand value)

/-- Declares one output of a subnet. -/
def declareOutput (s : Site) (spec : PortSpec) : Statement :=
  .declare spec.type (s.varName spec.name) (.operand (.zero spec.type))

/-- The statement that opens the block of a subnet. -/
def opener (s : Site) : Block → Statement
  | .always => .openBlock none
  | .conditional condition => .openBlock (some (.var (s.inner.inputVar condition)))

/-- What stands in front of the code of a subnet, and the node that collects its outputs. -/
def openSubnet (s : Site) (subnet : Subnet) : Except CompileError (List Statement × NodeId) := do
  match subnet.outputNode? with
  | none => .error (.missingSubnetOutput s.ref)
  | some output =>
    let bindings ← subnet.inputs.mapM s.bindInput
    pure (bindings ++ subnet.outputs.map s.declareOutput ++ [s.opener subnet.block], output.id)

/-- What the code of a subnet adds to a stage other than the one that is being built, and
    what it declares there. -/
def forward (s : Site) (nested : Listing) (stage : Stage) : List Contribution :=
  let declarations := (nested.definitionsOf stage).map (·.declaration)
  if stage = s.stage then [.define stage declarations]
  else [.define stage declarations, .write stage ((nested.body stage).map (·.entry)) .once]

/-- Splices the code of a subnet between what stands in front of it and the end of its block. -/
def splice (s : Site) (opening : List Statement) (nested : Progress) : List Contribution :=
  let indent := s.context.config.formatting.indent
  let body := (nested.listing.body s.stage).map fun line => line.entry.indent indent
  let front : List Entry := opening.map fun statement => { statement }
  let back : Entry := { statement := .closeBlock }
  nested.notes.map Contribution.note ++
    nested.listing.stages.flatMap (s.forward nested.listing) ++
    [.write s.stage (front ++ body ++ [back]) .allowed]

end Site

/-! ## §4. Networks -/

mutual

/-- Emits what a stage needs of a network, from root nodes. -/
def Graph.emitStage (b : Backend) (context : Context) (stage : Stage) (scope : Scope)
    (roots : List NodeId) (p : Progress) : Graph → Except CompileError Progress
  | { name, nodes, connections, version, error } => do
    let g : Graph := { name, nodes, connections, version, error }
    let order ← b.stageOrder g scope.path stage roots
    let emit (p : Progress) (n : Node) : Except CompileError Progress := do
      b.checkSupported scope n
      p.addAll scope.path n (← Node.emitAmong b context stage scope g n.id nodes)
    order.foldlM emit p

/-- The contributions of the node with the given identity among some of the nodes of the
    network `g`. -/
def Node.emitAmong (b : Backend) (context : Context) (stage : Stage) (scope : Scope) (g : Graph)
    (target : NodeId) : List Node → Except CompileError (List Contribution)
  | [] => .ok []
  | { id, name, kind, dirty, error } :: ns =>
    if id = target then
      let node : Node := { id, name, kind, dirty, error }
      kind.emit b { graph := g, node, stage, scope, context }
    else Node.emitAmong b context stage scope g target ns

/-- The contributions of a node of the given kind. -/
def Kind.emit (b : Backend) (s : Site) : Kind → Except CompileError (List Contribution)
  | .subnet { inputs, outputs, block, network } => do
    let (opening, output) ← s.openSubnet { inputs, outputs, block, network }
    let nested ← network.emitStage b s.context s.stage s.inner (output :: b.sideRoots network)
      (.start s.stage)
    pure (s.splice opening nested)
  | kind => b.emitLeaf s kind

end

end ShaderFlow
