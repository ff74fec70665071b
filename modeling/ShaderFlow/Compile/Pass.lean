/-
  ShaderFlow.Compile.Pass — one compilation of a graph, up to its templates.

  A pass refuses a graph whose shape the backend cannot compile, then builds stage after
  stage from the output node and the nodes that act besides it.

  Main definitions:
    * `Backend.pass` — the pass;
    * `Progress.render` — a stage of a finished pass in its template.
-/

import ShaderFlow.Code.Template
import ShaderFlow.Compile.Emission

namespace ShaderFlow

namespace Graph

/-- The only output node for a target. -/
def outputNode (g : Graph) (target : Target) : Except CompileError NodeId :=
  let isOutput (n : Node) : Bool :=
    match n.kind with
    | .output t => t == target
    | _ => false
  match g.nodes.filter isOutput with
  | [] => .error (.missingOutputNode g.name)
  | [n] => .ok n.id
  | several => .error (.multipleOutputNodes g.name several.length)

end Graph

namespace Backend

/-- Refuses a graph with a node that the backend cannot compile. -/
def checkNodes (b : Backend) (g : Graph) (scope : Scope) : Except CompileError Unit :=
  match g.nodes.find? fun n => !b.supports n.kind with
  | some n => .error (.unsupportedNode (NodeRef.of scope.path n) b.target)
  | none => .ok ()

/-- A program that holds only what every stage declares. -/
def begin (b : Backend) (config : Config) (output : NodeId) : Progress :=
  let start : Listing := { current := b.stages.head?.getD .point }
  let declare (l : Listing) (stage : Stage) : Listing :=
    l.define output (b.declarations config stage) (some stage)
  { listing := b.stages.foldl declare start }

/-- Compiles a graph up to its templates.  Before any stage is built, everything that the
    roots depend on is searched for missing nodes and cycles. -/
def pass (b : Backend) (g : Graph) (context : Context) : Except CompileError Progress := do
  let output ← g.outputNode b.target
  let scope := Scope.root g.name
  b.checkNodes g scope
  g.checkVariables scope
  let roots := output :: b.sideRoots g
  let _ ← g.traverse scope.path .shallow (fun _ => .all) roots
  let build (p : Progress) (stage : Stage) : Except CompileError Progress :=
    g.emitStage b context stage scope roots p
  b.stages.foldlM build (b.begin context.config output)

end Backend

namespace Progress

/-- The lines of a stage, and behind them those of its epilogue. -/
def bodyTexts (p : Progress) (stage : Stage) (epilogue : List String) : List String :=
  (p.listing.body stage).map Line.text ++ epilogue

/-- A stage in a template. -/
def render (p : Progress) (template : String) (stage : Stage) (epilogue : List String) :
    Except CompileError String := do
  let source ← Template.insert stage .definitions (p.listing.definitionLines stage) template
  Template.insert stage .body (p.bodyTexts stage epilogue) source

/-- What the program needs from its host. -/
def needs (p : Progress) : Needs := .ofNotes p.notes

end Progress

end ShaderFlow
