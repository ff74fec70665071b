/-
  ShaderFlow.Code.Listing — the definitions and lines collected for each stage.

  Collecting only ever adds, in the order of the calls.  Of two definitions of one category
  and name a stage keeps the first; where the second reads differently, that is recorded as
  a conflict.

  Main definitions:
    * `Listing.define`, `Listing.write` — collecting;
    * `Listing.definitionLines`, `Listing.body` — what a stage holds;
    * `Listing.takeConflicts` — the conflicts since they were last taken.
-/

import ShaderFlow.Code.Definition
import ShaderFlow.Code.Stage
import ShaderFlow.Code.Statement
import ShaderFlow.Table

namespace ShaderFlow

/-- A line of a body and the node it came from. -/
structure Line where
  owner : NodeId
  entry : Entry
deriving Repr, DecidableEq

/-- The text of a line. -/
def Line.text (l : Line) : String := l.entry.text

/-- A definition that was dropped although it reads differently from the one kept. -/
structure Conflict where
  /-- The node that asked for the dropped one. -/
  owner : NodeId
  kept : Declaration
  dropped : Declaration
deriving Repr, DecidableEq

/-- Which lines are left out because the body has them already. -/
inductive Repetition where
  | allowed
  /-- A text that the same node wrote before. -/
  | oncePerOwner
  /-- A text that any node wrote before. -/
  | once
deriving Repr, DecidableEq

/-- What has been collected for each stage. -/
structure Listing where
  /-- The stage of calls that name none. -/
  current : Stage
  definitions : Table Stage (List Definition) := []
  bodies : Table Stage (List Line) := []
  conflicts : List Conflict := []
deriving Repr, DecidableEq

namespace Listing

/-! ## §1. Collecting -/

/-- Adds one declaration to those of a stage, or notes a conflict. -/
def defineOne (owner : NodeId) (state : List Definition × List Conflict) (d : Declaration) :
    List Definition × List Conflict :=
  let (kept, conflicts) := state
  match kept.find? (·.declaration.key == d.key) with
  | none => (kept ++ [⟨owner, d⟩], conflicts)
  | some existing =>
    if existing.declaration.line == d.line then (kept, conflicts)
    else (kept, conflicts ++ [⟨owner, existing.declaration, d⟩])

/-- Adds declarations to a stage, by default the current one, on behalf of a node. -/
def define (l : Listing) (owner : NodeId) (declarations : List Declaration)
    (stage : Option Stage := none) : Listing :=
  let stage := stage.getD l.current
  let kept := (l.definitions.get? stage).getD []
  let (kept, conflicts) := declarations.foldl (defineOne owner) (kept, l.conflicts)
  { l with definitions := l.definitions.put stage kept, conflicts }

/-- Whether a body has a line already. -/
def isRepeated (repetition : Repetition) (owner : NodeId) (e : Entry) (body : List Line) : Bool :=
  match repetition with
  | .allowed => false
  | .oncePerOwner => body.any fun l => l.text == e.text && l.owner == owner
  | .once => body.any fun l => l.text == e.text

/-- Adds one line to a body. -/
def writeOne (repetition : Repetition) (owner : NodeId) (body : List Line) (e : Entry) :
    List Line :=
  if isRepeated repetition owner e body then body else body ++ [⟨owner, e⟩]

/-- Adds lines to a stage, by default the current one, on behalf of a node. -/
def write (l : Listing) (owner : NodeId) (entries : List Entry) (repetition : Repetition)
    (stage : Option Stage := none) : Listing :=
  let stage := stage.getD l.current
  let body := (l.bodies.get? stage).getD []
  { l with bodies := l.bodies.put stage (entries.foldl (writeOne repetition owner) body) }

/-- Makes another stage the current one. -/
def enter (l : Listing) (stage : Stage) : Listing := { l with current := stage }

/-- Takes the conflicts. -/
def takeConflicts (l : Listing) : List Conflict × Listing :=
  (l.conflicts, { l with conflicts := [] })

/-! ## §2. What a stage holds -/

/-- The definitions of a stage, in the order in which they were added. -/
def definitionsOf (l : Listing) (stage : Stage) : List Definition :=
  (l.definitions.get? stage).getD []

/-- The lines of a stage. -/
def body (l : Listing) (stage : Stage) : List Line := (l.bodies.get? stage).getD []

/-- The lines that a node wrote into a stage. -/
def ownedBody (l : Listing) (stage : Stage) (owner : NodeId) : List Line :=
  (l.body stage).filter (·.owner == owner)

/-- The definitions of a stage by category, in the order of the categories. -/
def grouped (l : Listing) (stage : Stage) : List Definition :=
  DefinitionKind.all.flatMap fun kind =>
    (l.definitionsOf stage).filter (·.declaration.kind == kind)

/-- The definitions of a stage in code. -/
def definitionLines (l : Listing) (stage : Stage) : List String :=
  (l.grouped stage).map (·.declaration.line)

/-- The stages that were touched: first those with definitions, then those with lines only. -/
def stages (l : Listing) : List Stage :=
  l.definitions.keys ++ l.bodies.keys.filter (!l.definitions.keys.contains ·)

end Listing

end ShaderFlow
