/-
  ShaderFlow.Proofs.Meaning — what a graph denotes, and what running code does.

  Both sides share one meaning of the literals, uniforms, operations and functions that they
  name, over any type of values.  A graph denotes values by itself: an output is computed from
  the inputs of its node, and an input has the value that feeds it.  Code is run statement by
  statement in open blocks of variables.

  Main definitions:
    * `Meaning`              — what names and operations stand for;
    * `Store`, `Meaning.run` — running code;
    * `Meaning.Denotes`      — the values of a graph.

  Main statements:
    * `Meaning.Denotes.output_cases` — what an output denotes goes by the kind of its node;
    * `Meaning.Denotes.unique`       — a graph denotes at most one value at a port.
-/

import ShaderFlow.Compile.Emission
import ShaderFlow.Proofs.Basic
import ShaderFlow.Proofs.Names

namespace ShaderFlow

/-- What the names and operations of generated code stand for. -/
structure Meaning (V : Type) where
  literal : Value → V
  zero : PortType → V
  uniform : String → V
  /-- An attribute of the vertex at hand. -/
  vertex : String → V
  varying : String → V
  field : String → String → V
  channels : String → String → V
  builtin : String → V
  /-- A value of one type as a value of another. -/
  convert : PortType → PortType → V → V
  math : MathOp → List V → V
  call : String → List V → V
  viewNormal : V → V
  withAlpha : V → V → V
  /-- Whether a condition holds. -/
  holds : V → Bool

variable {V : Type}

namespace Meaning

/-- A value of type `source` as one of type `target`. -/
def coerce (M : Meaning V) (source target : PortType) (v : V) : V :=
  if source = target then v else M.convert source target v

end Meaning

/-! ## §1. Stores -/

/-- The state of running code.  There is always an innermost block. -/
structure Store (V : Type) where
  /-- The variables of the innermost block. -/
  top : Table String V := []
  /-- The blocks around it, from the inside out. -/
  outer : List (Table String V) := []
  /-- How many blocks deep the code is that is being skipped. -/
  skipped : Nat := 0
  /-- What was written to places that are no variables, in order. -/
  written : List (Place × V) := []

namespace Store

/-- The value of a variable. -/
def find? (σ : Store V) (x : String) : Option V := (σ.top :: σ.outer).findSome? (·.get? x)

/-- The names of the open variables. -/
def names (σ : Store V) : List String := (σ.top :: σ.outer).flatMap Table.keys

/-- What was last written to a place. -/
def last? (σ : Store V) (place : Place) : Option V := Table.get? σ.written.reverse place

/-- Declares a variable, which must be new to its block. -/
def declare (σ : Store V) (x : String) (v : V) : Option (Store V) :=
  if σ.top.has x then none else some { σ with top := σ.top ++ [(x, v)] }

/-- Gives a variable a value in the innermost block that has it. -/
def replace (x : String) (v : V) : List (Table String V) → Option (List (Table String V))
  | [] => none
  | block :: outer =>
    if block.has x then some (block.put x v :: outer) else (replace x v outer).map (block :: ·)

/-- Assigns to a variable, which must be open. -/
def assign (σ : Store V) (x : String) (v : V) : Option (Store V) :=
  if σ.top.has x then some { σ with top := σ.top.put x v }
  else (replace x v σ.outer).map fun outer => { σ with outer }

/-- Writes to a place that is no variable. -/
def write (σ : Store V) (place : Place) (v : V) : Store V :=
  { σ with written := σ.written ++ [(place, v)] }

/-- Opens a block. -/
def enter (σ : Store V) : Store V := { σ with top := [], outer := σ.top :: σ.outer }

/-- Closes the innermost block, which must not be the outermost one. -/
def leave (σ : Store V) : Option (Store V) :=
  match σ.outer with
  | [] => none
  | block :: outer => some { σ with top := block, outer }

end Store

/-! ## §2. Running code -/

namespace Meaning

/-- The value of an operand, if the variable that it reads is open. -/
def operand (M : Meaning V) (σ : Store V) : Operand → Option V
  | .var x => σ.find? x
  | .literal value => some (M.literal value)
  | .zero type => some (M.zero type)
  | .uniform name => some (M.uniform name)
  | .attribute name => some (M.vertex name)
  | .varying name => some ((σ.last? (.varying name)).getD (M.varying name))
  | .field record name => some ((σ.last? (.field record name)).getD (M.field record name))
  | .channels texture swizzle => some (M.channels texture swizzle)
  | .builtin name => some (M.builtin name)
  | .convert source target o => (M.operand σ o).map (M.convert source target)

/-- The value of an expression. -/
def expr (M : Meaning V) (σ : Store V) : Expr → Option V
  | .operand o => M.operand σ o
  | .math op args => (args.mapM (M.operand σ)).map (M.math op)
  | .call function args => (args.mapM (M.operand σ)).map (M.call function)
  | .viewNormal normal => (M.operand σ normal).map M.viewNormal
  | .withAlpha color alpha => do return M.withAlpha (← M.operand σ color) (← M.operand σ alpha)

/-- Runs a statement.  Where blocks are skipped, only their ends matter. -/
def step (M : Meaning V) (σ : Store V) (st : Statement) : Option (Store V) :=
  match σ.skipped, st with
  | depth + 1, .openBlock _ => some { σ with skipped := depth + 2 }
  | depth + 1, .closeBlock => some { σ with skipped := depth }
  | _ + 1, _ => some σ
  | 0, .declare _ name value => (M.expr σ value).bind (σ.declare name)
  | 0, .assign (.var name) value => (M.expr σ value).bind (σ.assign name)
  | 0, .assign place value => (M.expr σ value).map (σ.write place)
  | 0, .openBlock none => some σ.enter
  | 0, .openBlock (some condition) =>
    (M.operand σ condition).map fun v => if M.holds v then σ.enter else { σ with skipped := 1 }
  | 0, .closeBlock => σ.leave
  | 0, .raw _ => none

/-- Runs a body, which has to make sense as a whole. -/
def run (M : Meaning V) (σ : Store V) (body : List Statement) : Option (Store V) :=
  body.foldlM M.step σ

/-! ## §3. What a graph denotes -/

/-- A port of a node. -/
inductive Side where
  | input (name : String)
  | output (name : String)

/-- The value of a port of the node `n` in the network `g`, where `around` lists the subnets
    that `g` is in, each with the network that holds it, from the inside out.  Functions are
    those of the library. -/
inductive Denotes (M : Meaning V) (library : Library) :
    List (Graph × Node) → Graph → Node → Side → V → Prop where
  /-- An input has the value of the output that feeds it, as a value of its own type. -/
  | fed {around g n name c source port offered v} :
      g.inputSource? n.id name = some c → g.node? c.source = some source →
      n.input? name = some port → source.output? c.output = some offered →
      Denotes M library around g source (.output c.output) v →
      Denotes M library around g n (.input name) (M.coerce offered.type port.type v)
  | default {around g n name port value} :
      g.inputSource? n.id name = none → n.input? name = some port → port.default = some value →
      Denotes M library around g n (.input name) (M.literal value)
  | zero {around g n name port} :
      g.inputSource? n.id name = none → n.input? name = some port → port.default = none →
      Denotes M library around g n (.input name) (M.zero port.type)
  | constant {around g n value} : n.kind = .constant value →
      Denotes M library around g n (.output "value") (M.literal value)
  | param {around g n name type initial} : n.kind = .param name type initial →
      Denotes M library around g n (.output "value") (M.uniform (Backend.paramUniform name))
  | math {around g n op type} {args : String → V} : n.kind = .math op type →
      (∀ name ∈ n.inputNames, Denotes M library around g n (.input name) (args name)) →
      Denotes M library around g n (.output "result") (M.math op (n.inputNames.map args))
  | call {around g n name specs type function} {args : String → V} :
      n.kind = .function name specs type → library.get? name = some function →
      (∀ name ∈ n.inputNames, Denotes M library around g n (.input name) (args name)) →
      Denotes M library around g n (.output "result")
        (M.call function.name (n.inputNames.map args))
  /-- What offers the inputs of a subnet has the values of those inputs. -/
  | offered {around g n ports outside subnet name v} : n.kind = .subnetInput ports →
      Denotes M library around outside subnet (.input name) v →
      Denotes M library ((outside, subnet) :: around) g n (.output name) v
  /-- A subnet has the values that its network collects. -/
  | always {around g n subnet collector name v} : n.kind = .subnet subnet →
      subnet.block = .always → subnet.outputNode? = some collector →
      Denotes M library ((g, n) :: around) subnet.network collector (.input name) v →
      Denotes M library around g n (.output name) v
  | taken {around g n subnet condition held collector name v} : n.kind = .subnet subnet →
      subnet.block = .conditional condition → Denotes M library around g n (.input condition) held →
      M.holds held = true → subnet.outputNode? = some collector →
      Denotes M library ((g, n) :: around) subnet.network collector (.input name) v →
      Denotes M library around g n (.output name) v
  /-- A subnet that is skipped has zeros. -/
  | skipped {around g n subnet condition held name port} : n.kind = .subnet subnet →
      subnet.block = .conditional condition → Denotes M library around g n (.input condition) held →
      M.holds held = false → n.output? name = some port →
      Denotes M library around g n (.output name) (M.zero port.type)

variable {M : Meaning V}

/-- What an output denotes goes by the kind of its node. -/
theorem Denotes.output_cases {library : Library} {around : List (Graph × Node)} {g : Graph}
    {n : Node} {output : String} {v : V} (h : M.Denotes library around g n (.output output) v) :
    match n.kind with
    | .constant value => v = M.literal value
    | .param name _ _ => v = M.uniform (Backend.paramUniform name)
    | .math op _ => ∃ args : String → V,
        (∀ name ∈ n.inputNames, M.Denotes library around g n (.input name) (args name)) ∧
          v = M.math op (n.inputNames.map args)
    | .function name _ _ => ∃ function, ∃ args : String → V, library.get? name = some function ∧
        (∀ name ∈ n.inputNames, M.Denotes library around g n (.input name) (args name)) ∧
          v = M.call function.name (n.inputNames.map args)
    | .subnetInput _ => ∃ outside subnet rest, around = (outside, subnet) :: rest ∧
        M.Denotes library rest outside subnet (.input output) v
    | .subnet subnet =>
        let collected := ∃ collector, subnet.outputNode? = some collector ∧
          M.Denotes library ((g, n) :: around) subnet.network collector (.input output) v
        match subnet.block with
        | .always => collected
        | .conditional condition => ∃ held,
            M.Denotes library around g n (.input condition) held ∧
              if M.holds held then collected
              else ∃ port, n.output? output = some port ∧ v = M.zero port.type
    | _ => False := by
  generalize hside : Side.output output = side at h
  cases h with
  | fed | default | zero => cases hside
  | constant hk | param hk => rw [hk]
  | math hk hargs =>
    rw [hk]
    exact ⟨_, hargs, rfl⟩
  | call hk hfunction hargs =>
    rw [hk]
    exact ⟨_, _, hfunction, hargs, rfl⟩
  | offered hk hv =>
    cases hside
    rw [hk]
    exact ⟨_, _, _, rfl, hv⟩
  | always hk hblock hcollector hv =>
    cases hside
    simp only [hk, hblock]
    exact ⟨_, hcollector, hv⟩
  | taken hk hblock hheld hholds hcollector hv =>
    cases hside
    simp only [hk, hblock]
    refine ⟨_, hheld, ?_⟩
    rw [if_pos hholds]
    exact ⟨_, hcollector, hv⟩
  | skipped hk hblock hheld hholds hport =>
    cases hside
    simp only [hk, hblock]
    refine ⟨_, hheld, ?_⟩
    rw [if_neg (by simp [hholds])]
    exact ⟨_, hport, rfl⟩

/-- **A graph denotes at most one value** at each port. -/
theorem Denotes.unique {library : Library} {around : List (Graph × Node)} {g : Graph} {n : Node}
    {side : Side} {v : V} (h : M.Denotes library around g n side v) :
    ∀ {v'}, M.Denotes library around g n side v' → v = v' := by
  induction h with
  | fed hc hsource hport hoffered _ ih =>
    intro v' h'
    cases h' with
    | fed hc' hsource' hport' hoffered' hv' =>
      cases hc.symm.trans hc'
      cases hsource.symm.trans hsource'
      cases hport.symm.trans hport'
      cases hoffered.symm.trans hoffered'
      rw [ih hv']
    | default hc' | zero hc' => cases hc.symm.trans hc'
  | default hc hport hdefault =>
    intro v' h'
    cases h' with
    | fed hc' => cases hc.symm.trans hc'
    | default _ hport' hdefault' =>
      cases hport.symm.trans hport'
      cases hdefault.symm.trans hdefault'
      rfl
    | zero _ hport' hdefault' =>
      cases hport.symm.trans hport'
      cases hdefault.symm.trans hdefault'
  | zero hc hport hdefault =>
    intro v' h'
    cases h' with
    | fed hc' => cases hc.symm.trans hc'
    | default _ hport' hdefault' =>
      cases hport.symm.trans hport'
      cases hdefault.symm.trans hdefault'
    | zero _ hport' =>
      cases hport.symm.trans hport'
      rfl
  | constant hk | param hk =>
    intro v' h'
    have hv' := h'.output_cases
    rw [hk] at hv'
    exact hv'.symm
  | math hk _ ih =>
    intro v' h'
    have hv' := h'.output_cases
    rw [hk] at hv'
    obtain ⟨args, hargs, rfl⟩ := hv'
    rw [List.map_congr_left fun name hname => ih name hname (hargs name hname)]
  | call hk hfunction _ ih =>
    intro v' h'
    have hv' := h'.output_cases
    rw [hk] at hv'
    obtain ⟨function, args, hfunction', hargs, rfl⟩ := hv'
    cases hfunction.symm.trans hfunction'
    rw [List.map_congr_left fun name hname => ih name hname (hargs name hname)]
  | offered hk _ ih =>
    intro v' h'
    have hv' := h'.output_cases
    rw [hk] at hv'
    obtain ⟨_, _, _, haround, hv'⟩ := hv'
    cases haround
    exact ih hv'
  | always hk hblock hcollector _ ih =>
    intro v' h'
    have hv' := h'.output_cases
    simp only [hk, hblock] at hv'
    obtain ⟨collector, hcollector', hv'⟩ := hv'
    cases hcollector.symm.trans hcollector'
    exact ih hv'
  -- a condition denotes one value, so that both sides run the network or both skip it
  | taken hk hblock _ hholds hcollector _ ihHeld ih =>
    intro v' h'
    have hv' := h'.output_cases
    simp only [hk, hblock] at hv'
    obtain ⟨held, hheld, hv'⟩ := hv'
    rw [← ihHeld hheld, if_pos hholds] at hv'
    obtain ⟨collector, hcollector', hv'⟩ := hv'
    cases hcollector.symm.trans hcollector'
    exact ih hv'
  | skipped hk hblock _ hholds hport ihHeld =>
    intro v' h'
    have hv' := h'.output_cases
    simp only [hk, hblock] at hv'
    obtain ⟨held, hheld, hv'⟩ := hv'
    rw [← ihHeld hheld, if_neg (by simp [hholds])] at hv'
    obtain ⟨port, hport', rfl⟩ := hv'
    cases hport.symm.trans hport'
    rfl

end Meaning

end ShaderFlow
