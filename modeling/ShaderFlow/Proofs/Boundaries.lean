/-
  ShaderFlow.Proofs.Boundaries — what a network asks of the subnet that it belongs to.

  The ports of a subnet, the nodes that stand for them inside and the input that its condition
  names are kept apart, and only names link them.  A stage asks a subnet for its condition, for
  every input that something inside reads, and for every output that is fed inside.  Whether the
  subnet declares such ports is up to whoever draws it.

  Main definitions:
    * `Graph.Asks`, `Subnet.Asks`      — the ports that a stage asks a subnet for;
    * `Subnet.Covers`, `Subnet.Sealed` — a subnet that declares them all, by name or with types;
    * `Graph.Covered`                  — a network that uses only such subnets.

  Main statements:
    * `Subnet.Mirrored.covers`         — a subnet whose two sides agree declares them;
    * `Node.boundaryVar_mem_variables` — a port that is declared has its variable.
-/

import ShaderFlow.Proofs.Screening
import ShaderFlow.Proofs.Wiring

namespace ShaderFlow

variable {b : Backend} {context : Context} {stage : Stage} {scope : Scope} {roots : List NodeId}
  {g : Graph} {n : Node} {direction : Direction} {spec : PortSpec}

/-! ## §1. What is asked for -/

/-- The ports that a subnet declares, seen from outside. -/
def Subnet.ports (s : Subnet) : Direction → List PortSpec
  | .input => s.inputs
  | .output => s.outputs

/-- The variable of such a port, in the scope of the network. -/
def Scope.boundaryVar (scope : Scope) : Direction → String → String
  | .input => scope.inputVar
  | .output => scope.outputVar

/-- The ports that a stage asks for from inside a network: an input where a node that it uses
    reads what offers the inputs, an output where what collects the outputs is fed. -/
inductive Graph.Asks (b : Backend) (stage : Stage) (roots : List NodeId) (g : Graph) :
    Direction → PortSpec → Prop where
  | reads {n source : Node} {input : String} {c : Connection} {port : Port}
      (hn : g.Uses b stage roots n) (hinput : input ∈ n.inputNames)
      (hallow : (b.follows stage n).allows input = true)
      (hc : g.inputSource? n.id input = some c) (hsource : g.node? c.source = some source)
      (hk : source.kind.isSubnetInput = true) (hport : source.output? c.output = some port) :
      Graph.Asks b stage roots g .input ⟨c.output, port.type⟩
  | collects {n : Node} {input : String} {port : Port} (hn : g.Uses b stage roots n)
      (hk : n.kind.isSubnetOutput = true) (hport : n.input? input = some port)
      (hfed : (g.inputSource? n.id input).isSome = true) :
      Graph.Asks b stage roots g .output ⟨input, port.type⟩

/-- The ports that a stage asks a subnet for: its condition, and what is asked for from inside. -/
inductive Subnet.Asks (b : Backend) (stage : Stage) (s : Subnet) : Direction → PortSpec → Prop where
  | condition {name : String} (h : s.block = .conditional name) :
      Subnet.Asks b stage s .input ⟨name, .bool⟩
  | network {output : Node} {direction : Direction} {spec : PortSpec}
      (ho : s.outputNode? = some output)
      (h : s.network.Asks b stage (output.id :: b.sideRoots s.network) direction spec) :
      Subnet.Asks b stage s direction spec

/-- A subnet that declares a port of the name for all that a stage asks it for. -/
def Subnet.Covers (b : Backend) (stage : Stage) (s : Subnet) : Prop :=
  ∀ direction spec, s.Asks b stage direction spec →
    spec.name ∈ (s.ports direction).map (·.name)

/-- A subnet that declares what a stage asks it for, with its type. -/
def Subnet.Sealed (b : Backend) (stage : Stage) (s : Subnet) : Prop :=
  ∀ direction spec, s.Asks b stage direction spec → spec ∈ s.ports direction

/-- A network in which a stage uses only such subnets, at every depth. -/
def Graph.Covered (b : Backend) (stage : Stage) (scope : Scope) (roots : List NodeId) (g : Graph) :
    Prop :=
  ∀ inner n s, g.Involves b stage scope roots inner n → n.kind = .subnet s → s.Covers b stage

namespace Graph.Covered

variable {s : Subnet}

theorem here (h : g.Covered b stage scope roots) (hn : g.Uses b stage roots n)
    (hk : n.kind = .subnet s) : s.Covers b stage :=
  h scope n s (.here hn) hk

theorem inside (h : g.Covered b stage scope roots) (hn : g.Uses b stage roots n)
    (hk : n.kind = .subnet s) {output : Node} (ho : s.outputNode? = some output) :
    s.network.Covered b stage (scope.enter n.name) (output.id :: b.sideRoots s.network) :=
  fun inner m t hm ht => h inner m t (.inside hn hk ho hm) ht

end Graph.Covered

/-! ## §2. Subnets whose sides agree -/

/-- What a stage uses is in the network. -/
theorem Graph.Uses.mem (h : g.Uses b stage roots n) : n ∈ g.nodes := by
  cases h with
  | root _ _ hn => exact Graph.mem_of_node? hn
  | feed _ _ _ _ hsource => exact Graph.mem_of_node? hsource

/-- A port that was found has the name. -/
theorem Node.mem_of_output? {output : String} {port : Port} (h : n.output? output = some port) :
    output ∈ n.outputs.map (·.name) :=
  List.mem_map.mpr ⟨port, List.mem_of_find?_eq_some h, by simpa using List.find?_some h⟩

theorem Node.mem_of_input? {input : String} {port : Port} (h : n.input? input = some port) :
    input ∈ n.inputNames :=
  List.mem_map.mpr ⟨port, List.mem_of_find?_eq_some h, by simpa using List.find?_some h⟩

/-- A subnet whose two sides agree declares all that it is asked for. -/
theorem Subnet.Mirrored.covers {s : Subnet} (h : s.Mirrored) : s.Covers b stage := by
  intro direction spec hasks
  cases hasks with
  | condition hblock => exact h.condition _ hblock
  | network _ hnetwork =>
    cases hnetwork with
    | @reads _ source _ c _ _ _ _ _ hsource hk hport =>
      have hname := Node.mem_of_output? hport
      rw [h.outputs_name_eq (Graph.mem_of_node? hsource) hk] at hname
      exact hname
    | @collects n input _ hn hk hport _ =>
      have hname := Node.mem_of_input? hport
      rw [h.inputNames_eq hn.mem hk] at hname
      exact hname

/-- Where the networks of a graph fit together, they use only subnets that declare what they are
    asked for. -/
theorem Graph.covered_of_regular (hg : g.Everywhere Graph.Regular) :
    g.Covered b stage scope roots := by
  intro inner m t hm ht
  induction hm with
  | here hn => exact (hg.here.mirrored _ hn.mem t ht).covers
  | @inside scope inner roots g n output m s hn hk _ _ ih =>
    exact ih (hg.inside ⟨n, hn.mem, s, hk, rfl⟩) ht

/-! ## §3. The variables of ports -/

theorem Scope.outputVar_enter (scope : Scope) (subnet output : String) :
    (scope.enter subnet).outputVar output = scope.varName subnet output := by
  simp only [outputVar, varName, enter, String.append_assoc]

/-- The variable that a subnet declares for an output is what its network knows as such. -/
theorem Site.varName_eq_outputVar {s : Site} {subnet : Subnet} (hk : s.node.kind = .subnet subnet)
    (output : String) : s.varName output = s.inner.outputVar output := by
  have hname : s.node.kind.isSubnetInput = false := by rw [hk]; rfl
  rw [varName, variableOf_eq hname, inner, Scope.outputVar_enter]

theorem Scope.inputVar_injective (scope : Scope) : Function.Injective scope.inputVar := by
  intro a b h
  exact String.append_right_inj _ |>.mp h

theorem Scope.outputVar_injective (scope : Scope) : Function.Injective scope.outputVar := by
  intro a b h
  exact String.append_right_inj _ |>.mp h

/-- A port that a subnet declares has a variable, which the subnet brings. -/
theorem Node.boundaryVar_mem_variables {s : Subnet} (hk : n.kind = .subnet s) {name : String}
    (hname : name ∈ (s.ports direction).map (·.name)) :
    (scope.enter n.name).boundaryVar direction name ∈ n.variables scope := by
  obtain ⟨spec, hspec, rfl⟩ := List.mem_map.mp hname
  unfold Node.variables
  rw [hk]
  cases direction with
  | input => exact List.mem_append_left _ (List.mem_map.mpr ⟨spec, hspec, rfl⟩)
  | output =>
    refine List.mem_append_right _ (List.mem_map.mpr ⟨spec.toOutput, ?_, ?_⟩)
    · rw [Node.outputs, hk]
      exact List.mem_map_of_mem hspec
    · exact (Scope.outputVar_enter scope n.name spec.name).symm

end ShaderFlow
