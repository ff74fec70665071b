/-
  ShaderFlow.Proofs.Counterparts — matching nodes that are emitted.

  A node adds to a program what its kind, its name and what feeds it say, and that is the same
  for related nodes.  Three kinds of results are not settled by this alone: what the host
  provides is declared, and attributes are read, only where an output is used, and that is asked
  of the whole network.

  Main definitions:
    * `Site.Alike`   — sites of related nodes;
    * `Backend.Heeds` — kinds that are emitted by which of their outputs are used;
    * `Site.UsedAs`  — whether such a node is used alike at both sites.

  Main statements:
    * `Site.Alike.concurs_input` — inputs of related nodes evaluate alike;
    * `Site.Alike.concurs_leaf`  — related nodes without networks add the same to a program.
-/

import ShaderFlow.Proofs.Leaves
import ShaderFlow.Proofs.Pairing

namespace ShaderFlow

variable {ρ : NodeId → NodeId} {P : Matching} {s s' : Site} {b : Backend}

/-! ## §1. Sites -/

/-- Whether two sites are of related nodes, each the first one of its identity. -/
structure Site.Alike (P : Matching) (s s' : Site) : Prop where
  node : P s.graph s.node s'.graph s'.node
  stage : s'.stage = s.stage
  scope : s'.scope = s.scope
  context : s'.context = s.context
  found : s.graph.node? s.node.id = some s.node
  found' : s'.graph.node? s'.node.id = some s'.node

/-- Whether what a node of a kind adds to a program depends on which of its outputs are used. -/
def Backend.Heeds (b : Backend) : Kind → Prop
  | .globals => True
  | .attribute .. => b ≠ .material
  | _ => False

/-- Whether the outputs of a node are used alike at two sites, if that is asked for. -/
def Site.UsedAs (b : Backend) (s s' : Site) : Prop :=
  b.Heeds s.node.kind → ∀ output ∈ s.node.outputs.map (·.name),
    s'.graph.isOutputConnected s'.node.id output = s.graph.isOutputConnected s.node.id output

namespace Site.Alike

section Reading

variable (hP : Pairing ρ P) (h : s.Alike P s')
include hP h

theorem ref : s'.ref = s.ref.rename ρ := by
  unfold Site.ref
  rw [h.scope]
  exact hP.ref h.node s.scope.path

theorem path_ref : s'.ref.path = s.ref.path := by
  rw [h.ref hP]
  rfl

/-- An output of related nodes has one variable. -/
theorem variableOf_eq {n n' : Node} (hn : P s.graph n s'.graph n') (output : String) :
    s'.variableOf n' output = s.variableOf n output := by
  unfold Site.variableOf
  rw [(hP.kind hn).isSubnetInput_eq, hP.name hn, h.scope]

theorem declare_eq : s'.declare = s.declare := by
  funext output value
  unfold Site.declare Site.varName Node.output? Node.outputs
  rw [(hP.kind h.node).outputs_eq, h.variableOf_eq hP h.node]

theorem inner_eq : s'.inner = s.inner := by
  unfold Site.inner
  rw [h.scope, hP.name h.node]

/-- An input of related nodes is fed for both or for neither. -/
theorem isFed_eq {input : String} (hinput : input ∈ s.node.inputNames) :
    s'.isFed input = s.isFed input := by
  have hfeed := hP.feed h.node input hinput
  unfold Site.isFed
  generalize s.graph.inputSource? s.node.id input = source at hfeed
  generalize s'.graph.inputSource? s'.node.id input = source' at hfeed
  cases hfeed <;> rfl

/-- **An input of related nodes evaluates alike**: to the variable of the output that feeds it,
    or to its default. -/
theorem concurs_input (name : String) : Concurs ρ Eq (s.input name) (s'.input name) := by
  have hport : s'.node.input? name = s.node.input? name := by
    unfold Node.input? Node.inputs
    rw [(hP.kind h.node).inputs_eq]
  have href : s'.ref = s.ref.rename ρ := h.ref hP
  unfold Site.input
  rw [hport]
  cases hname : s.node.input? name with
  | none =>
    rw [href]
    exact .error (.missingInput s.ref name)
  | some port =>
    have hinput : name ∈ s.node.inputNames := by
      have hport : port.name = name := by simpa using List.find?_some hname
      rw [← hport]
      exact List.mem_map_of_mem (List.mem_of_find?_eq_some hname)
    -- only a connection can tell the two sides apart, so both are taken apart together
    have hfeed := hP.feed h.node name hinput
    generalize s.graph.inputSource? s.node.id name = source at hfeed
    generalize s'.graph.inputSource? s'.node.id name = source' at hfeed
    cases hfeed with
    | none =>
      by_cases hrequired : port.required
      · simp only [hrequired, if_true, href]
        exact .error (.missingInput s.ref name)
      · simp only [hrequired]
        cases port.default <;> exact .ok rfl
    | @some c c' hc =>
      have hnode := hc.source.node
      simp only
      generalize s.graph.node? c.source = found at hnode
      generalize s'.graph.node? c'.source = found' at hnode
      cases hnode with
      | none =>
        rw [hc.source.id_eq]
        exact .error (.nodeNotFound c.source)
      | @some n n' hn =>
        refine .ok ?_
        unfold Node.output? Node.outputs
        rw [hc.output, (hP.kind hn).outputs_eq, h.variableOf_eq hP hn]

theorem concurs_inputs (names : List String) :
    Concurs ρ Eq (s.inputs names) (s'.inputs names) :=
  .mapM_eq fun name _ => h.concurs_input hP name

/-- What is used of a node whose outputs are used alike is the same. -/
theorem connectedOutputs_eq (hused : s.UsedAs b s') (hheeds : b.Heeds s.node.kind) :
    s'.graph.connectedOutputs s'.node.id = s.graph.connectedOutputs s.node.id := by
  unfold Graph.connectedOutputs
  rw [h.found, h.found']
  unfold Node.outputs
  simp only
  rw [(hP.kind h.node).outputs_eq]
  exact List.filter_congr fun output houtput => hused hheeds output houtput

end Reading

/-! ## §2. Nodes without a network -/

section Leaves

variable (hP : Pairing ρ P) (h : s.Alike P s')
include hP h

theorem emitParam_eq (name : String) (type : PortType) (default : Value) :
    Backend.emitParam s' name type default = Backend.emitParam s name type default := by
  unfold Backend.emitParam
  rw [h.stage, h.path_ref hP, h.declare_eq hP]

theorem emitVaryingRead_eq (name : String) (type : PortType) :
    Backend.emitVaryingRead s' name type = Backend.emitVaryingRead s name type := by
  unfold Backend.emitVaryingRead
  rw [h.stage, h.declare_eq hP]

theorem concurs_varyingWrite (name : String) (type : PortType) :
    Concurs ρ Eq (Backend.emitVaryingWrite s name type)
      (Backend.emitVaryingWrite s' name type) := by
  unfold Backend.emitVaryingWrite
  rw [h.stage]
  refine .bind (h.concurs_input hP _) fun value _ _ _ heq => ?_
  rw [heq]
  exact .ok rfl

theorem concurs_call (name : String) (inputs : List PortSpec) :
    Concurs ρ Eq (Backend.emitCall s name inputs) (Backend.emitCall s' name inputs) := by
  unfold Backend.emitCall
  rw [h.context, h.stage, h.ref hP]
  cases s.context.library.get? name with
  | none => exact .error (.unknownFunction s.ref name)
  | some f =>
    refine .bind (h.concurs_inputs hP _) fun args _ _ _ heq => ?_
    rw [heq, h.declare_eq hP]
    exact .ok rfl

theorem concurs_bridge : Concurs ρ Eq (Backend.emitBridge s) (Backend.emitBridge s') := by
  unfold Backend.emitBridge
  have hfed : s'.node.inputNames.filter s'.isFed = s.node.inputNames.filter s.isFed := by
    rw [hP.inputNames_eq h.node]
    exact List.filter_congr fun input hinput => h.isFed_eq hP hinput
  rw [hfed, h.stage, h.scope]
  refine .bind (.mapM_eq fun name _ => (h.concurs_input hP name).map ?_) fun body _ _ _ heq => ?_
  · rintro _ _ rfl
    rfl
  · rw [heq]
    exact .ok rfl

/-- What the host provides is declared alike where it is used and read alike. -/
theorem concurs_globals (hused : s.UsedAs b s') (hheeds : b.Heeds s.node.kind)
    {read read' : String → Except CompileError Reading}
    (hread : ∀ output, Concurs ρ Eq (read output) (read' output)) :
    Concurs ρ Eq (s.emitGlobals read) (s'.emitGlobals read') := by
  unfold Site.emitGlobals
  rw [h.connectedOutputs_eq hP hused hheeds, h.stage]
  refine .bind (.mapM_eq fun output _ => hread output) fun readings _ _ _ heq => ?_
  rw [heq, h.declare_eq hP]
  exact .ok rfl

end Leaves

/-! ## §3. Backends -/

section Material

variable (hP : Pairing ρ P) (h : s.Alike P s')
include hP h

omit hP in
theorem readAttribute_eq (name : String) (type : PortType) :
    Material.readAttribute s' name type = Material.readAttribute s name type := by
  unfold Material.readAttribute
  rw [h.stage]

theorem concurs_materialOutput (hk : s.node.kind = .output .material) :
    Concurs ρ Eq (Material.emitOutput s) (Material.emitOutput s') := by
  have hinputs : s.node.inputNames = ["position", "normal", "color", "alpha"] := by
    unfold Node.inputNames Node.inputs
    rw [hk]
    rfl
  have hposition : s'.isFed "position" = s.isFed "position" :=
    h.isFed_eq hP (by rw [hinputs]; decide)
  have hnormal : s'.isFed "normal" = s.isFed "normal" := h.isFed_eq hP (by rw [hinputs]; decide)
  unfold Material.emitOutput
  rw [h.stage]
  split
  · refine .bind (R := Eq) ?_ fun position _ _ _ heq =>
      .bind (R := Eq) ?_ fun normal _ _ _ heq' => ?_
    · unfold Material.position
      rw [hposition, h.readAttribute_eq]
      split
      · exact (h.concurs_input hP _).map fun _ _ heq => congrArg _ heq
      · exact .ok rfl
    · unfold Material.normal
      rw [hnormal]
      split
      · exact (h.concurs_input hP _).map fun _ _ heq => by rw [heq]
      · exact .ok rfl
    · rw [heq, heq']
      exact .ok rfl
  · refine .bind (h.concurs_input hP _) fun color _ _ _ heq =>
      .bind (h.concurs_input hP _) fun alpha _ _ _ heq' => ?_
    rw [heq, heq']
    exact .ok rfl

theorem concurs_materialAttribute (name : String) (type : PortType) :
    Concurs ρ Eq (Material.emitAttribute s name type) (Material.emitAttribute s' name type) := by
  unfold Material.emitAttribute
  rw [h.readAttribute_eq, h.stage, h.declare_eq hP, h.ref hP]
  split
  · exact .error (.unsupportedAttributeType s.ref name type)
  · exact .ok rfl

omit hP in
theorem concurs_readGlobal_material (output : String) :
    Concurs ρ Eq (Material.readGlobal s output) (Material.readGlobal s' output) := by
  unfold Material.readGlobal Site.readTime Site.readResolution
  rw [h.stage, h.readAttribute_eq, h.readAttribute_eq]
  split
  case h_3 => split <;> exact .ok rfl
  all_goals exact .ok rfl

end Material

section Points

variable (hP : Pairing ρ P) (h : s.Alike P s')
include hP h

omit hP in
theorem pointOf_eq : Points.pointOf s' = Points.pointOf s := by
  unfold Points.pointOf
  rw [h.context]

theorem concurs_pointsOutput (hk : s.node.kind = .output .points) :
    Concurs ρ Eq (Points.emitOutput s) (Points.emitOutput s') := by
  have hfed : Points.outputFields.filter s'.isFed = Points.outputFields.filter s.isFed := by
    refine List.filter_congr fun input hinput => h.isFed_eq hP ?_
    unfold Node.inputNames Node.inputs
    rw [hk]
    exact hinput
  unfold Points.emitOutput
  rw [hfed, h.stage]
  refine .bind (.mapM_eq fun name _ => (h.concurs_input hP name).map ?_) fun writes _ _ _ heq => ?_
  · rintro value _ rfl
    unfold Points.writeField
    rw [h.pointOf_eq]
  · rw [heq]
    exact .ok rfl

/-- The export of an attribute is one of its inputs. -/
theorem isFed_export {name : String} {type : PortType} (hk : s.node.kind = .attribute name type) :
    s'.isFed Kind.exportInput = s.isFed Kind.exportInput := by
  refine h.isFed_eq hP ?_
  unfold Node.inputNames Node.inputs
  rw [hk]
  exact List.mem_cons_self

theorem concurs_pointsAttribute {name : String} {type : PortType}
    (hk : s.node.kind = .attribute name type)
    (hused : s'.graph.isOutputConnected s'.node.id "value" =
      s.graph.isOutputConnected s.node.id "value") :
    Concurs ρ Eq (Points.emitAttribute s name type) (Points.emitAttribute s' name type) := by
  have hread : Points.readField s' name = Points.readField s name := by
    unfold Points.readField
    rw [h.pointOf_eq]
  have hwrite : Points.writeField s' name = Points.writeField s name := by
    funext value
    unfold Points.writeField
    rw [h.pointOf_eq]
  unfold Points.emitAttribute
  rw [hused, h.isFed_export hP hk, hread, hwrite, h.stage, h.declare_eq hP, h.ref hP]
  -- the one error names the node, which goes by the renaming; the rest is the same text
  by_cases hcomponents : type.components = 0
  · simp only [hcomponents, if_true]
    exact .error (.unsupportedAttributeType s.ref name type)
  · simp only [hcomponents, if_false]
    split
    · have hwrites := (h.concurs_input hP Kind.exportInput).map (S := Eq)
        fun _ _ heq => congrArg (fun value => [Points.writeField s name value]) heq
      refine .bind hwrites fun writes _ _ _ heq => ?_
      rw [heq]
      exact .ok rfl
    · exact .ok rfl

omit hP in
theorem concurs_readGlobal_points (output : String) :
    Concurs ρ Eq (Points.readGlobal s output) (Points.readGlobal s' output) := by
  unfold Points.readGlobal Site.readTime Site.readResolution Points.readField
  rw [h.stage, h.pointOf_eq]
  split <;> exact .ok rfl

end Points

section Particles

variable {table : Allocations} (hP : Pairing ρ P) (h : s.Alike P s')
include hP h

theorem concurs_allocation (name : String) :
    Concurs ρ Eq (Particles.allocation table s name) (Particles.allocation table s' name) := by
  unfold Particles.allocation
  cases table.get? name with
  | some a => exact .ok rfl
  | none =>
    rw [h.ref hP]
    exact .error (.unallocatedAttribute s.ref name)

theorem concurs_read (name : String) (type : PortType) :
    Concurs ρ Eq (Particles.read table s name type) (Particles.read table s' name type) := by
  refine .bind (h.concurs_allocation hP name) fun a _ _ _ heq => ?_
  rw [heq, h.stage]
  exact .ok rfl

theorem concurs_write (name : String) (type : PortType) (value : Operand) :
    Concurs ρ Eq (Particles.write table s name type value)
      (Particles.write table s' name type value) := by
  refine .bind (h.concurs_allocation hP name) fun a _ _ _ heq => ?_
  rw [heq]
  exact .ok rfl

theorem concurs_particlesOutput (hk : s.node.kind = .output .particles) :
    Concurs ρ Eq (Particles.emitOutput table s) (Particles.emitOutput table s') := by
  have hwritten : (Particles.outputAttributes.filter fun name =>
        Particles.isOwned table name s'.stage && s'.isFed name) =
      Particles.outputAttributes.filter fun name =>
        Particles.isOwned table name s.stage && s.isFed name := by
    refine List.filter_congr fun input hinput => ?_
    have hmem : input ∈ s.node.inputNames := by
      unfold Node.inputNames Node.inputs
      rw [hk]
      exact hinput
    rw [h.stage, h.isFed_eq hP hmem]
  unfold Particles.emitOutput
  rw [hwritten, h.stage]
  refine .bind (.mapM_eq fun name _ => ?_) fun writes _ _ _ heq => ?_
  · refine .bind (h.concurs_input hP name) fun value _ _ _ heq => ?_
    rw [heq]
    exact h.concurs_write hP name .vector3 _
  · rw [heq]
    exact .ok rfl

theorem concurs_particlesAttribute {name : String} {type : PortType}
    (hk : s.node.kind = .attribute name type)
    (hused : s'.graph.isOutputConnected s'.node.id "value" =
      s.graph.isOutputConnected s.node.id "value") :
    Concurs ρ Eq (Particles.emitAttribute table s name type)
      (Particles.emitAttribute table s' name type) := by
  rw [Particles.emitAttribute_eq, Particles.emitAttribute_eq]
  refine .bind (R := Eq) ?_ fun readings _ _ _ heq =>
    .bind (R := Eq) ?_ fun writes _ _ _ heq' => ?_
  · unfold Particles.readings
    rw [hused]
    split
    · exact (h.concurs_read hP name type).map fun _ _ heq => by rw [heq]
    · exact .ok rfl
  · unfold Particles.writes
    rw [h.isFed_export hP hk, h.stage]
    split
    · refine .bind (h.concurs_input hP _) fun value _ _ _ heq => ?_
      rw [heq]
      exact (h.concurs_write hP name type _).map fun _ _ heq => by rw [heq]
    · exact .ok rfl
  · unfold Site.exchange
    rw [heq, heq', h.declare_eq hP, h.stage]
    exact .ok rfl

theorem concurs_readGlobal_particles (output : String) :
    Concurs ρ Eq (Particles.readGlobal table s output)
      (Particles.readGlobal table s' output) := by
  unfold Particles.readGlobal
  split
  case h_4 => exact h.concurs_read hP "position" .vector3
  case h_1 =>
    unfold Site.readTime
    rw [h.stage]
    exact .ok rfl
  all_goals exact .ok rfl

end Particles

section Backend

variable (hP : Pairing ρ P) (h : s.Alike P s')
include hP h

theorem concurs_output {target : Target} (hk : s.node.kind = .output target)
    (hsupported : b.supports s.node.kind = true) :
    Concurs ρ Eq (b.emitOutput s) (b.emitOutput s') := by
  have htarget : target = b.target := by
    rw [hk] at hsupported
    cases b <;> exact beq_iff_eq.mp hsupported
  rw [htarget] at hk
  cases b with
  | material => exact h.concurs_materialOutput hP hk
  | particles table => exact h.concurs_particlesOutput hP hk
  | points => exact h.concurs_pointsOutput hP hk

theorem concurs_attribute {name : String} {type : PortType}
    (hk : s.node.kind = .attribute name type) (hused : s.UsedAs b s') :
    Concurs ρ Eq (b.emitAttribute s name type) (b.emitAttribute s' name type) := by
  have hvalue : b ≠ .material → s'.graph.isOutputConnected s'.node.id "value" =
      s.graph.isOutputConnected s.node.id "value" := by
    intro hb
    refine hused ?_ "value" ?_
    · rw [hk]
      exact hb
    · unfold Node.outputs
      rw [hk]
      exact List.mem_cons_self
  cases b with
  | material => exact h.concurs_materialAttribute hP name type
  | particles table => exact h.concurs_particlesAttribute hP hk (hvalue nofun)
  | points => exact h.concurs_pointsAttribute hP hk (hvalue nofun)

theorem concurs_readGlobal (output : String) :
    Concurs ρ Eq (b.readGlobal s output) (b.readGlobal s' output) := by
  cases b with
  | material => exact h.concurs_readGlobal_material output
  | particles table => exact h.concurs_readGlobal_particles hP output
  | points => exact h.concurs_readGlobal_points output

/-- **Related nodes without networks add the same to a program.** -/
theorem concurs_leaf (hsupported : b.supports s.node.kind = true) (hused : s.UsedAs b s') :
    Concurs ρ Eq (b.emitLeaf s s.node.kind) (b.emitLeaf s' s.node.kind) := by
  cases hk : s.node.kind with
  | constant value =>
    refine .ok ?_
    rw [h.stage, h.declare_eq hP]
  | param name type default => exact .ok (h.emitParam_eq hP name type default).symm
  | math op type =>
    refine .bind (h.concurs_inputs hP _) fun args _ _ _ heq => ?_
    rw [heq, h.stage, h.declare_eq hP]
    exact .ok rfl
  | globals => exact h.concurs_globals hP hused (by rw [hk]; trivial) (h.concurs_readGlobal hP)
  | «attribute» name type => exact h.concurs_attribute hP hk hused
  | varyingWrite name type => exact h.concurs_varyingWrite hP name type
  | varyingRead name type => exact .ok (h.emitVaryingRead_eq hP name type).symm
  | function name inputs _ => exact h.concurs_call hP name inputs
  | output target => exact h.concurs_output hP hk hsupported
  | subnetOutput _ => exact h.concurs_bridge hP
  | subnetInput _ | subnet _ => exact .ok rfl

end Backend

end Site.Alike

end ShaderFlow
