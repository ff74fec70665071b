/-
  ShaderFlow.Proofs.Leaves — what nodes without a network add to a program.

  Whatever its kind and whatever the backend, a node without a network brings the
  declarations of what it names, reads variables only through the inputs that matter in its
  stage, and declares variables of its own only.

  Main definitions:
    * `Site.Fetches` — the variables that a node may read;
    * `Site.Tidy`    — statements that keep to the variables of their node.

  Main statements:
    * `Site.input_spec`  — what an input evaluates to;
    * `leaf_of_emitLeaf` — every kind of node, in every backend;
    * `Backend.isComputation_of_emitLeaf` — nodes that have nothing to do with the outside.
-/

import ShaderFlow.Proofs.Names
import ShaderFlow.Proofs.Shapes

namespace ShaderFlow

open Contribution

variable {b : Backend} {s : Site}

/-! ## §1. Variables of a node -/

/-- The variables that feed an input of a node. -/
def Site.Feeds (s : Site) (input x : String) : Prop :=
  ∃ c source, s.graph.inputSource? s.node.id input = some c ∧
    s.graph.node? c.source = some source ∧ x = s.variableOf source c.output

/-- The variables that feed the inputs of a node which matter in its stage. -/
def Site.Fetches (b : Backend) (s : Site) (x : String) : Prop :=
  ∃ input ∈ s.node.inputNames,
    (b.follows s.stage s.node).allows input = true ∧ s.Feeds input x

/-- The variables outside a subnet that the node which collects its outputs assigns: those of its
    inputs that are fed. -/
def Site.Bridges (s : Site) (x : String) : Prop :=
  s.node.kind.isSubnetOutput = true ∧
    ∃ input ∈ s.node.inputNames, s.isFed input = true ∧ x = s.scope.outputVar input

/-- The variables that a node declares for the end of a stage. -/
def Backend.results (b : Backend) (stage : Stage) : Kind → List String
  | .output _ =>
    match b, stage with
    | .material, .vertex => ["transformed"]
    | .material, _ => ["diffuseColor"]
    | _, _ => []
  | _ => []

/-- Whether a stage has something to do at a node: it has no inputs, it reads some of them, or
    it has outputs that something else may ask for. -/
def Backend.Engages (b : Backend) (stage : Stage) (n : Node) : Prop :=
  n.inputs = [] ∨ (b.follows stage n).isEmpty = false ∨ n.outputs ≠ []

/-- Statements of a node that keep to its variables. -/
structure Site.Tidy (b : Backend) (s : Site) (body : List Statement) : Prop where
  plain : ∀ st ∈ body, st.isPlain = true
  reads : b.Engages s.stage s.node → ∀ st ∈ body, ∀ x ∈ st.locals, s.Fetches b x ∨ s.Bridges x
  declares : (declaredIn body).Sublist
    (b.results s.stage s.node.kind ++ s.node.variables s.scope)
  /-- An output that feeds something has its variable. -/
  offers : s.node.kind.isSubnetInput = false → ∀ output ∈ s.node.outputs.map (·.name),
    s.graph.isOutputConnected s.node.id output = true → s.varName output ∈ declaredIn body

/-- What a node adds to its own stage, when it adds nothing to others. -/
def Site.Adds (s : Site) (cs : List Contribution) (body : List Statement) : Prop :=
  ∀ stage, written stage cs = if s.stage = stage then body else []

/-- What is proved of the contributions of a node without a network. -/
def Site.Leaf (b : Backend) (s : Site) (cs : List Contribution) : Prop :=
  SelfContained b s.context.config s.stage cs ∧ s.Tidy b (written s.stage cs)

/-! ## §2. Inputs -/

/-- **What an input evaluates to** names nothing outside the body and reads at most the
    variable that feeds it. -/
theorem Site.input_spec {name : String} {o : Operand} (h : s.input name = .ok o) :
    name ∈ s.node.inputNames ∧ o.globals = [] ∧ ∀ x ∈ o.locals, s.Feeds name x := by
  unfold input at h
  split at h
  next => cases h
  next port hport =>
    have hname : name ∈ s.node.inputNames := by
      have hmem := List.mem_of_find?_eq_some hport
      have heq : port.name = name := by simpa using List.find?_some hport
      exact List.mem_map.mpr ⟨port, hmem, heq⟩
    refine ⟨hname, ?_⟩
    split at h
    -- the one variable that it may read is that of the output which feeds it
    next c hc =>
      split at h
      next => cases h
      next source hsource =>
        cases h
        refine ⟨by simp [Operand.globals], ?_⟩
        intro x hx
        simp only [Operand.locals_as, Operand.locals, List.mem_singleton] at hx
        exact ⟨c, source, hc, hsource, hx⟩
    next =>
      split at h
      · cases h
      · split at h <;>
        · cases h
          simp [Operand.globals, Operand.locals]

theorem Site.inputs_spec {names : List String} {args : List Operand}
    (h : s.inputs names = .ok args) :
    ∀ o ∈ args, ∃ name ∈ names, s.input name = .ok o :=
  fun _ ho => exists_of_mem_mapM h ho

/-- Most kinds read all their inputs in every stage. -/
theorem Backend.follows_eq_all (b : Backend) (stage : Stage) {n : Node}
    (h : match n.kind with
      | .output _ | .attribute .. | .varyingWrite .. => False
      | _ => True) : b.follows stage n = .all := by
  cases b <;> cases hk : n.kind <;> simp_all [follows, Material.follows, Particles.follows]

theorem Site.fetches_of_input {name : String} {o : Operand} (h : s.input name = .ok o)
    (hallow : (b.follows s.stage s.node).allows name = true) :
    ∀ x ∈ o.locals, s.Fetches b x := by
  obtain ⟨hname, _, hlocals⟩ := s.input_spec h
  exact fun x hx => ⟨name, hname, hallow, hlocals x hx⟩

/-! ## §3. Readings -/

/-- An operand that reads no variable, with contributions that bring what it names and write
    nothing into the stage. -/
structure Reading.Contained (b : Backend) (config : Config) (home : Stage) (r : Reading) :
    Prop where
  contained : SelfContained b config home r.contributions
  silent : written home r.contributions = []
  covered : ∀ key ∈ r.operand.globals,
    key ∈ keys home r.contributions ∨ b.Provides config home key
  locals : r.operand.locals = []

namespace Reading.Contained

variable {config : Config} {home : Stage}

/-- A reading that writes nothing into any stage. -/
theorem of_silent {r : Reading}
    (h : ∀ c ∈ r.contributions, ∀ stage entries repetition, c ≠ .write stage entries repetition)
    (hcovered : ∀ key ∈ r.operand.globals,
      key ∈ keys home r.contributions ∨ b.Provides config home key)
    (hlocals : r.operand.locals = []) : r.Contained b config home where
  contained := .of_silent h
  silent := written_of_silent h
  covered := hcovered
  locals := hlocals

theorem readTime : s.readTime.Contained b config s.stage :=
  of_silent (by simp [Site.readTime])
    (by simp [Site.readTime, Operand.globals, Declaration.key, Declaration.kind, Declaration.name])
    rfl

theorem readResolution : s.readResolution.Contained b config s.stage :=
  of_silent (by simp [Site.readResolution])
    (by simp [Site.readResolution, Operand.globals, Declaration.key, Declaration.kind,
      Declaration.name])
    rfl

theorem readField (name : String) : (Points.readField s name).Contained b config s.stage :=
  of_silent (by simp [Points.readField]) (by simp [Points.readField, Operand.globals]) rfl

/-- An attribute of a material is relayed to every stage but the vertex stage. -/
theorem readAttribute (name : String) (type : PortType) :
    (Material.readAttribute s name type).Contained b config s.stage := by
  unfold Material.readAttribute
  split
  next hvertex =>
    refine of_silent (by simp) ?_ rfl
    simp [hvertex, Operand.globals, Declaration.key, Declaration.kind, Declaration.name]
  next hother =>
    have hne : Stage.vertex ≠ s.stage := fun heq => hother heq.symm
    refine ⟨⟨?_, ?_, ?_⟩, ?_, ?_, rfl⟩
    · simp [hne.symm]
    · intro stage _ st hst
      simp only [List.cons_append, List.nil_append, written_note, written_define, written_write,
        written_nil, List.append_nil] at hst
      split at hst
      next =>
        simp only [List.map_cons, List.map_nil, List.mem_singleton] at hst
        exact ⟨name, hst⟩
      next => simp at hst
    · intro stage st hst key hkey
      simp only [List.cons_append, List.nil_append, written_note, written_define, written_write,
        written_nil, List.append_nil] at hst
      split at hst
      next hvertex =>
        subst hvertex
        simp only [List.map_cons, List.map_nil, List.mem_singleton] at hst
        subst hst
        left
        simp only [Statement.globals, Place.globals, Expr.globals, Expr.operands,
          Operand.globals, List.flatMap_cons, List.flatMap_nil, List.nil_append,
          List.append_nil, List.cons_append, List.mem_cons, List.not_mem_nil, or_false] at hkey
        rcases hkey with rfl | rfl <;>
          simp [Declaration.key, Declaration.kind, Declaration.name]
      next => simp at hst
    · simp [hne]
    · simp [Operand.globals, Declaration.key, Declaration.kind, Declaration.name]

theorem readChannels {table : Allocations} {name : String} {type : PortType} {r : Reading}
    (h : Particles.read table s name type = .ok r) : r.Contained b config s.stage := by
  obtain ⟨a, _, hr⟩ := bind_eq_ok.mp h
  rw [pure_eq_ok] at hr
  subst hr
  refine of_silent (by simp) ?_ (by simp [Operand.locals])
  simp [Operand.globals, Declaration.key, Declaration.kind, Declaration.name]

end Reading.Contained

/-- What the host provides is read in order, whatever the backend. -/
theorem Backend.ReadsGlobal.contained {output : String} {r : Reading}
    (h : b.ReadsGlobal s output r) : r.Contained b s.context.config s.stage := by
  have hsilent : ∀ o : Operand, o.globals = [] → o.locals = [] →
      Reading.Contained b s.context.config s.stage { operand := o } :=
    fun o hglobals hlocals => .of_silent (by simp) (by simp [hglobals]) hlocals
  cases h with
  | time => exact .readTime
  | resolution _ => exact .readResolution
  | noted =>
    refine .of_silent (by simp) ?_ rfl
    simp [Operand.globals, Backend.Provides, Backend.baseKeys, Backend.declarations,
      Particles.declarations, Declaration.key, Declaration.kind, Declaration.name]
  | fragCoord hoperand =>
    rcases hoperand with rfl | rfl
    · exact hsilent _ rfl rfl
    · exact hsilent _ rfl rfl
  | position => exact .readAttribute _ _
  | uv _ => exact .readAttribute _ _
  | sampled hread => exact .readChannels hread
  | place _ => exact hsilent _ rfl rfl
  | field _ => exact .readField _

theorem Backend.Gets.contained {name : String} {type : PortType} {r : Reading}
    (h : b.Gets s name type r) : r.Contained b s.context.config s.stage := by
  cases h with
  | particles hread => exact .readChannels hread
  | points => exact .readField name

/-! ## §4. Nodes -/

namespace Site

/-- Statements behind contributions that bring what the statements name. -/
theorem leaf_of_body {cs : List Contribution} {body : List Statement}
    (hcs : SelfContained b s.context.config s.stage cs) (hsilent : written s.stage cs = [])
    (hcovered : ∀ st ∈ body, ∀ key ∈ st.globals,
      key ∈ keys s.stage cs ∨ b.Provides s.context.config s.stage key)
    (htidy : s.Tidy b body) : s.Leaf b (cs ++ [.statements s.stage body]) := by
  refine ⟨hcs.statements hcovered, ?_⟩
  simpa [hsilent] using htidy

theorem variableOf_eq {n : Node} (h : n.kind.isSubnetInput = false) (output : String) :
    s.variableOf n output = s.scope.varName n.name output := by
  rw [variableOf, h]
  rfl

/-- The variables of a node without a network are those of its outputs. -/
theorem variables_eq {scope : Scope} {n : Node}
    (h : match n.kind with
      | .subnet _ | .subnetInput _ => False
      | _ => True) :
    n.variables scope = (n.outputs.map (·.name)).map (scope.varName n.name) := by
  unfold Node.variables
  cases hk : n.kind <;> simp_all

/-- A node with one output declares it, with a value that reads what the node may read. -/
theorem tidy_declare {output : String} {value : Expr}
    (hkind : match s.node.kind with
      | .subnet _ | .subnetInput _ => False
      | _ => True)
    (houtputs : s.node.outputs.map (·.name) = [output])
    (hvalue : ∀ x ∈ value.locals, s.Fetches b x) : s.Tidy b [s.declare output value] where
  plain := by simp [declare, Statement.isPlain]
  reads := by
    intro _ st hst x hx
    rw [List.mem_singleton] at hst
    subst hst
    exact .inl (hvalue x hx)
  declares := by
    have hname : s.node.kind.isSubnetInput = false := by
      cases hk : s.node.kind <;> simp_all [Kind.isSubnetInput]
    rw [variables_eq hkind, houtputs]
    simp [declare, Statement.declared, varName, variableOf_eq hname]
  offers := by
    intro _ o ho _
    rw [houtputs, List.mem_singleton] at ho
    simp [ho, declare, Statement.declared]

/-- A node with one output that declares it, behind contributions that write nothing. -/
theorem leaf_declare {cs : List Contribution} {output : String} {value : Expr}
    (hcs : ∀ c ∈ cs, ∀ stage entries repetition, c ≠ .write stage entries repetition)
    (hkind : match s.node.kind with
      | .subnet _ | .subnetInput _ => False
      | _ => True)
    (houtputs : s.node.outputs.map (·.name) = [output])
    (hcovered : ∀ key ∈ value.globals,
      key ∈ keys s.stage cs ∨ b.Provides s.context.config s.stage key)
    (hvalue : ∀ x ∈ value.locals, s.Fetches b x) :
    s.Leaf b (cs ++ [.statements s.stage [s.declare output value]]) := by
  refine leaf_of_body (.of_silent hcs) (written_of_silent hcs) ?_
    (tidy_declare hkind houtputs hvalue)
  intro st hst
  rw [List.mem_singleton.mp hst]
  exact hcovered

/-- A node whose outputs feed nothing need not write anything. -/
theorem tidy_nil (h : s.node.kind.isSubnetInput = false → ∀ output ∈ s.node.outputs.map (·.name),
    s.graph.isOutputConnected s.node.id output = false) : s.Tidy b [] where
  plain := by simp
  reads := by simp
  declares := List.nil_sublist _
  offers := by
    intro hk output houtput hconnected
    rw [h hk output houtput] at hconnected
    cases hconnected

/-- Assignments from what a node may read, to places that are no variables or to those that
    it bridges to, change none of this. -/
theorem Tidy.assigns {body more : List Statement} (h : s.Tidy b body)
    (hmore : ∀ st ∈ more, ∃ place value, st = .assign place value ∧
      (∀ x ∈ place.locals, s.Bridges x) ∧
      (b.Engages s.stage s.node → ∀ x ∈ value.locals, s.Fetches b x)) :
    s.Tidy b (body ++ more) := by
  have hnone : declaredIn more = [] := by
    rw [declaredIn, List.flatMap_eq_nil_iff]
    intro st hst
    obtain ⟨place, value, rfl, _⟩ := hmore st hst
    rfl
  constructor
  case plain =>
    intro st hst
    rcases List.mem_append.mp hst with hst | hst
    · exact h.plain st hst
    · obtain ⟨place, value, rfl, _⟩ := hmore st hst
      rfl
  case reads =>
    intro hengaged st hst x hx
    rcases List.mem_append.mp hst with hst | hst
    · exact h.reads hengaged st hst x hx
    · obtain ⟨place, value, rfl, hplace, hvalue⟩ := hmore st hst
      rcases List.mem_append.mp hx with hx | hx
      · exact .inr (hplace x hx)
      · exact .inl (hvalue hengaged x hx)
  case declares =>
    rw [declaredIn_append, hnone, List.append_nil]
    exact h.declares
  case offers =>
    rw [declaredIn_append, hnone, List.append_nil]
    exact h.offers

/-- A value that is written to a place outside the body, with a note for the host. -/
def Stores (b : Backend) (s : Site) (write : Contribution × Statement) : Prop :=
  ∃ note place value, write = (.note note, .assign place value) ∧ place.locals = [] ∧
    place.globals = [] ∧ value.globals = [] ∧ ∀ x ∈ value.locals, s.Fetches b x

theorem leaf_exchange {readings : List Reading} {writes : List (Contribution × Statement)}
    (hreadings : ∀ r ∈ readings, r.Contained b s.context.config s.stage)
    (hwrites : ∀ write ∈ writes, s.Stores b write)
    (htidy : s.Tidy b (readings.map fun r => s.declare "value" (.operand r.operand))) :
    s.Leaf b (s.exchange readings writes) := by
  have hnotes : ∀ c ∈ writes.map (·.1), ∀ stage entries repetition,
      c ≠ .write stage entries repetition := by
    intro c hc stage entries repetition
    obtain ⟨write, hwrite, rfl⟩ := List.mem_map.mp hc
    obtain ⟨note, place, value, rfl, _⟩ := hwrites write hwrite
    simp
  have hquiet : ∀ stage, written stage (writes.map (·.1)) = [] := by
    refine fun stage => written_of_notes fun c hc => ?_
    obtain ⟨write, hwrite, rfl⟩ := List.mem_map.mp hc
    obtain ⟨note, place, value, rfl, _⟩ := hwrites write hwrite
    exact ⟨note, rfl⟩
  -- what is written comes behind what is declared, and its notes say nothing in any stage
  refine leaf_of_body ?_ ?_ ?_ (htidy.assigns ?_)
  · exact (SelfContained.flatMap fun r hr => (hreadings r hr).contained).append (.of_silent hnotes)
  · rw [written_append, hquiet, List.append_nil]
    exact written_flatMap_eq_nil fun r hr => (hreadings r hr).silent
  · intro st hst key hkey
    rcases List.mem_append.mp hst with hst | hst
    · obtain ⟨r, hr, rfl⟩ := List.mem_map.mp hst
      have hglobals : key ∈ r.operand.globals := by
        simpa [declare, Statement.globals, Expr.globals, Expr.operands] using hkey
      refine ((hreadings r hr).covered key hglobals).imp_left fun hmem => ?_
      rw [keys_append, List.mem_append]
      left
      simp only [keys, declarations, List.mem_map, List.mem_flatMap] at hmem ⊢
      obtain ⟨d, ⟨c, hc, hd⟩, hdkey⟩ := hmem
      exact ⟨d, ⟨c, ⟨r, hr, hc⟩, hd⟩, hdkey⟩
    · obtain ⟨write, hwrite, rfl⟩ := List.mem_map.mp hst
      obtain ⟨note, place, value, rfl, _, hplace, hvalue, _⟩ := hwrites write hwrite
      simp [Statement.globals, hplace, hvalue] at hkey
  · intro st hst
    obtain ⟨write, hwrite, rfl⟩ := List.mem_map.mp hst
    obtain ⟨note, place, value, rfl, hplace, _, _, hvalue⟩ := hwrites write hwrite
    exact ⟨place, value, rfl, by simp [hplace], fun _ => hvalue⟩

end Site

/-! ## §5. Kinds -/

variable {cs : List Contribution}

theorem leaf_constant {value : Value} (hk : s.node.kind = .constant value) :
    s.Leaf b [.statements s.stage [s.declare "value" (.operand (.literal value))]] := by
  refine Site.leaf_declare (List.forall_mem_nil _) (by rw [hk]; trivial) ?_ ?_ ?_
  · simp [Node.outputs, hk, Kind.outputs, Port.output]
  · simp [Expr.globals, Expr.operands, Operand.globals]
  · simp [Expr.locals, Expr.operands, Operand.locals]

theorem leaf_param {name : String} {type : PortType} {default : Value}
    (hk : s.node.kind = .param name type default) :
    s.Leaf b (Backend.emitParam s name type default) := by
  have hsilent : ∀ c ∈ [Contribution.define s.stage [.uniform type (Backend.paramUniform name)],
      .note (.param { node := s.ref.path, param := name, uniform := Backend.paramUniform name,
                      type, default })],
      ∀ stage entries repetition, c ≠ .write stage entries repetition := by simp
  refine Site.leaf_declare hsilent (by rw [hk]; trivial) ?_ ?_ ?_
  · simp [Node.outputs, hk, Kind.outputs, Port.output]
  · simp [Expr.globals, Expr.operands, Operand.globals, Declaration.key, Declaration.kind,
      Declaration.name]
  · simp [Expr.locals, Expr.operands, Operand.locals]

theorem leaf_varyingRead {name : String} {type : PortType}
    (hk : s.node.kind = .varyingRead name type) :
    s.Leaf b (Backend.emitVaryingRead s name type) := by
  have hsilent : ∀ c ∈ [Contribution.define s.stage [.varying type (Backend.varyingName name)]],
      ∀ stage entries repetition, c ≠ .write stage entries repetition := by simp
  refine Site.leaf_declare hsilent (by rw [hk]; trivial) ?_ ?_ ?_
  · simp [Node.outputs, hk, Kind.outputs, Port.output]
  · simp [Expr.globals, Expr.operands, Operand.globals, Declaration.key, Declaration.kind,
      Declaration.name]
  · simp [Expr.locals, Expr.operands, Operand.locals]

/-- Arguments that are inputs read what the node may read and name nothing else. -/
theorem Site.arguments_spec {names : List String} {args : List Operand}
    (h : s.inputs names = .ok args) (hall : b.follows s.stage s.node = .all) :
    (args.flatMap Operand.globals = []) ∧
      ∀ x ∈ args.flatMap Operand.locals, s.Fetches b x := by
  constructor
  · rw [List.flatMap_eq_nil_iff]
    intro o ho
    obtain ⟨name, _, hinput⟩ := s.inputs_spec h o ho
    exact (s.input_spec hinput).2.1
  · intro x hx
    obtain ⟨o, ho, hxo⟩ := List.mem_flatMap.mp hx
    obtain ⟨name, _, hinput⟩ := s.inputs_spec h o ho
    exact s.fetches_of_input hinput (by rw [hall]; rfl) x hxo

theorem leaf_math {op : MathOp} {type : PortType} {args : List Operand}
    (hk : s.node.kind = .math op type) (hargs : s.inputs (op.operands.map (·.1)) = .ok args) :
    s.Leaf b [.statements s.stage [s.declare "result" (.math op args)]] := by
  obtain ⟨hglobals, hlocals⟩ := Site.arguments_spec (b := b) hargs
    (b.follows_eq_all s.stage (by rw [hk]; trivial))
  refine Site.leaf_declare (List.forall_mem_nil _) (by rw [hk]; trivial) ?_ ?_ hlocals
  · simp [Node.outputs, hk, Kind.outputs, Port.output]
  · simp [Expr.globals, Expr.operands, hglobals]

theorem leaf_call {name : String} {inputs : List PortSpec} {output : PortType}
    {f : ShaderFunction} {args : List Operand} (hk : s.node.kind = .function name inputs output)
    (hargs : s.inputs (inputs.map (·.name)) = .ok args) :
    s.Leaf b [.define s.stage [.function f.output f.name f.source],
      .statements s.stage [s.declare "result" (.call f.name args)]] := by
  obtain ⟨hglobals, hlocals⟩ := Site.arguments_spec (b := b) hargs
    (b.follows_eq_all s.stage (by rw [hk]; trivial))
  have hsilent : ∀ c ∈ [Contribution.define s.stage [.function f.output f.name f.source]],
      ∀ stage entries repetition, c ≠ .write stage entries repetition := by simp
  refine Site.leaf_declare hsilent (by rw [hk]; trivial) ?_ ?_ hlocals
  · simp [Node.outputs, hk, Kind.outputs, Port.output]
  · simp [Expr.globals, Expr.operands, hglobals, Declaration.key, Declaration.kind,
      Declaration.name]

theorem leaf_bridge {ports : List PortSpec} {body : List Statement}
    (hk : s.node.kind = .subnetOutput ports)
    (hbody : List.Forall₂ (fun name st => ∃ value, s.input name = .ok value ∧
        st = .assign (.var (s.scope.outputVar name)) (.operand value))
      (s.node.inputNames.filter s.isFed) body) :
    s.Leaf b [.statements s.stage body] := by
  have hassign : ∀ st ∈ body, ∃ name ∈ s.node.inputNames.filter s.isFed, ∃ o,
      s.input name = .ok o ∧ st = .assign (.var (s.scope.outputVar name)) (.operand o) :=
    fun st hst => exists_mem_of_forall₂ hbody.flip st hst
  have hnil : s.Tidy b [] := Site.tidy_nil (by simp [Node.outputs, hk, Kind.outputs])
  refine Site.leaf_of_body .nil rfl ?_ (hnil.assigns ?_)
  · intro st hst key hkey
    obtain ⟨name, _, o, ho, rfl⟩ := hassign st hst
    simp [Statement.globals, Place.globals, Expr.globals, Expr.operands,
      (s.input_spec ho).2.1] at hkey
  · intro st hst
    obtain ⟨name, hname, o, ho, rfl⟩ := hassign st hst
    refine ⟨_, _, rfl, ?_, ?_⟩
    · intro x hx
      simp only [Place.locals, List.mem_singleton] at hx
      obtain ⟨hinput, hfed⟩ := List.mem_filter.mp hname
      exact ⟨by rw [hk]; rfl, name, hinput, hfed, hx⟩
    · intro _
      have hall := b.follows_eq_all s.stage (n := s.node) (by rw [hk]; trivial)
      simpa [Expr.locals, Expr.operands] using s.fetches_of_input ho (by rw [hall]; rfl)

/-- Outputs that are declared in order have their variables in order. -/
theorem Site.declaredIn_declareAll :
    ∀ {outputs : List String} {readings : List Reading}, outputs.length = readings.length →
      declaredIn (s.declareAll outputs readings) = outputs.map s.varName
  | [], [], _ => rfl
  | output :: outputs, r :: readings, h => by
    have hlen : outputs.length = readings.length := by simpa using h
    rw [declareAll, List.zipWith_cons_cons, declaredIn_cons, ← declareAll,
      Site.declaredIn_declareAll hlen]
    rfl

theorem leaf_globals {readings : List Reading} (hk : s.node.kind = .globals)
    (hfound : s.graph.node? s.node.id = some s.node)
    (hreadings : List.Forall₂ (b.ReadsGlobal s) (s.graph.connectedOutputs s.node.id) readings) :
    s.Leaf b (readings.flatMap (·.contributions) ++
      [.statements s.stage (s.declareAll (s.graph.connectedOutputs s.node.id) readings)]) := by
  have houtputs : s.graph.connectedOutputs s.node.id =
      (s.node.outputs.map (·.name)).filter (s.graph.isOutputConnected s.node.id) := by
    rw [Graph.connectedOutputs, hfound]
  have hname : s.node.kind.isSubnetInput = false := by rw [hk]; rfl
  have hcontained : ∀ r ∈ readings, r.Contained b s.context.config s.stage := by
    intro r hr
    obtain ⟨output, _, hread⟩ := exists_mem_of_forall₂ hreadings.flip r hr
    exact hread.contained
  refine Site.leaf_of_body ?_ ?_ ?_ ⟨?_, ?_, ?_, ?_⟩
  · exact .flatMap fun r hr => (hcontained r hr).contained
  · exact written_flatMap_eq_nil fun r hr => (hcontained r hr).silent
  · intro st hst key hkey
    obtain ⟨output, r, hr, rfl⟩ := Site.mem_declareAll hst
    have hglobals : key ∈ r.operand.globals := by
      simpa [Site.declare, Statement.globals, Expr.globals, Expr.operands] using hkey
    refine ((hcontained r hr).covered key hglobals).imp_left fun hmem => ?_
    simp only [keys, declarations, List.mem_map, List.mem_flatMap] at hmem ⊢
    obtain ⟨d, ⟨c, hc, hd⟩, hdkey⟩ := hmem
    exact ⟨d, ⟨c, ⟨r, hr, hc⟩, hd⟩, hdkey⟩
  · intro st hst
    obtain ⟨output, r, _, rfl⟩ := Site.mem_declareAll hst
    rfl
  · intro _ st hst x hx
    obtain ⟨output, r, hr, rfl⟩ := Site.mem_declareAll hst
    simp [Site.declare, Statement.locals, Expr.locals, Expr.operands,
      (hcontained r hr).locals] at hx
  · rw [Site.declaredIn_declareAll hreadings.length_eq, Site.variables_eq (by rw [hk]; trivial), houtputs]
    have hvars : s.varName = s.scope.varName s.node.name := by
      funext output
      exact Site.variableOf_eq hname output
    rw [hvars]
    exact (List.filter_sublist.map _).trans (List.sublist_append_right _ _)
  · intro _ output houtput hconnected
    rw [Site.declaredIn_declareAll hreadings.length_eq, houtputs]
    exact List.mem_map_of_mem (List.mem_filter.mpr ⟨houtput, hconnected⟩)

/-- Where nothing asks for the outputs of a node that writes a varying, its stage reads its
    input. -/
theorem follows_of_varyingWrite {name : String} {type : PortType}
    (hk : s.node.kind = .varyingWrite name type) (hengaged : b.Engages s.stage s.node) :
    b.follows s.stage s.node = .all := by
  have hfollows : (b.follows s.stage s.node).isEmpty = false := by
    rcases hengaged with hinputs | hfollows | houtputs
    · simp [Node.inputs, hk, Kind.inputs] at hinputs
    · exact hfollows
    · simp [Node.outputs, hk, Kind.outputs] at houtputs
  cases b with
  | material =>
    simp only [Backend.follows, hk] at hfollows ⊢
    cases hstage : s.stage <;> rw [hstage] at hfollows <;>
      first
      | rfl
      | cases hfollows
  | particles table => simp [Backend.follows, Particles.follows, hk]
  | points => rfl

theorem leaf_varyingWrite {name : String} {type : PortType} {value : Operand}
    (hk : s.node.kind = .varyingWrite name type) (hvalue : s.input "value" = .ok value) :
    s.Leaf b ([.define s.stage [.varying type (Backend.varyingName name)]] ++
      (if s.stage = .vertex then
        [.define .fragment [.varying type (Backend.varyingName name)]] else []) ++
      [.statements s.stage
        [.assign (.varying (Backend.varyingName name)) (.operand value)]]) := by
  have hnil : s.Tidy b [] := Site.tidy_nil (by simp [Node.outputs, hk, Kind.outputs])
  refine Site.leaf_of_body (.of_silent ?_) ?_ ?_ (hnil.assigns ?_)
  · split <;> simp
  · split <;> simp
  · intro st hst key hkey
    simp only [List.mem_singleton] at hst
    subst hst
    left
    simp only [Statement.globals, Place.globals, Expr.globals, Expr.operands,
      List.flatMap_cons, List.flatMap_nil, (s.input_spec hvalue).2.1, List.append_nil,
      List.mem_singleton] at hkey
    simp [hkey, Declaration.key, Declaration.kind, Declaration.name]
  · intro st hst
    simp only [List.mem_singleton] at hst
    refine ⟨_, _, hst, by simp [Place.locals], fun hengaged => ?_⟩
    have hall := follows_of_varyingWrite hk hengaged
    simpa [Expr.locals, Expr.operands] using s.fetches_of_input hvalue (by rw [hall]; rfl)

/-! ## §6. Output nodes -/

theorem Backend.Puts.stores {name : String} {type : PortType} {value : Operand}
    {write : Contribution × Statement} (h : b.Puts s name type value write)
    (hglobals : value.globals = []) (hlocals : ∀ x ∈ value.locals, s.Fetches b x) :
    s.Stores b write := by
  cases h with
  | particles hwrite =>
    obtain ⟨a, _, hwrite⟩ := bind_eq_ok.mp hwrite
    rw [pure_eq_ok] at hwrite
    subst hwrite
    refine ⟨_, _, _, rfl, rfl, rfl, ?_, ?_⟩
    · simp [Expr.globals, Expr.operands, hglobals]
    · simpa [Expr.locals, Expr.operands] using hlocals
  | points =>
    refine ⟨_, _, _, rfl, rfl, rfl, ?_, ?_⟩
    · simp [Expr.globals, Expr.operands, hglobals]
    · simpa [Expr.locals, Expr.operands] using hlocals

/-- The inputs that a stage of a material reads of its output node. -/
theorem Material.allows_output {target : Target} {name : String}
    (hk : s.node.kind = .output target)
    (h : if s.stage = .vertex then name ∈ ["position", "normal"] else name ∈ ["color", "alpha"]) :
    (Backend.material.follows s.stage s.node).allows name = true := by
  simp only [Backend.follows, hk]
  cases hstage : s.stage <;> simp_all [Material.follows, InputFilter.allows]

/-- The position is what feeds it, or else an attribute. -/
theorem Material.position_spec {r : Reading} (h : Material.position s = .ok r)
    (hallow : (Backend.material.follows s.stage s.node).allows "position" = true) :
    SelfContained .material s.context.config s.stage r.contributions ∧
      written s.stage r.contributions = [] ∧
      (∀ key ∈ r.operand.globals, key ∈ keys s.stage r.contributions ∨
        Backend.material.Provides s.context.config s.stage key) ∧
      ∀ x ∈ r.operand.locals, s.Fetches .material x := by
  rcases Material.position_cases h with ⟨o, _, ho, rfl⟩ | ⟨_, rfl⟩
  · refine ⟨.nil, rfl, ?_, s.fetches_of_input ho hallow⟩
    simp [(s.input_spec ho).2.1]
  · obtain ⟨hcontained, hsilent, hcovered, hlocals⟩ :=
      Reading.Contained.readAttribute (b := .material) (s := s) "position" .vector3
    exact ⟨hcontained, hsilent, hcovered, by simp [hlocals]⟩

/-- The declaration of a result of a material. -/
theorem Material.tidy_result {target : Target} (type : PortType) {value : Expr}
    (hk : s.node.kind = .output target) (hvalue : ∀ x ∈ value.locals, s.Fetches .material x) :
    s.Tidy .material
      [.declare type (if s.stage = .vertex then "transformed" else "diffuseColor") value] := by
  refine ⟨by simp [Statement.isPlain], ?_, ?_, by simp [Node.outputs, hk, Kind.outputs]⟩
  · intro _ st hst x hx
    rw [List.mem_singleton] at hst
    subst hst
    exact .inl (hvalue x hx)
  · rw [hk]
    cases hstage : s.stage <;> simp [Backend.results, Statement.declared]

theorem leaf_materialVertex {target : Target} {position : Reading}
    {definitions : List Contribution} {body : List Statement}
    (hk : s.node.kind = .output target) (hvertex : s.stage = .vertex)
    (hposition : Material.position s = .ok position)
    (hnormal : Material.normal s = .ok (definitions, body)) :
    s.Leaf .material (position.contributions ++ definitions ++
      [.statements s.stage
        (.declare .vector3 "transformed" (.operand position.operand) :: body)]) := by
  obtain ⟨hcontained, hsilent, hcovered, hlocals⟩ := Material.position_spec hposition
    (Material.allows_output hk (by simp [hvertex]))
  have hfirst : s.Tidy .material [.declare .vector3 "transformed" (.operand position.operand)] := by
    have hreads : ∀ x ∈ (Expr.operand position.operand).locals, s.Fetches .material x := by
      simpa [Expr.locals, Expr.operands] using hlocals
    have hresult := Material.tidy_result .vector3 hk hreads
    rwa [if_pos hvertex] at hresult
  have hdefinitions : ∀ c ∈ definitions, ∀ stage entries repetition,
      c ≠ .write stage entries repetition := by
    rcases Material.normal_cases hnormal with ⟨_, rfl, _⟩ | ⟨o, _, _, rfl, _⟩ <;> simp
  refine Site.leaf_of_body (hcontained.append (.of_silent hdefinitions)) ?_ ?_ (hfirst.assigns ?_)
  · rw [written_append, hsilent]
    rcases Material.normal_cases hnormal with ⟨_, rfl, _⟩ | ⟨o, _, _, rfl, _⟩ <;> simp
  · intro st hst key hkey
    rw [keys_append, List.mem_append]
    rcases List.mem_cons.mp hst with rfl | hst
    · have hglobals : key ∈ position.operand.globals := by
        simpa [Statement.globals, Expr.globals, Expr.operands] using hkey
      exact (hcovered key hglobals).imp_left .inl
    · rcases Material.normal_cases hnormal with ⟨_, _, rfl⟩ | ⟨o, _, ho, rfl, rfl⟩
      · cases hst
      · rw [List.mem_singleton] at hst
        subst hst
        simp only [Statement.globals, Place.globals, Expr.globals, Expr.operands,
          List.flatMap_cons, List.flatMap_nil, (s.input_spec ho).2.1, List.append_nil,
          List.cons_append, List.nil_append, List.mem_cons, List.not_mem_nil, or_false] at hkey
        rcases hkey with rfl | rfl
        · left
          right
          simp [hvertex, Declaration.key, Declaration.kind, Declaration.name]
        · exact .inr (.inr rfl)
  · intro st hst
    rcases Material.normal_cases hnormal with ⟨_, _, rfl⟩ | ⟨o, _, ho, _, rfl⟩
    · cases hst
    · rw [List.mem_singleton] at hst
      refine ⟨_, _, hst, by simp [Place.locals], fun _ => ?_⟩
      simpa [Expr.locals, Expr.operands] using
        s.fetches_of_input ho (Material.allows_output hk (by simp [hvertex]))

theorem leaf_materialFragment {target : Target} {color alpha : Operand}
    (hk : s.node.kind = .output target) (hother : s.stage ≠ .vertex)
    (hcolor : s.input "color" = .ok color) (halpha : s.input "alpha" = .ok alpha) :
    s.Leaf .material
      [.statements s.stage [.declare .vector4 "diffuseColor" (.withAlpha color alpha)]] := by
  have hreads : ∀ x ∈ (Expr.withAlpha color alpha).locals, s.Fetches .material x := by
    intro x hx
    simp only [Expr.locals, Expr.operands, List.flatMap_cons, List.flatMap_nil,
      List.append_nil, List.mem_append] at hx
    rcases hx with hx | hx
    · exact s.fetches_of_input hcolor (Material.allows_output hk (by simp [hother])) x hx
    · exact s.fetches_of_input halpha (Material.allows_output hk (by simp [hother])) x hx
  have hresult := Material.tidy_result .vector4 hk hreads
  rw [if_neg hother] at hresult
  refine Site.leaf_of_body .nil rfl ?_ hresult
  simp [Statement.globals, Expr.globals, Expr.operands, (s.input_spec hcolor).2.1,
    (s.input_spec halpha).2.1]

/-- What is written at an output node matters in the stage. -/
theorem Backend.allows_of_mem_outputNames {target : Target} (hk : s.node.kind = .output target)
    {name : String} (h : name ∈ b.outputNames s) :
    (b.follows s.stage s.node).allows name = true := by
  cases b with
  | material => cases h
  | particles table =>
    obtain ⟨hlisted, hwritten⟩ := List.mem_filter.mp h
    rw [Bool.and_eq_true] at hwritten
    simp only [follows, hk, Particles.follows, InputFilter.allows, List.contains_eq_mem,
      decide_eq_true_eq]
    exact List.mem_filter.mpr ⟨hlisted, hwritten.1⟩
  | points => rfl

/-- The output node of particles and points writes values of its inputs to places of the host. -/
theorem leaf_output {target : Target} {writes : List (Contribution × Statement)}
    (hk : s.node.kind = .output target) (hwrites : b.PutsAll s writes) :
    s.Leaf b (s.exchange [] writes) := by
  have hstores : ∀ write ∈ writes, s.Stores b write := by
    intro write hwrite
    obtain ⟨name, hname, value, hvalue, hput⟩ := exists_mem_of_forall₂ hwrites.flip write hwrite
    exact hput.stores (s.input_spec hvalue).2.1
      (s.fetches_of_input hvalue (b.allows_of_mem_outputNames hk hname))
  exact Site.leaf_exchange (by simp) hstores
    (Site.tidy_nil (by simp [Node.outputs, hk, Kind.outputs]))

/-! ## §7. Attribute nodes -/

theorem outputs_of_attribute {name : String} {type : PortType}
    (hk : s.node.kind = .attribute name type) : s.node.outputs.map (·.name) = ["value"] := by
  simp [Node.outputs, hk, Kind.outputs, Port.output]

theorem leaf_materialAttribute {name : String} {type : PortType}
    (hk : s.node.kind = .attribute name type) :
    s.Leaf .material ((Material.readAttribute s name type).contributions ++
      [.statements s.stage
        [s.declare "value" (.operand (Material.readAttribute s name type).operand)]]) := by
  obtain ⟨hcontained, hsilent, hcovered, hlocals⟩ :=
    Reading.Contained.readAttribute (b := .material) (s := s) name type
  refine Site.leaf_of_body hcontained hsilent ?_ (Site.tidy_declare (by rw [hk]; trivial)
    (outputs_of_attribute hk) ?_)
  · simpa [Site.declare, Statement.globals, Expr.globals, Expr.operands] using hcovered
  · simp [Expr.locals, Expr.operands, hlocals]

/-- Where a stage writes an attribute, it reads what feeds the export. -/
theorem Backend.follows_of_owns {name : String} {type : PortType} (hb : b ≠ .material)
    (hk : s.node.kind = .attribute name type) (howned : b.owns name s.stage = true) :
    b.follows s.stage s.node = .all := by
  cases b with
  | material => exact absurd rfl hb
  | particles table =>
    have howned : Particles.isOwned table name s.stage = true := howned
    simp [follows, Particles.follows, hk, howned]
  | points => rfl

/-- An attribute of particles and points is read where its value feeds something, and stored. -/
theorem leaf_storedAttribute {name : String} {type : PortType} {readings : List Reading}
    {writes : List (Contribution × Statement)} (hb : b ≠ .material)
    (hk : s.node.kind = .attribute name type) (hreadings : b.GetsUsed s name type readings)
    (hwrites : b.PutsFed s name type writes) : s.Leaf b (s.exchange readings writes) := by
  have hstores : ∀ write ∈ writes, s.Stores b write := by
    cases hwrites with
    | idle _ => exact List.forall_mem_nil _
    | fed _ howned hvalue hput =>
      have hall := b.follows_of_owns hb hk howned
      have hstore := hput.stores (s.input_spec hvalue).2.1
        (s.fetches_of_input hvalue (by rw [hall]; rfl))
      exact List.forall_mem_singleton.mpr hstore
  cases hreadings with
  | unused hunused =>
    refine Site.leaf_exchange (by simp) hstores (Site.tidy_nil fun _ output houtput => ?_)
    rw [outputs_of_attribute hk, List.mem_singleton] at houtput
    rw [houtput]
    exact hunused
  | used _ hr =>
    refine Site.leaf_exchange (by simpa using hr.contained) hstores (Site.tidy_declare
      (by rw [hk]; trivial) (outputs_of_attribute hk) ?_)
    simp [Expr.locals, Expr.operands, hr.contained.locals]

/-! ## §8. What becomes of attributes of particles and points -/

/-- What is added when an attribute is read: its sampler is declared in the stage, and it is noted
    that it is read. -/
inductive Site.Samples (s : Site) : Contribution → Prop where
  | sampler (texture : String) : s.Samples (.define s.stage [.uniform .texture texture])
  | note (name : String) : s.Samples (.note (.reads name))

theorem Particles.samples_read {table : Allocations} {name : String} {type : PortType} {r : Reading}
    (h : read table s name type = .ok r) : ∀ c ∈ r.contributions, s.Samples c := by
  obtain ⟨_, -, h⟩ := bind_eq_ok.mp h
  rw [pure_eq_ok] at h
  subst h
  simp only [List.forall_mem_cons]
  exact ⟨.sampler _, .note _, List.forall_mem_nil _⟩

theorem Points.samples_readField (name : String) :
    ∀ c ∈ (readField s name).contributions, s.Samples c := by
  simpa [readField] using Site.Samples.note name

theorem Particles.note_of_write {table : Allocations} {name : String} {type : PortType}
    {value : Operand} {write : Contribution × Statement}
    (h : Particles.write table s name type value = .ok write) :
    write.1 = .note (.writes name) := by
  obtain ⟨_, -, h⟩ := bind_eq_ok.mp h
  rw [pure_eq_ok] at h
  rw [← h]

namespace Backend

variable {name : String} {type : PortType}

theorem GetsUsed.samples {readings : List Reading} (h : b.GetsUsed s name type readings) :
    ∀ r ∈ readings, ∀ c ∈ r.contributions, s.Samples c := by
  cases h with
  | unused _ => exact List.forall_mem_nil _
  | used _ hr =>
    cases hr with
    | particles hread => exact List.forall_mem_singleton.mpr (Particles.samples_read hread)
    | points => exact List.forall_mem_singleton.mpr (Points.samples_readField name)

/-- What is added when an attribute is written: it is noted. -/
theorem Puts.note_eq {value : Operand} {write : Contribution × Statement}
    (h : b.Puts s name type value write) : write.1 = .note (.writes name) := by
  cases h with
  | particles hwrite => exact Particles.note_of_write hwrite
  | points => rfl

theorem PutsFed.note_eq {writes : List (Contribution × Statement)}
    (h : b.PutsFed s name type writes) : ∀ write ∈ writes, write.1 = .note (.writes name) := by
  cases h with
  | idle _ => exact List.forall_mem_nil _
  | fed _ _ _ hput => exact List.forall_mem_singleton.mpr hput.note_eq

theorem PutsAll.note_eq {writes : List (Contribution × Statement)} (h : b.PutsAll s writes) :
    ∀ write ∈ writes, ∃ name ∈ b.outputNames s, write.1 = .note (.writes name) := by
  intro write hwrite
  obtain ⟨name, hname, _, _, hput⟩ := exists_mem_of_forall₂ h.flip write hwrite
  exact ⟨name, hname, hput.note_eq⟩

end Backend

/-! ## §9. Every kind -/

/-- **Nodes without a network.**  What such a node adds brings what it names, and keeps to the
    variables of the node. -/
theorem leaf_of_emitLeaf (hsubnet : ∀ subnet, s.node.kind ≠ .subnet subnet)
    (hfound : s.graph.node? s.node.id = some s.node)
    (h : b.emitLeaf s s.node.kind = .ok cs) : s.Leaf b cs := by
  cases Site.emits_of_emitLeaf h with
  | constant hk => exact leaf_constant hk
  | param hk => exact leaf_param hk
  | math hk hargs => exact leaf_math hk hargs
  | globals hk hreadings => exact leaf_globals hk hfound hreadings
  | «attribute» hk h =>
    cases h with
    | read => exact leaf_materialAttribute hk
    | exchanged hb hreadings hwrites => exact leaf_storedAttribute hb hk hreadings hwrites
  | varyingWrite hk hvalue => exact leaf_varyingWrite hk hvalue
  | varyingRead hk => exact leaf_varyingRead hk
  | function hk _ hargs => exact leaf_call hk hargs
  | output hk h =>
    cases h with
    | vertex hvertex hposition hnormal => exact leaf_materialVertex hk hvertex hposition hnormal
    | fragment hother hcolor halpha => exact leaf_materialFragment hk hother hcolor halpha
    | written _ hwrites => exact leaf_output hk hwrites
  | subnet hk => exact absurd hk (hsubnet _)
  | subnetInput hk => exact ⟨.nil, Site.tidy_nil (by simp [hk, Kind.isSubnetInput])⟩
  | subnetOutput hk hbody => exact leaf_bridge hk hbody

/-! ## §10. Nodes that only compute -/

/-- Whether a node has to do with what is outside the code: what the host sets or is told,
    attributes, or the results of the program. -/
def Kind.exchanges : Kind → Bool
  | .param .. | .globals | .attribute .. | .output _ => true
  | _ => false

/-- Whether a statement declares a variable, or assigns to one or to a varying. -/
def Statement.isComputation : Statement → Bool
  | .declare .. | .assign (.var _) _ | .assign (.varying _) _ => true
  | _ => false

/-- Whether a function or a varying is declared. -/
def Declaration.isComputation : Declaration → Bool
  | .function .. | .varying .. => true
  | _ => false

namespace Contribution

/-- Whether a contribution declares functions and varyings only, or computes. -/
def isComputation : Contribution → Bool
  | .define _ declarations => declarations.all Declaration.isComputation
  | .write _ entries _ => entries.all (·.statement.isComputation)
  | .note _ => false

@[simp] theorem isComputation_define (stage : Stage) (declarations : List Declaration) :
    (define stage declarations).isComputation = declarations.all Declaration.isComputation := rfl

@[simp] theorem isComputation_statements (stage : Stage) (body : List Statement) :
    (statements stage body).isComputation = body.all Statement.isComputation := by
  rw [statements, isComputation, List.all_map]
  rfl

/-- What computes writes computations. -/
theorem isComputation_of_mem_written {cs : List Contribution} {stage : Stage}
    (h : ∀ c ∈ cs, c.isComputation = true) {st : Statement} (hst : st ∈ written stage cs) :
    st.isComputation = true := by
  obtain ⟨c, hc, hst⟩ := List.mem_flatMap.mp hst
  cases c with
  | write target entries _ =>
    rw [statementsFor] at hst
    split at hst
    · obtain ⟨entry, hentry, rfl⟩ := List.mem_map.mp hst
      exact List.all_eq_true.mp (h _ hc) entry hentry
    · cases hst
  | define _ _ => cases hst
  | note _ => cases hst

end Contribution

/-- **A node that exchanges nothing only computes**, in every backend. -/
theorem Backend.isComputation_of_emitLeaf (hkind : s.node.kind.exchanges = false)
    (h : b.emitLeaf s s.node.kind = .ok cs) : ∀ c ∈ cs, c.isComputation = true := by
  have hdeclare : ∀ output value, (s.declare output value).isComputation = true :=
    fun _ _ => rfl
  cases Site.emits_of_emitLeaf h with
  | param hk | globals hk _ | «attribute» hk _ | output hk _ => simp [hk, Kind.exchanges] at hkind
  | constant _ | math _ _ | function _ _ _ => simp [Declaration.isComputation, hdeclare]
  | varyingRead _ => simp [Backend.emitVaryingRead, Declaration.isComputation, hdeclare]
  | varyingWrite _ _ => split <;> simp [Declaration.isComputation, Statement.isComputation]
  | subnet _ | subnetInput _ => exact List.forall_mem_nil _
  | subnetOutput _ hbody =>
    intro c hc
    rw [List.mem_singleton.mp hc, isComputation_statements, List.all_eq_true]
    intro st hst
    obtain ⟨name, _, value, _, rfl⟩ := exists_mem_of_forall₂ hbody.flip st hst
    rfl

end ShaderFlow
