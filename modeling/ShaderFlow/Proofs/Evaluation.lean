/-
  ShaderFlow.Proofs.Evaluation — the values of the nodes of a network, as its code computes them.

  Nodes that only compute are run one after the other.  Behind each of them the variables of its
  outputs hold what the graph denotes there, which is all that the nodes behind it need.

  Main definitions:
    * `Graph.Dataflow`   — networks of nodes that only compute;
    * `Meaning.Valued`   — a node whose variables hold what it denotes;
    * `Meaning.Yields`   — code that leaves nodes in that state.

  Main statements:
    * `Meaning.input_value`         — what an input evaluates to is what it denotes;
    * `Graph.Emits.yields_leaf`     — one node;
    * `Graph.yields_parts`          — nodes one after the other.
-/

import ShaderFlow.Proofs.Running
import ShaderFlow.Proofs.Scoping

namespace ShaderFlow

open Contribution

variable {V : Type} {M : Meaning V} {library : Library} {around : List (Graph × Node)}

/-! ## §1. Networks that only compute -/

/-- Whether a node computes from its inputs alone, or is a boundary or an end of such nodes. -/
def Kind.isDataflow : Kind → Bool
  | .constant _ | .param .. | .math .. | .function .. | .output _ | .subnet _ | .subnetInput _
  | .subnetOutput _ => true
  | .globals | .attribute .. | .varyingWrite .. | .varyingRead .. => false

/-- A network of such nodes. -/
def Graph.Dataflow (g : Graph) : Prop := ∀ n ∈ g.nodes, n.kind.isDataflow = true

/-- No such node acts by itself. -/
theorem Graph.sideRoots_eq_nil {writes : Kind → Bool} {input : String}
    (hwrites : ∀ k : Kind, k.isDataflow = true → writes k = false) :
    ∀ {g : Graph}, g.Everywhere Graph.Dataflow → g.sideRoots writes input = [] := by
  intro g
  induction g using Graph.network_induction with
  | step g ih =>
    intro hg
    rw [List.eq_nil_iff_forall_not_mem]
    intro id hid
    obtain ⟨n, hn, hacts, _⟩ := Graph.mem_sideRoots.mp hid
    rcases Node.acts_cases hacts with ⟨s, hk, hsome⟩ | ⟨_, hk, _⟩
    · have hnests : s.network.Nests g := ⟨n, hn, s, hk, rfl⟩
      exact hsome (ih _ hnests (hg.inside hnests))
    · rw [hwrites _ (hg.here n hn)] at hk
      cases hk

theorem Backend.sideRoots_eq_nil {b : Backend} {g : Graph} (hg : g.Everywhere Graph.Dataflow) :
    b.sideRoots g = [] := by
  cases b with
  | material =>
    refine Graph.sideRoots_eq_nil ?_ hg
    intro k hk
    cases k <;> first | rfl | cases hk
  | particles _ | points =>
    refine Graph.sideRoots_eq_nil ?_ hg
    intro k hk
    cases k <;> first | rfl | cases hk

/-! ## §2. Nodes and their variables -/

/-- The variable that holds an output of a node of a network. -/
def Scope.variable (scope : Scope) (n : Node) (output : String) : String :=
  if n.kind.isSubnetInput then scope.inputVar output else scope.varName n.name output

theorem Scope.variable_eq {scope : Scope} {n : Node} (h : n.kind.isSubnetInput = false)
    (output : String) : scope.variable n output = scope.varName n.name output := by
  rw [Scope.variable, h]
  rfl

/-- A node whose outputs have what it denotes in their variables. -/
def Meaning.Valued (M : Meaning V) (library : Library) (around : List (Graph × Node)) (g : Graph)
    (scope : Scope) (σ : Store V) (n : Node) : Prop :=
  ∀ output ∈ n.outputs.map (·.name), ∃ v, M.Denotes library around g n (.output output) v ∧
    σ.find? (scope.variable n output) = some v

theorem Meaning.Valued.push {g : Graph} {scope : Scope} {σ : Store V} {n : Node}
    {new : Table String V} (h : M.Valued library around g scope σ n)
    (hfresh : ∀ x ∈ new.keys, x ∉ σ.names) : M.Valued library around g scope (σ.push new) n := by
  intro output houtput
  obtain ⟨v, hv, hfind⟩ := h output houtput
  refine ⟨v, hv, ?_⟩
  rw [Store.find?_push_of_not_mem fun hmem => hfresh _ hmem (Store.mem_names_of_find? hfind)]
  exact hfind

theorem Meaning.Valued.enter {g : Graph} {scope : Scope} {σ : Store V} {n : Node}
    (h : M.Valued library around g scope σ n) : M.Valued library around g scope σ.enter n := h

/-- Code whose declarations are new, to the store and to each other. -/
structure Store.Fresh (σ : Store V) (body : List Statement) : Prop where
  nodup : (declaredIn body).Nodup
  new : ∀ x ∈ declaredIn body, x ∉ σ.names

namespace Store.Fresh

variable {σ : Store V} {first rest : List Statement}

theorem left (h : σ.Fresh (first ++ rest)) : σ.Fresh first := by
  obtain ⟨hnodup, hnew⟩ := h
  rw [declaredIn_append] at hnodup hnew
  exact ⟨(List.nodup_append.mp hnodup).1, fun x hx => hnew x (List.mem_append_left _ hx)⟩

theorem right (h : σ.Fresh (first ++ rest)) {new : Table String V}
    (hnew : ∀ x ∈ new.keys, x ∈ declaredIn first) : (σ.push new).Fresh rest := by
  obtain ⟨hnodup, hfresh⟩ := h
  rw [declaredIn_append] at hnodup hfresh
  obtain ⟨_, hrest, hdisjoint⟩ := List.nodup_append.mp hnodup
  refine ⟨hrest, fun x hx hmem => ?_⟩
  rcases mem_names_push.mp hmem with hmem | hmem
  · exact hfresh x (List.mem_append_right _ hx) hmem
  · exact hdisjoint x (hnew x hmem) x hx rfl

theorem tail {st : Statement} (h : σ.Fresh (st :: rest)) : σ.Fresh rest := by
  obtain ⟨hnodup, hnew⟩ := h
  rw [declaredIn_cons] at hnodup hnew
  exact ⟨(List.nodup_append.mp hnodup).2.1, fun x hx => hnew x (List.mem_append_right _ hx)⟩

theorem enter (h : σ.Fresh first) : σ.enter.Fresh first := ⟨h.nodup, h.new⟩

end Store.Fresh

/-! ## §3. Inputs -/

theorem Value.portType_of_splat {x : Binary32} {type : PortType} {value : Value}
    (h : Value.splat x type = some value) : value.portType = type := by
  cases type <;> simp only [Value.splat, Option.some.injEq, reduceCtorEq] at h <;> subst h <;> rfl

/-- Every default is of the type of its input. -/
theorem Kind.portType_of_default {kind : Kind} {port : Port} {value : Value}
    (hport : port ∈ kind.inputs) (hdefault : port.default = some value) :
    value.portType = port.type := by
  cases kind with
  | math op type =>
    obtain ⟨operand, _, rfl⟩ := List.mem_map.mp hport
    exact Value.portType_of_splat hdefault
  | output target =>
    cases target <;> simp only [Kind.inputs, Target.inputs, List.mem_cons, List.not_mem_nil,
      or_false] at hport <;> rcases hport with rfl | rfl | rfl | rfl <;> cases hdefault <;> rfl
  | function _ specs _ | subnet subnet | subnetOutput specs =>
    obtain ⟨spec, _, rfl⟩ := List.mem_map.mp hport
    cases hdefault
  | constant _ | param _ _ _ | globals | varyingRead _ _ | subnetInput _ => cases hport
  | _ =>
    rw [List.mem_singleton.mp hport] at hdefault
    cases hdefault

/-- What evaluates an input can rely on: what feeds it has its value. -/
def Site.Supplied (M : Meaning V) (around : List (Graph × Node)) (σ : Store V) (s : Site)
    (input : String) : Prop :=
  ∀ c, s.graph.inputSource? s.node.id input = some c →
    ∃ source, s.graph.node? c.source = some source ∧
      M.Valued s.context.library around s.graph s.scope σ source

/-- Such an input has a value. -/
theorem Site.Supplied.denotes {s : Site} {σ : Store V} {input : String}
    (h : s.Supplied M around σ input) (hg : s.graph.Regular)
    (hinput : input ∈ s.node.inputNames) :
    ∃ v, M.Denotes s.context.library around s.graph s.node (.input input) v := by
  obtain ⟨port, hport⟩ := Node.input?_of_mem hinput
  cases hsource : s.graph.inputSource? s.node.id input with
  | some c =>
    obtain ⟨source, hfound, hvalued⟩ := h c hsource
    obtain ⟨houtput, _⟩ := hg.feeds hsource hfound
    obtain ⟨offered, hoffered⟩ := Node.output?_of_mem houtput
    obtain ⟨v, hv, _⟩ := hvalued c.output houtput
    exact ⟨_, .fed hsource hfound hport hoffered hv⟩
  | none =>
    cases hdefault : port.default with
    | some value => exact ⟨_, .default hsource hport hdefault⟩
    | none => exact ⟨_, .zero hsource hport hdefault⟩

/-- **What an input evaluates to** is what it denotes. -/
theorem Meaning.input_value {s : Site} {σ : Store V} {input : String} {o : Operand}
    (hg : s.graph.Regular) (h : s.input input = .ok o) (hsupplied : s.Supplied M around σ input) :
    ∃ v, M.Denotes s.context.library around s.graph s.node (.input input) v ∧
      M.operand σ o = some v := by
  unfold Site.input at h
  split at h
  next => cases h
  next port hport =>
    split at h
    next c hc =>
      split at h
      next => cases h
      next source hsource =>
        obtain ⟨houtput, _⟩ := hg.feeds hc hsource
        obtain ⟨offered, hoffered⟩ := Node.output?_of_mem houtput
        obtain ⟨source', hsource', hvalued⟩ := hsupplied c hc
        obtain rfl := Option.some.inj (hsource.symm.trans hsource')
        obtain ⟨v, hv, hfind⟩ := hvalued c.output houtput
        simp only [hoffered, Option.map_some, Option.getD_some, Except.ok.injEq] at h
        subst h
        have hread : M.operand σ (.var (s.variableOf source c.output)) = some v := hfind
        exact ⟨_, .fed hc hsource hport hoffered hv, operand_as hread _ _⟩
    -- nothing feeds the input: it has its default, which is of its own type, or a zero
    next hc =>
      split at h
      · cases h
      · split at h
        next value hdefault =>
          have htype : value.portType = port.type :=
            Kind.portType_of_default (List.mem_of_find?_eq_some hport) hdefault
          rw [htype, Operand.as, if_pos rfl] at h
          cases h
          exact ⟨_, .default hc hport hdefault, rfl⟩
        next hdefault =>
          cases h
          exact ⟨_, .zero hc hport hdefault, rfl⟩

/-- The values of all inputs of a node. -/
theorem Meaning.exists_value {s : Site} {σ : Store V} (M : Meaning V) (hg : s.graph.Regular)
    (hsupplied : ∀ input ∈ s.node.inputNames, s.Supplied M around σ input) :
    ∃ value : String → V, ∀ input o, s.input input = .ok o →
      M.Denotes s.context.library around s.graph s.node (.input input) (value input) ∧
        M.operand σ o = some (value input) := by
  have hvalue : ∀ input, ∃ v, ∀ o, s.input input = .ok o →
      M.Denotes s.context.library around s.graph s.node (.input input) v ∧
        M.operand σ o = some v := by
    intro input
    cases hinput : s.input input with
    | error e =>
      refine ⟨M.zero .float, fun o ho => ?_⟩
      cases ho
    | ok o =>
      have hname := (s.input_spec hinput).1
      obtain ⟨v, hv, ho⟩ := M.input_value hg hinput (hsupplied input hname)
      refine ⟨v, fun o' ho' => ?_⟩
      cases ho'
      exact ⟨hv, ho⟩
  choose value hvalue using hvalue
  exact ⟨value, hvalue⟩

/-- What all inputs of a node evaluate to. -/
theorem Meaning.inputs_value {s : Site} {σ : Store V} {args : List Operand}
    (hg : s.graph.Regular) (h : s.inputs s.node.inputNames = .ok args)
    (hsupplied : ∀ input ∈ s.node.inputNames, s.Supplied M around σ input) :
    ∃ value : String → V,
      (∀ input ∈ s.node.inputNames,
        M.Denotes s.context.library around s.graph s.node (.input input) (value input)) ∧
      args.mapM (M.operand σ) = some (s.node.inputNames.map value) := by
  obtain ⟨value, hvalue⟩ := M.exists_value hg hsupplied
  have hall := (mapM_eq_ok.mp h).imp fun input o ho => hvalue input o ho
  obtain ⟨hdenotes, hoperands⟩ := (List.forall₂_and_left _ _).mp hall
  exact ⟨value, hdenotes, mapM_operand hoperands⟩

/-! ## §4. Nodes -/

/-- Code that leaves some nodes with the values that they denote in their variables, which it
    adds to the innermost block. -/
structure Meaning.Yields (M : Meaning V) (library : Library) (around : List (Graph × Node))
    (g : Graph) (scope : Scope) (σ : Store V) (nodes : List Node) (body : List Statement)
    (new : Table String V) : Prop where
  run : M.run σ body = some (σ.push new)
  declared : ∀ x ∈ new.keys, x ∈ declaredIn body
  values : ∀ n ∈ nodes, n.kind.isSubnetInput = false → ∀ output ∈ n.outputs.map (·.name),
    ∃ v, M.Denotes library around g n (.output output) v ∧
      new.get? (scope.varName n.name output) = some v

theorem Meaning.Yields.nil {g : Graph} {scope : Scope} {σ : Store V} :
    M.Yields library around g scope σ [] [] [] where
  run := by rw [run_nil, Store.push_nil]
  declared := by
    intro x hx
    cases hx
  values := by
    intro n hn
    cases hn

theorem Meaning.Yields.append {g : Graph} {scope : Scope} {σ : Store V} {nodes more : List Node}
    {first rest : List Statement} {new newer : Table String V}
    (h : M.Yields library around g scope σ nodes first new)
    (hrest : M.Yields library around g scope (σ.push new) more rest newer)
    (hfresh : σ.Fresh (first ++ rest)) :
    M.Yields library around g scope σ (nodes ++ more) (first ++ rest) (new ++ newer) where
  run := by rw [run_append, h.run, Option.bind_some, hrest.run, Store.push_push]
  declared := by
    intro x hx
    rw [Table.keys_append] at hx
    rw [declaredIn_append]
    rcases List.mem_append.mp hx with hx | hx
    · exact List.mem_append_left _ (h.declared x hx)
    · exact List.mem_append_right _ (hrest.declared x hx)
  values := by
    intro n hn hk output houtput
    rcases List.mem_append.mp hn with hn | hn
    · obtain ⟨v, hv, hget⟩ := h.values n hn hk output houtput
      exact ⟨v, hv, by rw [Table.get?_append, hget, Option.some_or]⟩
    · obtain ⟨v, hv, hget⟩ := hrest.values n hn hk output houtput
      -- the variable was declared by the second part, so not by the first
      have hother : new.get? (scope.varName n.name output) = none := by
        refine Table.get?_eq_none.mpr fun hmem => ?_
        have hnodup := hfresh.nodup
        rw [declaredIn_append, List.nodup_append] at hnodup
        have hrestMem := hrest.declared _ (Table.mem_keys_of_get? hget)
        exact hnodup.2.2 _ (h.declared _ hmem) _ hrestMem rfl
      exact ⟨v, hv, by rw [Table.get?_append, hother, Option.none_or, hget]⟩

theorem Meaning.Yields.valued {g : Graph} {scope : Scope} {σ : Store V} {nodes : List Node}
    {body : List Statement} {new : Table String V}
    (h : M.Yields library around g scope σ nodes body new) (hfresh : σ.Fresh body) {n : Node}
    (hn : n ∈ nodes) (hk : n.kind.isSubnetInput = false) :
    M.Valued library around g scope (σ.push new) n := by
  intro output houtput
  obtain ⟨v, hv, hget⟩ := h.values n hn hk output houtput
  refine ⟨v, hv, ?_⟩
  rw [Scope.variable_eq hk]
  exact Store.find?_push_of_get? (hfresh.new _ (h.declared _ (Table.mem_keys_of_get? hget))) hget

/-- A node with one output, whose variable it declares. -/
theorem Meaning.yields_declare {s : Site} {σ : Store V} {output : String} {value : Expr} {v : V}
    (houtputs : s.node.outputs.map (·.name) = [output]) (hk : s.node.kind.isSubnetInput = false)
    (hdenotes : M.Denotes library around s.graph s.node (.output output) v)
    (hv : M.expr σ value = some v) (hrunning : σ.skipped = 0)
    (hfresh : σ.Fresh [s.declare output value]) :
    M.Yields library around s.graph s.scope σ [s.node] [s.declare output value]
      [(s.varName output, v)] where
  run := by
    have hx : s.varName output ∉ σ.names := hfresh.new _ List.mem_cons_self
    rw [run_cons, Site.declare, step_declare hrunning hx hv]
    rfl
  declared := by
    intro x hx
    rw [List.mem_singleton.mp hx]
    exact List.mem_cons_self
  values := by
    intro n hn _ o ho
    rw [List.mem_singleton.mp hn] at ho ⊢
    rw [houtputs, List.mem_singleton] at ho
    subst ho
    refine ⟨v, hdenotes, ?_⟩
    rw [Site.varName, Site.variableOf_eq hk]
    simp [Table.get?]

/-- What a node that computes adds to a program: apart from declarations and notes, the one
    statement that declares its output, with the value that the output denotes. -/
structure Site.Computes (M : Meaning V) (around : List (Graph × Node)) (σ : Store V) (s : Site)
    (cs : List Contribution) (output : String) (value : Expr) (v : V) : Prop where
  adds : s.Adds cs [s.declare output value]
  outputs : s.node.outputs.map (·.name) = [output]
  denotes : M.Denotes s.context.library around s.graph s.node (.output output) v
  evaluates : M.expr σ value = some v

theorem Meaning.computes_of_emitLeaf {b : Backend} {s : Site} {σ : Store V}
    {cs : List Contribution} (hg : s.graph.Regular) (h : b.emitLeaf s s.node.kind = .ok cs)
    (hdata : s.node.kind.isDataflow = true) (hsubnet : ∀ subnet, s.node.kind ≠ .subnet subnet)
    (hboundary : s.node.kind.isSubnetInput = false) (houtputs : s.node.outputs ≠ [])
    (hsupplied : ∀ input ∈ s.node.inputNames, s.Supplied M around σ input) :
    ∃ output value v, s.Computes M around σ cs output value v := by
  cases Site.emits_of_emitLeaf h with
  | @constant value hk =>
    refine ⟨"value", .operand (.literal value), M.literal value, ?_, ?_, .constant hk, rfl⟩
    · exact fun stage => by simp
    · simp [Node.outputs, hk, Kind.outputs, Port.output]
  | @param name _ _ hk =>
    refine ⟨"value", .operand (.uniform (Backend.paramUniform name)), _, ?_, ?_, .param hk, rfl⟩
    · exact fun stage => by simp [Backend.emitParam]
    · simp [Node.outputs, hk, Kind.outputs, Port.output]
  | @math op _ args hk hargs =>
    have hnames : op.operands.map (·.1) = s.node.inputNames := by
      simp [Node.inputNames, Node.inputs, hk, Kind.inputs, MathOp.inputs, Port.input]
    rw [hnames] at hargs
    obtain ⟨value, hdenotes, hvalue⟩ := M.inputs_value hg hargs hsupplied
    refine ⟨"result", .math op args, _, ?_, ?_, .math hk hdenotes, ?_⟩
    · exact fun stage => by simp
    · simp [Node.outputs, hk, Kind.outputs, Port.output]
    · rw [expr, hvalue, Option.map_some]
  | @function _ specs _ f args hk hf hargs =>
    have hnames : specs.map (·.name) = s.node.inputNames := by
      simp [Node.inputNames, Node.inputs, hk, Kind.inputs, PortSpec.toInput, Port.input]
    rw [hnames] at hargs
    obtain ⟨value, hdenotes, hvalue⟩ := M.inputs_value hg hargs hsupplied
    refine ⟨"result", .call f.name args, _, ?_, ?_, .call hk hf hdenotes, ?_⟩
    · exact fun stage => by simp
    · simp [Node.outputs, hk, Kind.outputs, Port.output]
    · rw [expr, hvalue, Option.map_some]
  -- all other kinds are excluded: they have no outputs of their own or touch the host
  | subnet hk => exact absurd hk (hsubnet _)
  | subnetInput hk =>
    rw [hk] at hboundary
    cases hboundary
  | output hk _ | subnetOutput hk _ =>
    rw [Node.outputs, hk] at houtputs
    exact absurd rfl houtputs
  | globals hk _ | «attribute» hk _ | varyingWrite hk _ | varyingRead hk =>
    rw [hk] at hdata
    cases hdata

variable {b : Backend} {context : Context} {stage : Stage} {scope : Scope} {roots : List NodeId}
  {g : Graph} {parts : List Part} {σ : Store V}

/-- **One node** that has outputs, where what feeds it has its values. -/
theorem Graph.Emits.yields_leaf (h : g.Emits b context stage scope roots parts) (hg : g.Regular)
    (hdata : g.Dataflow) {part : Part} (hpart : part ∈ parts)
    (hsubnet : ∀ subnet, part.node.kind ≠ .subnet subnet) (houtputs : part.node.outputs ≠ [])
    (hsupplied : ∀ input ∈ part.node.inputNames,
      Site.Supplied M around σ { graph := g, node := part.node, stage, scope, context } input)
    (hrunning : σ.skipped = 0) (hfresh : σ.Fresh (part.statements stage)) :
    ∃ new, M.Yields context.library around g scope σ [part.node] (part.statements stage) new := by
  let s : Site := { graph := g, node := part.node, stage, scope, context }
  have hemit : b.emitLeaf s part.node.kind = .ok part.contributions := by
    rcases h.cases hpart with ⟨_, hemit⟩ | ⟨subnet, _, _, _, hk, _⟩
    · exact hemit
    · exact absurd hk (hsubnet subnet)
  cases hboundary : part.node.kind.isSubnetInput with
  -- what offers the inputs of a subnet adds nothing: the boundary has its variables
  | true =>
    have hnone : part.contributions = [] := by
      cases hk : part.node.kind <;> simp_all [Kind.isSubnetInput, Backend.emitLeaf]
    have hbody : part.statements stage = [] := by
      rw [Part.statements, hnone, written_nil]
    rw [hbody]
    refine ⟨[], ⟨?_, ?_, ?_⟩⟩
    · rw [Meaning.run_nil, Store.push_nil]
    · intro x hx
      cases hx
    · intro n hn hk
      rw [List.mem_singleton.mp hn, hboundary] at hk
      cases hk
  | false =>
    obtain ⟨output, value, v, hcomputes⟩ := M.computes_of_emitLeaf (s := s) hg hemit
      (hdata part.node (h.node_mem hpart)) hsubnet hboundary houtputs hsupplied
    have hbody : part.statements stage = [s.declare output value] := by
      rw [Part.statements, hcomputes.adds, if_pos rfl]
    rw [hbody] at hfresh ⊢
    exact ⟨_, Meaning.yields_declare (s := s) hcomputes.outputs hboundary hcomputes.denotes
      hcomputes.evaluates hrunning hfresh⟩

/-! ## §5. Nodes one after the other -/

/-- What feeds a node has its values where the nodes in front of it have theirs. -/
theorem Graph.Emits.supplied (h : g.Emits b context stage scope roots parts) {front : List Part}
    {part : Part} {back : List Part} (hsplit : parts = front ++ part :: back)
    (hvalued : ∀ n ∈ front.map (·.node), M.Valued context.library around g scope σ n)
    {input : String} (hinput : input ∈ part.node.inputNames)
    (hallows : (b.follows stage part.node).allows input = true) :
    Site.Supplied M around σ { graph := g, node := part.node, stage, scope, context } input := by
  intro c hc
  have hnodes : parts.map (·.node) = front.map (·.node) ++ part.node :: back.map (·.node) := by
    rw [hsplit, List.map_append, List.map_cons]
  obtain ⟨source, hfront, hsource⟩ := h.schedules.behind _ _ _ hnodes input hinput hallows c hc
  exact ⟨source, hsource, hvalued source hfront⟩

/-- A node of a network that only computes reads all its inputs if it has outputs. -/
theorem Graph.Dataflow.follows_eq_all (hdata : g.Dataflow) {n : Node} (hn : n ∈ g.nodes)
    (houtputs : n.outputs ≠ []) : b.follows stage n = .all := by
  have hkind := hdata n hn
  refine b.follows_eq_all stage ?_
  cases hk : n.kind with
  | output _ =>
    rw [Node.outputs, hk] at houtputs
    exact absurd rfl houtputs
  | constant _ | param _ _ _ | math _ _ | function _ _ _ | subnet _ | subnetInput _
  | subnetOutput _ => trivial
  | _ =>
    rw [hk] at hkind
    cases hkind

/-- **Nodes one after the other**, each of which can rely on those in front of it and on the
    boundary of the network. -/
theorem Graph.yields_parts
    (hyields : ∀ front part back (σ : Store V), parts = front ++ part :: back →
      σ.skipped = 0 → (∀ n ∈ front.map (·.node), M.Valued library around g scope σ n) →
      σ.Fresh (part.statements stage) →
        ∃ new, M.Yields library around g scope σ [part.node] (part.statements stage) new) :
    ∀ (rest front : List Part) (σ : Store V), parts = front ++ rest → σ.skipped = 0 →
      (∀ n ∈ front.map (·.node), M.Valued library around g scope σ n) →
      (∀ n ∈ parts.map (·.node), n.kind.isSubnetInput = true →
        M.Valued library around g scope σ n) →
      σ.Fresh (bodyOf stage rest) →
        ∃ new, M.Yields library around g scope σ (rest.map (·.node)) (bodyOf stage rest) new
  | [], front, σ, _, _, _, _, _ => ⟨[], .nil⟩
  | part :: rest, front, σ, hsplit, hrunning, hvalued, hboundary, hfresh => by
    -- the first part adds its variables, and all values that were there before stay
    have hbody : bodyOf stage (part :: rest) = part.statements stage ++ bodyOf stage rest := rfl
    rw [hbody] at hfresh ⊢
    obtain ⟨new, hnew⟩ := hyields front part rest σ hsplit hrunning hvalued hfresh.left
    have hnames : ∀ x ∈ new.keys, x ∉ σ.names :=
      fun x hx => hfresh.left.new x (hnew.declared x hx)
    have hsplit' : parts = (front ++ [part]) ++ rest := by rw [hsplit]; simp
    have hboundary' : ∀ n ∈ parts.map (·.node), n.kind.isSubnetInput = true →
        M.Valued library around g scope (σ.push new) n :=
      fun n hn hk => (hboundary n hn hk).push hnames
    have hpart : part.node ∈ parts.map (·.node) := by rw [hsplit]; simp
    have hvalued' : ∀ n ∈ (front ++ [part]).map (·.node),
        M.Valued library around g scope (σ.push new) n := by
      intro n hn
      rw [List.map_append, List.mem_append, List.map_singleton, List.mem_singleton] at hn
      rcases hn with hn | rfl
      · exact (hvalued n hn).push hnames
      · cases hk : part.node.kind.isSubnetInput with
        | true => exact hboundary' _ hpart hk
        | false => exact hnew.valued hfresh.left (List.mem_singleton_self _) hk
    obtain ⟨newer, hrest⟩ := yields_parts hyields rest (front ++ [part]) (σ.push new) hsplit'
      hrunning hvalued' hboundary' (hfresh.right hnew.declared)
    exact ⟨new ++ newer, hnew.append hrest hfresh⟩

/-! ## §6. The end of a network -/

/-- **A network ends with its root**, if that is where no value leaves. -/
theorem Graph.Schedules.ends {filter : Node → InputFilter} {roots : List NodeId}
    {order : List Node} (h : g.Schedules filter roots order) (hg : g.Regular) {root : Node}
    (hroot : root ∈ g.nodes) (houtputs : root.outputs = []) (hroots : ∀ id ∈ roots, id = root.id) :
    order = [] ∨ ∃ front, order = front ++ [root] ∧ ∀ n ∈ front, n.outputs ≠ [] := by
  -- a node without outputs feeds nothing, so it is listed as a root only
  have hone : ∀ n ∈ order, n.outputs = [] → n = root := by
    intro n hn hnone
    rcases h.needed n hn with hid | ⟨m, _, _, _, _, c, hc, hsource⟩
    · have hfound := h.found n hn
      rw [hroots n.id hid, hg.node?_of_mem hroot] at hfound
      exact (Option.some.inj hfound).symm
    · have houtput := (hg.feeds hc hsource).1
      rw [hnone] at houtput
      cases houtput
  rcases List.eq_nil_or_concat order with hnil | ⟨front, last, hsplit⟩
  · exact .inl hnil
  · right
    rw [List.concat_eq_append] at hsplit
    have hlast : last ∈ order := by rw [hsplit]; simp
    have hapart : last ∉ front := by
      intro hmem
      have hnodup := h.nodup
      rw [hsplit, List.map_append, List.nodup_append] at hnodup
      exact hnodup.2.2 last.id (List.mem_map_of_mem hmem) last.id (by simp) rfl
    have heq : last = root := by
      rcases h.needed last hlast with hid | ⟨m, hm, input, hinput, hallows, c, hc, hsource⟩
      · have hfound := h.found last hlast
        rw [hroots last.id hid, hg.node?_of_mem hroot] at hfound
        exact (Option.some.inj hfound).symm
      · -- what feeds another node stands in front of it, which the last node does not
        exfalso
        obtain ⟨before, behind, hm⟩ := List.append_of_mem hm
        obtain ⟨source, hbefore, hsource'⟩ := h.behind _ _ _ hm input hinput hallows c hc
        rw [hsource] at hsource'
        obtain rfl := Option.some.inj hsource'
        rw [hsplit] at hm
        rcases List.append_eq_append_iff.mp hm with ⟨as, hbefore', hend⟩ | ⟨bs, hfront, hend⟩
        · cases as with
          | nil =>
            rw [List.append_nil] at hbefore'
            rw [hbefore'] at hbefore
            exact hapart hbefore
          | cons a as => simp at hend
        · rw [hfront] at hapart
          exact hapart (List.mem_append_left _ hbefore)
    subst heq
    refine ⟨front, hsplit, fun n hn hnone => ?_⟩
    have hmem : n ∈ order := by rw [hsplit]; simp [hn]
    rw [hone n hmem hnone] at hn
    exact hapart hn

/-- The parts of a network that only computes: those of its root and of what feeds it, unless
    its stage has nothing to do there. -/
theorem Graph.Emits.ends {root : Node}
    (h : g.Emits b context stage scope (root.id :: b.sideRoots g) parts) (hg : g.Regular)
    (hside : b.sideRoots g = []) (hroot : root ∈ g.nodes) (houtputs : root.outputs = []) :
    (b.follows stage root).isEmpty = true ∧ parts = [] ∨
      ∃ front last, parts = front ++ [last] ∧ last.node = root ∧
        ∀ part ∈ front, part.node.outputs ≠ [] := by
  have hroots : ∀ id ∈ (root.id :: b.sideRoots g).filter (b.concerns g stage), id = root.id := by
    intro id hid
    rw [hside] at hid
    exact List.mem_singleton.mp (List.mem_filter.mp hid).1
  rcases h.schedules.ends hg hroot houtputs hroots with hnil | ⟨nodes, hnodes, hfront⟩
  · left
    refine ⟨?_, List.map_eq_nil_iff.mp hnil⟩
    -- a root that follows some input concerns the stage, and then the order lists it
    by_contra hfollows
    have hconcerns : b.concerns g stage root.id = true := by
      simp only [Backend.concerns, hg.node?_of_mem hroot, Bool.or_eq_true, Bool.not_eq_true']
      exact .inr (by simpa using hfollows)
    obtain ⟨n, hn, _⟩ := h.schedules.started root.id
      (List.mem_filter.mpr ⟨List.mem_cons_self, hconcerns⟩)
    rw [hnil] at hn
    cases hn
  · right
    obtain ⟨front, tail, rfl, hbefore, htail⟩ := List.map_eq_append_iff.mp hnodes
    obtain ⟨last, rfl, hlast⟩ := List.map_eq_singleton_iff.mp htail
    refine ⟨front, last, rfl, hlast, fun part hpart => hfront part.node ?_⟩
    rw [← hbefore]
    exact List.mem_map_of_mem hpart

end ShaderFlow
