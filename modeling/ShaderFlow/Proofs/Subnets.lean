/-
  ShaderFlow.Proofs.Subnets — the values of subnets, as their code computes them.

  The code of a subnet binds its inputs, declares its outputs as zeros and runs its network in
  a block of its own, whose last node hands the outputs over.  Where the block is skipped the
  zeros stay.

  Main statements:
    * `Graph.Emits.run_skipped`    — code does nothing in a block that is skipped;
    * `Meaning.run_collector`      — handing the outputs over;
    * `Meaning.entered_or_skipped` — the block of a subnet is entered or skipped;
    * `Graph.Emits.yields_subnet`  — one subnet;
    * `Graph.handsOver`            — the network of a subnet, however deep.
-/

import ShaderFlow.Proofs.Evaluation

namespace ShaderFlow

open Contribution

variable {V : Type} {M : Meaning V} {around : List (Graph × Node)} {b : Backend}
  {context : Context} {stage : Stage} {scope : Scope} {roots : List NodeId} {g : Graph}
  {parts : List Part} {σ : Store V}

/-! ## §1. Blocks that are skipped -/

theorem Meaning.run_bodyOf_skipped :
    ∀ {parts : List Part}, (∀ part ∈ parts, M.run σ (part.statements stage) = some σ) →
      M.run σ (bodyOf stage parts) = some σ
  | [], _ => rfl
  | part :: parts, h => by
    have hbody : bodyOf stage (part :: parts) = part.statements stage ++ bodyOf stage parts := rfl
    rw [hbody, run_append, h part List.mem_cons_self]
    exact run_bodyOf_skipped fun other hother => h other (List.mem_cons_of_mem _ hother)

/-- **Code does nothing in a block that is skipped**: it closes all blocks that it opens. -/
theorem Graph.Emits.run_skipped :
    ∀ {g : Graph} {scope : Scope} {roots : List NodeId} {parts : List Part},
      g.Emits b context stage scope roots parts →
        ∀ σ : Store V, σ.skipped ≠ 0 → M.run σ (bodyOf stage parts) = some σ := by
  intro g
  induction g using Graph.network_induction with
  | step g ih =>
    intro scope roots parts h σ hskipped
    refine Meaning.run_bodyOf_skipped fun part hpart => ?_
    rcases h.cases hpart with ⟨hsubnet, _⟩ | ⟨subnet, _, _, _, hk, _⟩
    · exact Meaning.run_plain_skipped hskipped (h.leaf hpart hsubnet).2.plain
    · obtain ⟨output, bindings, inner, _, hbindings, hinner, hbody⟩ := h.written_subnet hpart hk
      have hnests : subnet.network.Nests g := ⟨part.node, h.node_mem hpart, subnet, hk, rfl⟩
      obtain ⟨depth, hdepth⟩ : ∃ depth, σ.skipped = depth + 1 := ⟨σ.skipped - 1, by omega⟩
      let s : Site := { graph := g, node := part.node, stage, scope, context }
      -- a block inside a skipped one is counted, and its closing uncounts it
      have hopener : M.step σ (s.opener subnet.block) = some { σ with skipped := depth + 2 } := by
        cases subnet.block <;> simp only [Site.opener, Meaning.step, hdepth]
      have hcloser : M.step { σ with skipped := depth + 2 } .closeBlock = some σ := by
        show some { σ with skipped := depth + 1 } = some σ
        rw [← hdepth]
      rw [hbody, Meaning.run_append, Meaning.run_append, Site.opening_eq, Meaning.run_append,
        Meaning.run_plain_skipped hskipped (Site.plain_front hbindings), Option.bind_some,
        Meaning.run_cons, hopener, Option.bind_some, Meaning.run_nil, Option.bind_some,
        ih _ hnests hinner _ (Nat.succ_ne_zero _), Option.bind_some, Meaning.run_cons, hcloser]
      rfl

/-! ## §2. Around the block of a subnet -/

namespace Site

variable {s : Site} {subnet : Subnet} {bindings : List Statement}

/-- The variables of the boundary of a subnet: its inputs, and zeros for its outputs. -/
def boundary (M : Meaning V) (s : Site) (subnet : Subnet) (held : String → V) : Table String V :=
  (subnet.inputs.map (·.name)).map (fun name => (s.inner.inputVar name, held name)) ++
    subnet.outputs.map fun spec => (s.inner.outputVar spec.name, M.zero spec.type)

theorem keys_boundary (held : String → V) :
    (s.boundary M subnet held).keys = (subnet.inputs.map (·.name)).map s.inner.inputVar ++
      (subnet.outputs.map (·.name)).map s.inner.outputVar := by
  simp only [boundary, Table.keys, List.map_append, List.map_map]
  rfl

variable {held : String → V}

theorem get?_boundary_input {input : String} (h : input ∈ subnet.inputs.map (·.name)) :
    (s.boundary M subnet held).get? (s.inner.inputVar input) = some (held input) := by
  rw [boundary, Table.get?_append, Table.get?_map_of_mem s.inner.inputVar_injective held h,
    Option.some_or]

theorem get?_boundary_output {output : String} {spec : PortSpec}
    (h : subnet.outputs.find? (·.name == output) = some spec)
    (hapart : s.inner.outputVar output ∉ (subnet.inputs.map (·.name)).map s.inner.inputVar) :
    (s.boundary M subnet held).get? (s.inner.outputVar output) = some (M.zero spec.type) := by
  have hnone : Table.get? ((subnet.inputs.map (·.name)).map fun name =>
      (s.inner.inputVar name, held name)) (s.inner.outputVar output) = none := by
    rw [Table.get?_eq_none, Table.keys, List.map_map]
    exact hapart
  rw [boundary, Table.get?_append, hnone, Option.none_or,
    Table.get?_map s.inner.outputVar_injective (fun spec : PortSpec => spec.name), h,
    Option.map_some]

theorem find?_boundary_input {input : String}
    (hnew : ∀ x ∈ (s.boundary M subnet held).keys, x ∉ σ.names)
    (h : input ∈ subnet.inputs.map (·.name)) :
    (σ.push (s.boundary M subnet held)).find? (s.inner.inputVar input) = some (held input) := by
  have hget : (s.boundary M subnet held).get? (s.inner.inputVar input) = some (held input) :=
    get?_boundary_input h
  exact Store.find?_push_of_get? (hnew _ (Table.mem_keys_of_get? hget)) hget

/-- They are what the front of the subnet declares. -/
theorem keys_boundary_eq (hk : s.node.kind = .subnet subnet)
    (hbindings : subnet.inputs.mapM s.bindInput = .ok bindings) (held : String → V) :
    (s.boundary M subnet held).keys = declaredIn (s.front subnet bindings) := by
  rw [keys_boundary, front, declaredIn_append, declaredIn_bindings hbindings,
    declaredIn_outputs, List.map_map, List.map_map]
  simp only [varName_eq_outputVar hk]
  rfl

end Site

/-- **The front of a subnet** declares its inputs with what they denote, and its outputs. -/
theorem Meaning.run_front {s : Site} {subnet : Subnet} {bindings : List Statement}
    (hk : s.node.kind = .subnet subnet)
    (hbindings : subnet.inputs.mapM s.bindInput = .ok bindings) (hg : s.graph.Regular)
    (hsupplied : ∀ input ∈ s.node.inputNames, s.Supplied M around σ input)
    (hrunning : σ.skipped = 0) (hfresh : σ.Fresh (s.front subnet bindings)) :
    ∃ held : String → V,
      (∀ spec ∈ subnet.inputs,
        M.Denotes s.context.library around s.graph s.node (.input spec.name) (held spec.name)) ∧
      M.run σ (s.front subnet bindings) = some (σ.push (s.boundary M subnet held)) := by
  obtain ⟨held, hheld⟩ := M.exists_value hg hsupplied
  have hall : List.Forall₂ (fun spec st =>
      M.Denotes s.context.library around s.graph s.node (.input spec.name) (held spec.name) ∧
        ∃ type o, st = .declare type (s.inner.inputVar spec.name) (.operand o) ∧
          M.operand σ o = some (held spec.name)) subnet.inputs bindings := by
    refine (mapM_eq_ok.mp hbindings).imp fun spec st hst => ?_
    obtain ⟨o, ho, rfl⟩ := map_eq_ok.mp hst
    obtain ⟨hdenotes, hvalue⟩ := hheld spec.name o ho
    exact ⟨hdenotes, spec.type, o, rfl, hvalue⟩
  obtain ⟨hdenotes, hinputs⟩ := (List.forall₂_and_left _ _).mp hall
  refine ⟨held, hdenotes, ?_⟩
  have hkeys := s.keys_boundary_eq (M := M) hk hbindings held
  have hnodup : (s.boundary M subnet held).keys.Nodup := by
    rw [hkeys]
    exact hfresh.nodup
  have hnew : ∀ x ∈ (s.boundary M subnet held).keys, x ∉ σ.names := by
    rw [hkeys]
    exact hfresh.new
  refine run_declares (List.rel_append ?_ ?_) hrunning hnodup hnew
  · rw [List.map_map, List.forall₂_map_right_iff]
    exact hinputs.flip
  · rw [List.forall₂_map_left_iff, List.forall₂_map_right_iff, List.forall₂_same]
    intro spec _
    refine ⟨spec.type, .zero spec.type, ?_, rfl⟩
    rw [Site.declareOutput, Site.varName_eq_outputVar hk]

/-! ## §3. Handing the outputs over -/

/-- The inputs that feed something into what collects the outputs of a subnet, with values, as
    the variables that they are handed over to. -/
def Site.handed (s : Site) (value : String → V) : Table String V :=
  (s.node.inputNames.filter s.isFed).map fun input => (s.scope.outputVar input, value input)

theorem Site.mem_keys_handed {s : Site} {value : String → V} {x : String}
    (h : x ∈ (s.handed value).keys) : x ∈ s.node.inputNames.map s.scope.outputVar := by
  rw [handed, Table.keys, List.map_map] at h
  obtain ⟨input, hinput, rfl⟩ := List.mem_map.mp h
  exact List.mem_map_of_mem (List.mem_filter.mp hinput).1

/-- **Handing the outputs over.**  Each fed input is assigned, with what it denotes, to the
    variable in front of the block, and none of these variables is read meanwhile. -/
theorem Meaning.run_collector {s : Site} {cs : List Contribution} {new : Table String V}
    (hemit : Backend.emitBridge s = .ok cs) (hg : s.graph.Regular)
    (hsupplied : ∀ input ∈ s.node.inputNames,
      s.Supplied M around (σ.enter.push new) input)
    (hrunning : σ.skipped = 0)
    (hopen : ∀ x ∈ s.node.inputNames.map s.scope.outputVar, x ∈ σ.top.keys)
    (hnew : ∀ x ∈ s.node.inputNames.map s.scope.outputVar, x ∉ new.keys)
    (hapart : ∀ input ∈ s.node.inputNames, ∀ x, s.Feeds input x →
      x ∉ s.node.inputNames.map s.scope.outputVar) :
    ∃ value : String → V,
      (∀ input ∈ s.node.inputNames.filter s.isFed,
        M.Denotes s.context.library around s.graph s.node (.input input) (value input)) ∧
      M.run (σ.enter.push new) (written s.stage cs) =
        some ((σ.putAll (s.handed value)).enter.push new) := by
  obtain ⟨body, hbody, hcs⟩ := bind_eq_ok.mp hemit
  rw [pure_eq_ok] at hcs
  subst hcs
  obtain ⟨value, hvalue⟩ := M.exists_value hg hsupplied
  have hall : List.Forall₂ (fun input st =>
      M.Denotes s.context.library around s.graph s.node (.input input) (value input) ∧
        ∃ o, st = .assign (.var (s.scope.outputVar input)) (.operand o) ∧
          M.operand (σ.enter.push new) o = some (value input) ∧
          ∀ x ∈ o.locals, x ∉ s.node.inputNames.map s.scope.outputVar)
      (s.node.inputNames.filter s.isFed) body := by
    refine (mapM_eq_ok.mp hbody).imp fun input st hst => ?_
    obtain ⟨o, ho, rfl⟩ := map_eq_ok.mp hst
    obtain ⟨hdenotes, hread⟩ := hvalue input o ho
    obtain ⟨hinput, _, hfeeds⟩ := s.input_spec ho
    exact ⟨hdenotes, o, rfl, hread, fun x hx => hapart input hinput x (hfeeds x hx)⟩
  obtain ⟨hdenotes, hassigns⟩ := (List.forall₂_and_left _ _).mp hall
  refine ⟨value, hdenotes, ?_⟩
  have hwritten : written s.stage [.statements s.stage body] = body := by simp
  rw [hwritten]
  refine run_assigns hnew ?_ hrunning hopen fun x hx => s.mem_keys_handed hx
  rw [Site.handed, List.forall₂_map_right_iff]
  exact hassigns.flip

/-! ## §4. Subnets -/

/-- A store whose innermost block holds the boundary of the network that the site of its
    collector is in. -/
structure Site.Bounded (M : Meaning V) (around : List (Graph × Node)) (σ : Store V) (s : Site) :
    Prop where
  running : σ.skipped = 0
  inputs : ∀ n ∈ s.graph.nodes, n.kind.isSubnetInput = true →
    M.Valued s.context.library around s.graph s.scope σ n
  outputs : ∀ x ∈ s.node.inputNames.map s.scope.outputVar, x ∈ σ.top.keys
  apart : ∀ n ∈ s.graph.nodes, n.kind.isSubnetInput = true →
    ∀ output ∈ n.outputs.map (·.name),
      s.scope.inputVar output ∉ s.node.inputNames.map s.scope.outputVar

/-- Code that hands over, from a block of its own, what the collector of its network denotes. -/
def Site.Collects (M : Meaning V) (around : List (Graph × Node)) (σ : Store V) (s : Site)
    (body : List Statement) : Prop :=
  ∃ (value : String → V) (new : Table String V),
    (∀ input ∈ s.node.inputNames.filter s.isFed,
      M.Denotes s.context.library around s.graph s.node (.input input) (value input)) ∧
    M.run σ.enter body = some ((σ.putAll (s.handed value)).enter.push new)

/-- Networks whose code hands over what their collector denotes, wherever they stand. -/
def Graph.HandsOver (M : Meaning V) (b : Backend) (context : Context) (stage : Stage)
    (g : Graph) : Prop :=
  ∀ (around : List (Graph × Node)) (scope : Scope) (collector : Node) (ports : List PortSpec)
    (parts : List Part) (σ : Store V),
    g.Emits b context stage scope (collector.id :: b.sideRoots g) parts →
      collector ∈ g.nodes → collector.kind = .subnetOutput ports →
      let s : Site := { graph := g, node := collector, stage, scope, context }
      s.Bounded M around σ → σ.Fresh (bodyOf stage parts) →
        s.Collects M around σ (bodyOf stage parts)

/-- The boundary of a subnet, once its front has run. -/
theorem Site.bounded {s : Site} {subnet : Subnet} {bindings : List Statement} {held : String → V}
    {collector : Node} (hk : s.node.kind = .subnet subnet)
    (hbindings : subnet.inputs.mapM s.bindInput = .ok bindings) (hmirrored : subnet.Mirrored)
    (hmem : collector ∈ subnet.network.nodes) (hcollects : collector.kind.isSubnetOutput = true)
    (hrunning : σ.skipped = 0) (hfresh : σ.Fresh (s.front subnet bindings))
    (hheld : ∀ spec ∈ subnet.inputs,
      M.Denotes s.context.library around s.graph s.node (.input spec.name) (held spec.name)) :
    Site.Bounded M ((s.graph, s.node) :: around) (σ.push (s.boundary M subnet held))
      { s with graph := subnet.network, node := collector, scope := s.inner } := by
  have hkeys := s.keys_boundary_eq (M := M) hk hbindings held
  have hnames := hmirrored.inputNames_eq hmem hcollects
  constructor
  case running => exact hrunning
  case inputs =>
    intro n hn hinput output houtput
    obtain ⟨ports, hkind⟩ := Kind.exists_of_isSubnetInput hinput
    rw [hmirrored.outputs_name_eq hn hinput] at houtput
    obtain ⟨spec, hspec, rfl⟩ := List.mem_map.mp houtput
    refine ⟨held spec.name, .offered hkind (hheld spec hspec), ?_⟩
    have hvariable : Scope.variable s.inner n spec.name = s.inner.inputVar spec.name := by
      rw [Scope.variable, hinput]
      rfl
    show Store.find? _ (Scope.variable s.inner n spec.name) = _
    rw [hvariable]
    exact s.find?_boundary_input (hkeys ▸ hfresh.new) houtput
  case outputs =>
    intro x hx
    show x ∈ Table.keys (σ.top ++ s.boundary M subnet held)
    rw [Table.keys_append, Site.keys_boundary]
    rw [hnames] at hx
    exact List.mem_append_right _ (List.mem_append_right _ hx)
  case apart =>
    intro n hn hinput output houtput hmem
    rw [hmirrored.outputs_name_eq hn hinput] at houtput
    rw [hnames] at hmem
    have hnodup := hfresh.nodup
    rw [← hkeys, Site.keys_boundary, List.nodup_append] at hnodup
    exact hnodup.2.2 _ (List.mem_map_of_mem houtput) _ hmem rfl

/-- **The block of a subnet** is entered, and then the subnet has the values that its network
    collects, or it is skipped, and then the subnet has zeros. -/
theorem Meaning.entered_or_skipped {s : Site} {subnet : Subnet} {held : String → V}
    {collector : Node} (hk : s.node.kind = .subnet subnet)
    (hcollector : subnet.outputNode? = some collector) (hrunning : σ.skipped = 0)
    (hcondition : ∀ name, subnet.block = .conditional name →
      M.Denotes s.context.library around s.graph s.node (.input name) (held name) ∧
        σ.find? (s.inner.inputVar name) = some (held name)) :
    (M.step σ (s.opener subnet.block) = some σ.enter ∧
      ∀ output v, M.Denotes s.context.library ((s.graph, s.node) :: around) subnet.network collector
          (.input output) v →
        M.Denotes s.context.library around s.graph s.node (.output output) v) ∨
    (M.step σ (s.opener subnet.block) = some { σ with skipped := 1 } ∧
      ∀ output port, s.node.output? output = some port →
        M.Denotes s.context.library around s.graph s.node (.output output) (M.zero port.type)) := by
  cases hblock : subnet.block with
  | always =>
    refine .inl ⟨?_, fun output v hv => .always hk hblock hcollector hv⟩
    simp only [Site.opener, step, hrunning]
  | conditional name =>
    obtain ⟨hdenotes, hfind⟩ := hcondition name hblock
    have hvalue : M.operand σ (.var (s.inner.inputVar name)) = some (held name) := hfind
    have hstep : M.step σ (s.opener (.conditional name)) =
        some (if M.holds (held name) then σ.enter else { σ with skipped := 1 }) := by
      simp only [Site.opener, step, hrunning, hvalue, Option.map_some]
    cases hholds : M.holds (held name) with
    | true =>
      refine .inl ⟨?_, fun output v hv => .taken hk hblock hdenotes hholds hcollector hv⟩
      rw [hstep, hholds, if_pos rfl]
    | false =>
      refine .inr ⟨?_, fun output port hport => .skipped hk hblock hdenotes hholds hport⟩
      rw [hstep, hholds, if_neg Bool.false_ne_true]

/-- A block that is entered, whose code only changes variables in front of it. -/
theorem Meaning.run_entered {τ : Store V} {opener : Statement} {body : List Statement}
    {new : Table String V} (hopen : M.step σ opener = some σ.enter)
    (hbody : M.run σ.enter body = some (τ.enter.push new)) (hrunning : τ.skipped = 0) :
    M.run σ ([opener] ++ body ++ [.closeBlock]) = some τ := by
  have hclose : M.step (τ.enter.push new) .closeBlock = some τ := by
    have hrunning' : (τ.enter.push new).skipped = 0 := hrunning
    simp only [step, hrunning', Store.leave_enter_push]
  rw [run_append, run_append, run_cons, hopen, Option.bind_some, run_nil, Option.bind_some, hbody,
    Option.bind_some, run_cons, hclose]
  rfl

/-- A block that is skipped. -/
theorem Meaning.run_passed {opener : Statement} {body : List Statement}
    (hopen : M.step σ opener = some { σ with skipped := 1 })
    (hbody : M.run { σ with skipped := 1 } body = some { σ with skipped := 1 })
    (hrunning : σ.skipped = 0) : M.run σ ([opener] ++ body ++ [.closeBlock]) = some σ := by
  have hclose : M.step { σ with skipped := 1 } .closeBlock = some σ := by
    show some { σ with skipped := 0 } = some σ
    rw [← hrunning]
  rw [run_append, run_append, run_cons, hopen, Option.bind_some, run_nil, Option.bind_some, hbody,
    Option.bind_some, run_cons, hclose]
  rfl

/-- The port of a subnet by the name of an output, on both sides of its boundary. -/
theorem Subnet.find?_output {subnet : Subnet} {n collector : Node} (hk : n.kind = .subnet subnet)
    (hinputs : collector.inputs = subnet.outputs.map PortSpec.toInput) {output : String}
    (houtput : output ∈ n.outputs.map (·.name)) :
    ∃ spec, subnet.outputs.find? (·.name == output) = some spec ∧
      n.output? output = some spec.toOutput ∧ collector.input? output = some spec.toInput := by
  rw [Node.outputs, hk, Kind.outputs, List.map_map] at houtput
  obtain ⟨port, hport, rfl⟩ := List.mem_map.mp houtput
  have hsome : (subnet.outputs.find? (·.name == port.name)).isSome = true :=
    List.find?_isSome.mpr ⟨port, hport, by simp⟩
  obtain ⟨spec, hspec⟩ := Option.isSome_iff_exists.mp hsome
  refine ⟨spec, hspec, ?_, ?_⟩
  · rw [Node.output?, Node.outputs, hk, Kind.outputs, List.find?_map]
    exact congrArg (Option.map PortSpec.toOutput) hspec
  · rw [Node.input?, hinputs, List.find?_map]
    exact congrArg (Option.map PortSpec.toInput) hspec

/-- The variables of outputs are none of those of inputs. -/
theorem Site.apart_of_nodup {s : Site} {subnet : Subnet} {held : String → V}
    (hnodup : (s.boundary M subnet held).keys.Nodup) {spec : PortSpec} {output : String}
    (hspec : subnet.outputs.find? (·.name == output) = some spec) :
    s.inner.outputVar output ∉ (subnet.inputs.map (·.name)).map s.inner.inputVar := by
  intro hmem
  rw [Site.keys_boundary, List.nodup_append] at hnodup
  have hname : spec.name = output := by simpa using List.find?_some hspec
  have houtput : s.inner.outputVar output ∈
      (subnet.outputs.map (·.name)).map s.inner.outputVar := by
    rw [← hname]
    exact List.mem_map_of_mem (List.mem_map_of_mem (List.mem_of_find?_eq_some hspec))
  exact hnodup.2.2 _ hmem _ houtput rfl

/-- The outputs of a subnet whose network was run: what was handed over, and zeros. -/
theorem Site.values_entered {s : Site} {subnet : Subnet} {held value : String → V}
    {collector : Node} (hk : s.node.kind = .subnet subnet)
    (hinputs : collector.inputs = subnet.outputs.map PortSpec.toInput)
    (hnodup : (s.boundary M subnet held).keys.Nodup) :
    let inner : Site := { s with graph := subnet.network, node := collector, scope := s.inner }
    (∀ input ∈ collector.inputNames.filter inner.isFed,
      M.Denotes s.context.library ((s.graph, s.node) :: around) subnet.network collector
        (.input input) (value input)) →
    ∀ output ∈ s.node.outputs.map (·.name), ∃ v,
      M.Denotes s.context.library ((s.graph, s.node) :: around) subnet.network collector
        (.input output) v ∧
      ((s.boundary M subnet held).putAll (inner.handed value)).get? (s.inner.outputVar output) =
        some v := by
  intro inner hvalue output houtput
  obtain ⟨spec, hspec, _, hport⟩ := Subnet.find?_output hk hinputs houtput
  by_cases hfed : output ∈ collector.inputNames.filter inner.isFed
  · refine ⟨value output, hvalue output hfed, ?_⟩
    exact Table.get?_putAll_map s.inner.outputVar_injective value hfed
  · refine ⟨M.zero spec.type, ?_, ?_⟩
    · have hname : output ∈ collector.inputNames := by
        have hmem := List.mem_of_find?_eq_some hport
        have heq : spec.toInput.name = output := by simpa using List.find?_some hport
        exact List.mem_map.mpr ⟨_, hmem, heq⟩
      have hnone : subnet.network.inputSource? collector.id output = none := by
        cases hsource : subnet.network.inputSource? collector.id output with
        | none => rfl
        | some c =>
          have hisFed : inner.isFed output = true := by
            show (subnet.network.inputSource? collector.id output).isSome = true
            rw [hsource]
            rfl
          exact absurd (List.mem_filter.mpr ⟨hname, hisFed⟩) hfed
      exact .zero hnone hport rfl
    · have hnot : s.inner.outputVar output ∉ (inner.handed value).keys := by
        rw [Site.handed, Table.keys, List.map_map]
        intro hmem
        obtain ⟨other, hother, heq⟩ := List.mem_map.mp hmem
        rw [s.inner.outputVar_injective heq] at hother
        exact hfed hother
      rw [Table.get?_putAll_of_not_mem hnot]
      exact s.get?_boundary_output hspec (s.apart_of_nodup hnodup hspec)

/-- What is handed over goes to the variables that the front declared for the outputs. -/
theorem Site.keys_handed_subset {s : Site} {subnet : Subnet} {collector : Node}
    (hnames : collector.inputNames = subnet.outputs.map (·.name)) (held value : String → V) :
    let inner : Site := { s with graph := subnet.network, node := collector, scope := s.inner }
    ∀ x ∈ (inner.handed value).keys, x ∈ (s.boundary M subnet held).keys := by
  intro inner x hx
  have hout : x ∈ collector.inputNames.map s.inner.outputVar := inner.mem_keys_handed hx
  rw [hnames] at hout
  rw [keys_boundary]
  exact List.mem_append_right _ hout

/-- The code of a subnet adds its boundary, with the values of its outputs. -/
theorem Site.yields_boundary {s : Site} {subnet : Subnet} {bindings body : List Statement}
    {held : String → V} {new : Table String V} (hk : s.node.kind = .subnet subnet)
    (hbindings : subnet.inputs.mapM s.bindInput = .ok bindings)
    (hkeys : new.keys = (s.boundary M subnet held).keys)
    (hrun : M.run σ (s.front subnet bindings ++ body) = some (σ.push new))
    (hvalues : ∀ output ∈ s.node.outputs.map (·.name), ∃ v,
      M.Denotes s.context.library around s.graph s.node (.output output) v ∧
        new.get? (s.inner.outputVar output) = some v) :
    M.Yields s.context.library around s.graph s.scope σ [s.node] (s.front subnet bindings ++ body)
      new where
  run := hrun
  declared := by
    intro x hx
    rw [hkeys, s.keys_boundary_eq hk hbindings] at hx
    rw [declaredIn_append]
    exact List.mem_append_left _ hx
  values := by
    intro n hn _ output houtput
    rw [List.mem_singleton.mp hn] at houtput ⊢
    have hvar : s.scope.varName s.node.name output = s.inner.outputVar output :=
      (Scope.outputVar_enter s.scope s.node.name output).symm
    rw [hvar]
    exact hvalues output houtput

/-- **One subnet**, where what feeds it has its values and its network hands its outputs over. -/
theorem Graph.Emits.yields_subnet (h : g.Emits b context stage scope roots parts)
    (hg : g.Regular) {part : Part} (hpart : part ∈ parts) {subnet : Subnet}
    (hk : part.node.kind = .subnet subnet)
    (hsupplied : ∀ input ∈ part.node.inputNames,
      Site.Supplied M around σ { graph := g, node := part.node, stage, scope, context } input)
    (hrunning : σ.skipped = 0) (hfresh : σ.Fresh (part.statements stage))
    (hcollects : subnet.network.HandsOver M b context stage) :
    ∃ new, M.Yields context.library around g scope σ [part.node] (part.statements stage) new := by
  obtain ⟨collector, bindings, inner, hcollector, hbindings, hemits, hbody⟩ :=
    h.written_subnet hpart hk
  let s : Site := { graph := g, node := part.node, stage, scope, context }
  have hmirrored := hg.mirrored part.node (h.node_mem hpart) subnet hk
  have hmem : collector ∈ subnet.network.nodes := List.mem_of_find?_eq_some hcollector
  have hkind : collector.kind.isSubnetOutput = true := by simpa using List.find?_some hcollector
  obtain ⟨ports, hports⟩ := Kind.exists_of_isSubnetOutput hkind
  have hinputs := hmirrored.inputs_eq hmem hkind
  have hparts : part.statements stage = s.front subnet bindings ++
      ([s.opener subnet.block] ++ bodyOf stage inner ++ [.closeBlock]) := by
    rw [hbody, Site.opening_eq, List.append_assoc, List.append_assoc, List.append_assoc]
  rw [hparts] at hfresh ⊢
  have hfront : σ.Fresh (s.front subnet bindings) := hfresh.left
  obtain ⟨held, hheld, hrunFront⟩ :=
    M.run_front (s := s) hk hbindings hg hsupplied hrunning hfront
  have hkeys := s.keys_boundary_eq (M := M) hk hbindings held
  have hnodup : (s.boundary M subnet held).keys.Nodup := hkeys ▸ hfront.nodup
  have hnew : ∀ x ∈ (s.boundary M subnet held).keys, x ∉ σ.names := hkeys ▸ hfront.new
  let τ := σ.push (s.boundary M subnet held)
  have hτ : τ.skipped = 0 := hrunning
  have hblock : τ.Fresh ([s.opener subnet.block] ++ bodyOf stage inner ++ [.closeBlock]) :=
    hfresh.right fun x hx => hkeys ▸ hx
  have hinner : τ.Fresh (bodyOf stage inner) := hblock.left.tail
  have hrun : ∀ {final : Store V},
      M.run τ ([s.opener subnet.block] ++ bodyOf stage inner ++ [.closeBlock]) = some final →
      M.run σ (s.front subnet bindings ++
        ([s.opener subnet.block] ++ bodyOf stage inner ++ [.closeBlock])) = some final := by
    intro final hfinal
    rw [Meaning.run_append, hrunFront]
    exact hfinal
  have hcondition : ∀ name, subnet.block = .conditional name →
      M.Denotes context.library around g part.node (.input name) (held name) ∧
        τ.find? (s.inner.inputVar name) = some (held name) := by
    intro name hblock
    have hname := hmirrored.condition name hblock
    obtain ⟨spec, hspec, heq⟩ := List.mem_map.mp hname
    exact ⟨heq ▸ hheld spec hspec, s.find?_boundary_input hnew hname⟩
  rcases M.entered_or_skipped (s := s) hk hcollector hτ hcondition with
    ⟨hopen, hlift⟩ | ⟨hopen, hzero⟩
  · obtain ⟨value, new, hvalue, hrunInner⟩ :=
      hcollects _ _ collector ports inner τ hemits hmem hports
        (s.bounded hk hbindings hmirrored hmem hkind hrunning hfront hheld) hinner
    have hhanded :=
      s.keys_handed_subset (M := M) (hmirrored.inputNames_eq hmem hkind) held value
    refine ⟨_, s.yields_boundary hk hbindings (Table.keys_putAll hhanded) (hrun ?_) ?_⟩
    · rw [← Store.putAll_push hnew hhanded]
      exact Meaning.run_entered hopen hrunInner hτ
    · intro output houtput
      obtain ⟨v, hv, hget⟩ := s.values_entered hk hinputs hnodup hvalue output houtput
      exact ⟨v, hlift output v hv, hget⟩
  · have hpassed := hemits.run_skipped (M := M) { τ with skipped := 1 } (Nat.succ_ne_zero 0)
    refine ⟨_, s.yields_boundary hk hbindings rfl (hrun (Meaning.run_passed hopen hpassed hτ)) ?_⟩
    intro output houtput
    obtain ⟨spec, hspec, hport, _⟩ := Subnet.find?_output hk hinputs houtput
    exact ⟨_, hzero output _ hport, s.get?_boundary_output hspec (s.apart_of_nodup hnodup hspec)⟩

/-! ## §5. Networks -/

/-- What stands in front of the last node of a network, where its subnets hand over what they
    collect. -/
theorem Graph.Emits.yields_front (h : g.Emits b context stage scope roots parts)
    (hg : g.Regular) (hdata : g.Dataflow)
    (hcollects : ∀ inner : Graph, inner.Nests g → inner.HandsOver M b context stage)
    {front : List Part} {last : Part} (hsplit : parts = front ++ [last])
    (houtputs : ∀ part ∈ front, part.node.outputs ≠ []) (hrunning : σ.skipped = 0)
    (hboundary : ∀ n ∈ g.nodes, n.kind.isSubnetInput = true →
      M.Valued context.library around g scope σ n)
    (hfresh : σ.Fresh (bodyOf stage front)) :
    ∃ new, M.Yields context.library around g scope σ (front.map (·.node)) (bodyOf stage front)
      new := by
  refine Graph.yields_parts ?_ front [] σ (List.nil_append front).symm hrunning
    (by intro n hn; cases hn) ?_ hfresh
  · intro before part behind τ hfront hτ hvalued hfreshPart
    have hparts : parts = before ++ part :: (behind ++ [last]) := by rw [hsplit, hfront]; simp
    have hpart : part ∈ parts := by rw [hparts]; simp
    have hout : part.node.outputs ≠ [] := houtputs part (by rw [hfront]; simp)
    have hall : b.follows stage part.node = .all := hdata.follows_eq_all (h.node_mem hpart) hout
    have hsupplied : ∀ input ∈ part.node.inputNames, Site.Supplied M around τ
        { graph := g, node := part.node, stage, scope, context } input :=
      fun input hinput => h.supplied hparts hvalued hinput (by rw [hall]; rfl)
    rcases h.cases hpart with ⟨hsubnet, _⟩ | ⟨subnet, _, _, _, hk, _⟩
    · exact h.yields_leaf hg hdata hpart hsubnet hout hsupplied hτ hfreshPart
    · have hnests : subnet.network.Nests g := ⟨part.node, h.node_mem hpart, subnet, hk, rfl⟩
      exact h.yields_subnet hg hpart hk hsupplied hτ hfreshPart
        (hcollects _ hnests)
  · intro n hn hk
    obtain ⟨part, hpart, rfl⟩ := List.mem_map.mp hn
    have hmem : part ∈ parts := by rw [hsplit]; exact List.mem_append_left _ hpart
    exact hboundary part.node (h.node_mem hmem) hk

/-- **The network of a subnet**, however deep, hands over what its collector denotes. -/
theorem Graph.handsOver :
    ∀ {g : Graph}, g.Everywhere Graph.Regular → g.Everywhere Graph.Dataflow →
      g.HandsOver M b context stage := by
  intro g
  induction g using Graph.network_induction with
  | step g ih =>
    intro hg hdata around scope collector ports parts σ h hmem hports s hbounded hfresh
    have hout : collector.outputs = [] := by
      rw [Node.outputs, hports]
      rfl
    have hfollows : b.follows stage collector = .all :=
      b.follows_eq_all stage (by rw [hports]; trivial)
    rcases h.ends hg.here (Backend.sideRoots_eq_nil hdata) hmem hout with
      ⟨hnone, _⟩ | ⟨front, last, rfl, hlast, houtputs⟩
    · rw [hfollows] at hnone
      cases hnone
    have hbody : bodyOf stage (front ++ [last]) = bodyOf stage front ++ last.statements stage := by
      simp [bodyOf]
    rw [hbody] at hfresh ⊢
    obtain ⟨new, hfront⟩ := h.yields_front hg.here hdata.here
      (fun inner hinner => ih inner hinner (hg.inside hinner) (hdata.inside hinner)) rfl houtputs
      (σ := σ.enter) hbounded.running (fun n hn hk => (hbounded.inputs n hn hk).enter)
      hfresh.left.enter
    have hlastMem : last ∈ front ++ [last] := by simp
    have hemit : Backend.emitBridge s = .ok last.contributions := by
      rcases h.cases hlastMem with ⟨_, hemit⟩ | ⟨subnet, _, _, _, hk, _⟩
      · rw [hlast, hports] at hemit
        exact hemit
      · rw [hlast, hports] at hk
        cases hk
    have hnames : ∀ x ∈ new.keys, x ∉ σ.names :=
      fun x hx => hfresh.left.new x (hfront.declared x hx)
    have hvalued : ∀ n ∈ front.map (·.node),
        M.Valued context.library around g scope (σ.enter.push new) n := by
      intro n hn
      cases hk : n.kind.isSubnetInput with
      | true =>
        obtain ⟨part, hpart, rfl⟩ := List.mem_map.mp hn
        have hnode := h.node_mem (List.mem_append_left [last] hpart)
        exact (hbounded.inputs _ hnode hk).enter.push hnames
      | false => exact hfront.valued hfresh.left.enter hn hk
    have hsupplied : ∀ input ∈ collector.inputNames,
        s.Supplied M around (σ.enter.push new) input := by
      intro input hinput
      subst hlast
      have hsplit : front ++ [last] = front ++ last :: [] := rfl
      exact h.supplied hsplit hvalued hinput (by rw [hfollows]; rfl)
    have hassigned : ∀ x ∈ s.node.inputNames.map s.scope.outputVar, x ∈ σ.names :=
      fun x hx => Store.mem_names_of_top (hbounded.outputs x hx)
    -- what the collector reads is of the boundary or declared in the block, never assigned
    have hapart : ∀ input ∈ collector.inputNames, ∀ x, s.Feeds input x →
        x ∉ s.node.inputNames.map s.scope.outputVar := by
      rintro input hinput x ⟨c, source, hc, hsource, rfl⟩ hmem
      have houtput := (hg.here.feeds hc hsource).1
      have hread : s.variableOf source c.output = scope.variable source c.output := rfl
      rw [hread] at hmem
      cases hk : source.kind.isSubnetInput with
      | true =>
        refine hbounded.apart source (Graph.mem_of_node? hsource) hk _ houtput ?_
        rw [Scope.variable, hk] at hmem
        exact hmem
      | false =>
        have hnodes : (front ++ [last]).map (·.node) = front.map (·.node) ++ collector :: [] := by
          rw [List.map_append, List.map_singleton, hlast]
        obtain ⟨source', hbefore, hsource'⟩ := h.schedules.behind _ _ _ hnodes input hinput
          (by rw [hfollows]; rfl) c hc
        rw [hsource] at hsource'
        obtain rfl := Option.some.inj hsource'
        obtain ⟨v, _, hget⟩ := hfront.values source hbefore hk _ houtput
        rw [Scope.variable_eq hk] at hmem
        exact hnames _ (Table.mem_keys_of_get? hget) (hassigned _ hmem)
    obtain ⟨value, hvalue, hrun⟩ := M.run_collector (s := s) hemit hg.here hsupplied
      hbounded.running hbounded.outputs (fun x hx hmem => hnames x hmem (hassigned x hx)) hapart
    refine ⟨value, new, hvalue, ?_⟩
    rw [Meaning.run_append, hfront.run, Option.bind_some]
    exact hrun

end ShaderFlow
