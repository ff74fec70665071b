/-
  ShaderFlow.Proofs.Crossings — the variables that lead into and out of subnets.

  A subnet declares a variable for each of its ports in front of its block, and each port that it
  is asked for is used inside by its variable.  Nothing compares the two.  So where a port is
  asked for that is not declared, with that name and type, the code is made all the same, and
  what it uses is not what the subnet declares.

  Main definitions:
    * `Subnet.Declares` — the declarations of the ports of a subnet;
    * `Subnet.Crossed`  — what a stage has for a subnet that it uses.

  Main statements:
    * `Site.reads_of_emitLeaf`       — a node reads every input that its stage follows;
    * `Graph.Emits.exists_code`      — where the code of a subnet stands, and what it declares;
    * `Graph.Asks.used`              — what is asked for is used;
    * `Backend.crossings_of_compile` — whole compilations;
    * `gating_unchecked`             — a condition that is no input of its subnet.
-/

import ShaderFlow.Proofs.Saving
import ShaderFlow.Proofs.Scoping

namespace ShaderFlow

open Contribution

variable {b : Backend} {context : Context} {stage : Stage} {scope : Scope} {roots : List NodeId}
  {g : Graph} {n : Node} {parts : List Part} {direction : Direction} {spec : PortSpec}

/-! ## §1. What nodes read -/

namespace Site

variable {s : Site} {cs : List Contribution} {input x : String}

/-- A fed input evaluates to the variable that feeds it. -/
theorem Feeds.mem_locals (hx : s.Feeds input x) {o : Operand} (h : s.input input = .ok o) :
    x ∈ o.locals := by
  obtain ⟨c, source, hc, hsource, rfl⟩ := hx
  unfold Site.input at h
  split at h
  next => cases h
  next port hport =>
    simp only [hc, hsource, Except.ok.injEq] at h
    rw [← h, Operand.locals_as]
    exact List.mem_singleton_self _

theorem Feeds.isFed (hx : s.Feeds input x) : s.isFed input = true := by
  obtain ⟨c, _, hc, _, _⟩ := hx
  rw [Site.isFed, hc]
  rfl

/-- A statement reads what its operands read. -/
theorem Feeds.mem_expr (hx : s.Feeds input x) {o : Operand} (h : s.input input = .ok o)
    (value : Expr) (ho : o ∈ value.operands) : x ∈ value.locals :=
  List.mem_flatMap.mpr ⟨o, ho, hx.mem_locals h⟩

/-- A node that evaluates inputs to the arguments of its one statement reads all of them. -/
theorem Feeds.mem_declare (hx : s.Feeds input x) {names : List String} {args : List Operand}
    (hargs : s.inputs names = .ok args) (hinput : input ∈ names) (output : String) (value : Expr)
    (hvalue : value.operands = args) : x ∈ (s.declare output value).locals := by
  obtain ⟨o, ho, heval⟩ := exists_mem_of_mapM hargs input hinput
  exact hx.mem_expr heval value (hvalue ▸ ho)

/-- What an exchange with the host writes stands in the stage. -/
theorem mem_written_exchange (readings : List Reading) {writes : List (Contribution × Statement)}
    {write : Contribution × Statement} (h : write ∈ writes) :
    write.2 ∈ written s.stage (s.exchange readings writes) := by
  rw [exchange, written_append, written_statements, if_pos rfl]
  refine List.mem_append_right _ (List.mem_append_left _ (List.mem_append_right _ ?_))
  exact List.mem_map_of_mem h

/-- In the vertex stage the output node of a material reads its position and its normal. -/
theorem reads_of_vertex {target : Target} {position : Reading} {definitions : List Contribution}
    {body : List Statement} (hk : s.node.kind = .output target) (hvertex : s.stage = .vertex)
    (hposition : Material.position s = .ok position)
    (hnormal : Material.normal s = .ok (definitions, body))
    (hallow : (Backend.material.follows s.stage s.node).allows input = true)
    (hx : s.Feeds input x) :
    ∃ st ∈ Statement.declare .vector3 "transformed" (.operand position.operand) :: body,
      x ∈ st.locals := by
  have hname : input = "position" ∨ input = "normal" := by
    simpa [Backend.follows, hk, Material.follows, hvertex, InputFilter.allows] using hallow
  rcases hname with rfl | rfl
  · refine ⟨_, List.mem_cons_self, ?_⟩
    rcases Material.position_cases hposition with ⟨o, _, ho, rfl⟩ | ⟨hfed, _⟩
    · exact hx.mem_expr ho (.operand o) List.mem_cons_self
    · rw [hx.isFed] at hfed
      cases hfed
  · rcases Material.normal_cases hnormal with ⟨hfed, _⟩ | ⟨o, _, ho, _, rfl⟩
    · rw [hx.isFed] at hfed
      cases hfed
    · refine ⟨_, List.mem_cons_of_mem _ List.mem_cons_self, ?_⟩
      exact List.mem_append_right _ (hx.mem_expr ho (.viewNormal o) List.mem_cons_self)

/-- In the fragment stage it reads its color and its opacity. -/
theorem reads_of_fragment {target : Target} {color alpha : Operand}
    (hk : s.node.kind = .output target) (hother : s.stage ≠ .vertex)
    (hcolor : s.input "color" = .ok color) (halpha : s.input "alpha" = .ok alpha)
    (hallow : (Backend.material.follows s.stage s.node).allows input = true)
    (hx : s.Feeds input x) : x ∈ (Expr.withAlpha color alpha).locals := by
  have hname : input = "color" ∨ input = "alpha" := by
    cases hstage : s.stage <;>
      simp_all [Backend.follows, Material.follows, InputFilter.allows]
  rcases hname with rfl | rfl
  · exact hx.mem_expr hcolor (.withAlpha color alpha) List.mem_cons_self
  · exact hx.mem_expr halpha (.withAlpha color alpha) (List.mem_cons_of_mem _ List.mem_cons_self)

/-- What is written reads the value. -/
theorem mem_locals_put {name : String} {type : PortType} {value : Operand}
    {write : Contribution × Statement} (h : b.Puts s name type value write)
    (hx : x ∈ value.locals) : x ∈ write.2.locals := by
  cases h with
  | particles hwrite =>
    obtain ⟨a, _, hwrite⟩ := bind_eq_ok.mp hwrite
    rw [pure_eq_ok] at hwrite
    subst hwrite
    simpa [Statement.locals, Place.locals, Expr.locals, Expr.operands] using hx
  | points => simpa [Points.writeField, Statement.locals, Place.locals, Expr.locals,
      Expr.operands] using hx

/-- Where the stage does not write an attribute, its export does not matter. -/
theorem not_allows_of_not_owns {name : String} {type : PortType}
    (hk : s.node.kind = .attribute name type) (howned : b.owns name s.stage = false) :
    ¬(b.follows s.stage s.node).allows input = true := by
  cases b with
  | particles table =>
    have howned : Particles.isOwned table name s.stage = false := howned
    simp [Backend.follows, Particles.follows, hk, howned, InputFilter.allows]
  | material | points => cases howned

/-- An input of an output node that matters in the stage is written there if it is fed. -/
theorem mem_outputNames {target : Target} (hk : s.node.kind = .output target)
    (hb : b ≠ .material) (hsupported : b.supports (.output target) = true)
    (hinput : input ∈ s.node.inputNames)
    (hallow : (b.follows s.stage s.node).allows input = true) (hfed : s.isFed input = true) :
    input ∈ b.outputNames s := by
  cases b with
  | material => exact absurd rfl hb
  | particles table =>
    simp only [Backend.follows, hk, Particles.follows, InputFilter.allows, List.contains_eq_mem,
      decide_eq_true_eq] at hallow
    obtain ⟨hmem, howned⟩ := List.mem_filter.mp hallow
    exact List.mem_filter.mpr ⟨hmem, by rw [howned, hfed]; rfl⟩
  | points =>
    obtain rfl : target = .points := by simpa [Backend.supports, Points.supports] using hsupported
    rw [Node.inputNames, Node.inputs, hk] at hinput
    exact List.mem_filter.mpr ⟨hinput, hfed⟩

/-- **A node reads every input that its stage follows**, if something feeds it. -/
theorem reads_of_emitLeaf (hsubnet : ∀ subnet, s.node.kind ≠ .subnet subnet)
    (hsupported : b.supports s.node.kind = true) (h : b.emitLeaf s s.node.kind = .ok cs)
    (hinput : input ∈ s.node.inputNames)
    (hallow : (b.follows s.stage s.node).allows input = true) (hx : s.Feeds input x) :
    ∃ st ∈ written s.stage cs, x ∈ st.locals := by
  have hnames : input ∈ s.node.kind.inputs.map (·.name) := hinput
  cases Site.emits_of_emitLeaf h with
  | @math op _ args hk hargs =>
    rw [hk] at hnames
    have hoperand : input ∈ op.operands.map (·.1) := by
      simpa [Kind.inputs, MathOp.inputs, Port.input] using hnames
    exact ⟨_, by simp, hx.mem_declare hargs hoperand "result" (.math op args) rfl⟩
  | @function _ specs _ f args hk _ hargs =>
    rw [hk] at hnames
    have hspec : input ∈ specs.map (·.name) := by
      simpa [Kind.inputs, PortSpec.toInput, Port.input] using hnames
    exact ⟨_, by simp, hx.mem_declare hargs hspec "result" (.call f.name args) rfl⟩
  | subnetOutput _ hbody =>
    obtain ⟨st, hst, o, ho, rfl⟩ := exists_mem_of_forall₂ hbody input
      (List.mem_filter.mpr ⟨hinput, hx.isFed⟩)
    refine ⟨_, by simpa using hst, ?_⟩
    exact List.mem_append_right _ (hx.mem_expr ho (.operand o) List.mem_cons_self)
  | @varyingWrite name _ value hk hvalue =>
    rw [hk] at hnames
    obtain rfl : input = "value" := by simpa [Kind.inputs, Port.input] using hnames
    refine ⟨.assign (.varying (Backend.varyingName name)) (.operand value), by simp, ?_⟩
    exact List.mem_append_right _
      (hx.mem_expr hvalue (.operand value) List.mem_cons_self)
  | «attribute» hk h =>
    rw [hk] at hnames
    obtain rfl : input = Kind.exportInput := by simpa [Kind.inputs, Port.input] using hnames
    cases h with
    | read =>
      -- in a material an attribute node has nothing to follow: its input may not be read
      cases hstage : s.stage <;>
        simp [Backend.follows, hk, Material.follows, InputFilter.allows] at hallow
    | exchanged hb _ hwrites =>
      cases hwrites with
      | idle hidle =>
        rw [hx.isFed, Bool.true_and] at hidle
        exact absurd hallow (not_allows_of_not_owns hk hidle)
      | @fed _ write _ _ hvalue hput =>
        exact ⟨write.2, mem_written_exchange _ List.mem_cons_self,
          mem_locals_put hput (hx.mem_locals hvalue)⟩
  | output hk h =>
    cases h with
    | vertex hvertex hposition hnormal =>
      obtain ⟨st, hst, hmem⟩ := reads_of_vertex hk hvertex hposition hnormal hallow hx
      refine ⟨st, ?_, hmem⟩
      rw [written_append, written_statements, if_pos rfl]
      exact List.mem_append_right _ (List.mem_append_left _ hst)
    | @fragment color alpha hother hcolor halpha =>
      refine ⟨.declare .vector4 "diffuseColor" (.withAlpha color alpha), by simp, ?_⟩
      exact reads_of_fragment hk hother hcolor halpha hallow hx
    | written hb hwrites =>
      rw [hk] at hsupported
      obtain ⟨write, hwrite, value, hvalue, hput⟩ := exists_mem_of_forall₂ hwrites input
        (mem_outputNames hk hb hsupported hinput hallow hx.isFed)
      exact ⟨write.2, mem_written_exchange [] hwrite, mem_locals_put hput (hx.mem_locals hvalue)⟩
  | subnet hk => exact absurd hk (hsubnet _)
  -- these have no inputs
  | constant hk | param hk | globals hk _ | varyingRead hk | subnetInput hk =>
    rw [hk] at hnames
    cases hnames

end Site

/-! ## §2. The code of a subnet -/

/-- The condition of the block of a subnet, in the scope of its network. -/
def Scope.guard (scope : Scope) : Block → Option Operand
  | .always => none
  | .conditional condition => some (.var (scope.inputVar condition))

theorem Site.opener_eq (s : Site) (block : Block) :
    s.opener block = .openBlock (s.inner.guard block) := by
  cases block <;> rfl

/-- One declaration for each port of a side of a subnet, in order, where `scope` is that of the
    network. -/
def Subnet.Declares (s : Subnet) (scope : Scope) (direction : Direction)
    (front : List Statement) : Prop :=
  List.Forall₂ (fun spec st => ∃ value,
    st = .declare spec.type (scope.boundaryVar direction spec.name) value) (s.ports direction) front

theorem Scope.boundaryVar_injective (scope : Scope) (direction : Direction) :
    Function.Injective (scope.boundaryVar direction) := by
  cases direction with
  | input => exact scope.inputVar_injective
  | output => exact scope.outputVar_injective

/-- Such declarations tell which ports there are, and of which types. -/
theorem Subnet.Declares.mem_ports_iff {s : Subnet} {front : List Statement}
    (h : s.Declares scope direction front) :
    spec ∈ s.ports direction ↔
      ∃ value, .declare spec.type (scope.boundaryVar direction spec.name) value ∈ front := by
  constructor
  · intro hspec
    obtain ⟨st, hst, value, rfl⟩ := exists_mem_of_forall₂ h spec hspec
    exact ⟨value, hst⟩
  · rintro ⟨value, hst⟩
    obtain ⟨other, hother, _, heq⟩ := exists_mem_of_forall₂ h.flip _ hst
    obtain ⟨htype, hvar, _⟩ := Statement.declare.inj heq
    have hname := scope.boundaryVar_injective direction hvar
    have hsame : spec = other :=
      calc spec = ⟨spec.name, spec.type⟩ := rfl
        _ = ⟨other.name, other.type⟩ := by rw [hname, htype]
        _ = other := rfl
    rw [hsame]
    exact hother

/-- What a subnet declares for the ports of one of its sides, in front of its block. -/
def Site.frontOf (s : Site) (subnet : Subnet) (bindings : List Statement) :
    Direction → List Statement
  | .input => bindings
  | .output => subnet.outputs.map s.declareOutput

/-- **What a subnet declares** are its ports, one after the other. -/
theorem Site.declares_frontOf {s : Site} {subnet : Subnet} {bindings : List Statement}
    (hk : s.node.kind = .subnet subnet) (h : subnet.inputs.mapM s.bindInput = .ok bindings)
    (direction : Direction) :
    subnet.Declares s.inner direction (s.frontOf subnet bindings direction) := by
  cases direction with
  | input =>
    refine (mapM_eq_ok.mp h).imp fun spec st hbind => ?_
    obtain ⟨o, _, rfl⟩ := map_eq_ok.mp hbind
    exact ⟨.operand o, rfl⟩
  | output =>
    show List.Forall₂ _ subnet.outputs (subnet.outputs.map s.declareOutput)
    rw [List.forall₂_map_right_iff, List.forall₂_same]
    intro spec _
    refine ⟨.operand (.zero spec.type), ?_⟩
    rw [declareOutput, varName_eq_outputVar hk]
    rfl

/-- The statements of a part stand together in the body. -/
theorem Part.statements_infix {part : Part} (h : part ∈ parts) :
    part.statements stage <:+: bodyOf stage parts := by
  rw [bodyOf, List.flatMap_def]
  exact List.infix_of_mem_flatten (List.mem_map_of_mem h)

/-- **Where the code of a subnet stands**, however deep the subnet: its declarations are those of
    its ports, and behind them its block is opened, whatever its condition names. -/
theorem Graph.Emits.exists_code {inner : Scope} {s : Subnet}
    (h : g.Emits b context stage scope roots parts) (hn : g.Involves b stage scope roots inner n)
    (hk : n.kind = .subnet s) :
    ∃ (output : Node) (front : Direction → List Statement) (within : List Part),
      s.outputNode? = some output ∧
      s.network.Emits b context stage (inner.enter n.name) (output.id :: b.sideRoots s.network)
        within ∧
      (∀ direction, s.Declares (inner.enter n.name) direction (front direction)) ∧
      front .input ++ front .output ++
        (.openBlock ((inner.enter n.name).guard s.block) :: (bodyOf stage within ++ [.closeBlock]))
          <:+: bodyOf stage parts := by
  induction hn generalizing parts with
  | @here scope roots g n hn =>
    obtain ⟨part, hpart, rfl⟩ := h.exists_part_of_uses hn
    obtain ⟨output, bindings, within, houtput, hbindings, hwithin, hstatements⟩ :=
      h.written_subnet hpart hk
    let site : Site := { graph := g, node := part.node, stage, scope, context }
    refine ⟨output, site.frontOf s bindings, within, houtput, hwithin,
      Site.declares_frontOf (s := site) hk hbindings, ?_⟩
    have hcode : part.statements stage = site.frontOf s bindings .input ++
        site.frontOf s bindings .output ++ (.openBlock ((scope.enter part.node.name).guard s.block) ::
          (bodyOf stage within ++ [.closeBlock])) := by
      rw [hstatements, Site.opening_eq, Site.opener_eq, List.append_assoc, List.append_assoc]
      rfl
    rw [← hcode]
    exact Part.statements_infix hpart
  -- the code of the outer subnet is around that of its network, and so around this one
  | @inside scope inner roots g n collector m t hn ht ho _ ih =>
    obtain ⟨part, hpart, rfl⟩ := h.exists_part_of_uses hn
    obtain ⟨output', _, parts', houtput, _, hinner, hstatements⟩ := h.written_subnet hpart ht
    obtain rfl := Option.some.inj (ho.symm.trans houtput)
    obtain ⟨output, front, within, hfound, hwithin, hfront, hcode⟩ := ih hinner hk
    refine ⟨output, front, within, hfound, hwithin, hfront, hcode.trans ?_⟩
    refine List.IsInfix.trans ?_ (Part.statements_infix hpart)
    rw [hstatements]
    exact ⟨_, _, rfl⟩

/-! ## §3. What is asked for is used -/

/-- **A node that is emitted reads every input that its stage follows**, a subnet in front of its
    block. -/
theorem Graph.Emits.reads {part : Part} (h : g.Emits b context stage scope roots parts)
    (hpart : part ∈ parts) {input x : String} (hinput : input ∈ part.node.inputNames)
    (hallow : (b.follows stage part.node).allows input = true)
    (hx : Site.Feeds { graph := g, node := part.node, stage, scope, context } input x) :
    ∃ st ∈ part.statements stage, x ∈ st.locals := by
  let s : Site := { graph := g, node := part.node, stage, scope, context }
  rcases h.cases hpart with ⟨hsubnet, hemit⟩ | ⟨subnet, _, _, _, hk, _⟩
  · have hsupported := (Backend.checkSupported_eq_ok.mp (h.supported part hpart)).1
    exact s.reads_of_emitLeaf hsubnet hsupported hemit hinput hallow hx
  · obtain ⟨output, bindings, inner, _, hbindings, _, hstatements⟩ := h.written_subnet hpart hk
    have hname : input ∈ subnet.inputs.map (·.name) := by
      simpa [Node.inputNames, Node.inputs, hk, Kind.inputs, PortSpec.toInput, Port.input]
        using hinput
    obtain ⟨spec, hspec, rfl⟩ := List.mem_map.mp hname
    obtain ⟨st, hst, hbind⟩ := exists_mem_of_mapM hbindings spec hspec
    obtain ⟨o, ho, rfl⟩ := map_eq_ok.mp hbind
    have hread : x ∈ (Expr.operand o).locals := hx.mem_expr ho _ List.mem_cons_self
    refine ⟨.declare spec.type (s.inner.inputVar spec.name) (.operand o), ?_, hread⟩
    rw [hstatements]
    exact List.mem_append_left _ (List.mem_append_left _ (List.mem_append_left _
      (List.mem_append_left _ hst)))

/-- **What a network asks for is used** in its body. -/
theorem Graph.Asks.used (hasks : g.Asks b stage roots direction spec)
    (h : g.Emits b context stage scope roots parts) :
    ∃ st ∈ bodyOf stage parts, scope.boundaryVar direction spec.name ∈ st.locals := by
  have hbody : ∀ part ∈ parts, ∀ x, (∃ st ∈ part.statements stage, x ∈ st.locals) →
      ∃ st ∈ bodyOf stage parts, x ∈ st.locals := by
    rintro part hpart x ⟨st, hst, hx⟩
    exact ⟨st, (Part.statements_infix hpart).subset hst, hx⟩
  cases hasks with
  | @reads n source input c port hn hinput hallow hc hsource hk _ =>
    obtain ⟨part, hpart, rfl⟩ := h.exists_part_of_uses hn
    refine hbody part hpart _ (h.reads hpart hinput hallow ⟨c, source, hc, hsource, ?_⟩)
    rw [Site.variableOf, if_pos hk]
    rfl
  | @collects n input port hn hk hport hfed =>
    obtain ⟨part, hpart, rfl⟩ := h.exists_part_of_uses hn
    refine hbody part hpart _ ?_
    rcases h.cases hpart with ⟨_, hemit⟩ | ⟨subnet, _, _, _, hsubnet, _⟩
    · obtain ⟨ports, hkind⟩ := Kind.exists_of_isSubnetOutput hk
      rw [hkind] at hemit
      obtain ⟨body, hassign, hcs⟩ := bind_eq_ok.mp hemit
      rw [pure_eq_ok] at hcs
      obtain ⟨st, hst, hw⟩ := exists_mem_of_mapM hassign input
        (List.mem_filter.mpr ⟨Node.mem_of_input? hport, hfed⟩)
      obtain ⟨o, _, rfl⟩ := map_eq_ok.mp hw
      exact ⟨_, by simpa [Part.statements, ← hcs] using hst, List.mem_cons_self⟩
    · rw [hsubnet] at hk
      cases hk

/-- **What a subnet is asked for is used** in its block. -/
theorem Subnet.Asks.used {s : Subnet} (hasks : s.Asks b stage direction spec) {output : Node}
    (ho : s.outputNode? = some output)
    (h : s.network.Emits b context stage scope (output.id :: b.sideRoots s.network) parts) :
    ∃ st ∈ .openBlock (scope.guard s.block) :: (bodyOf stage parts ++ [.closeBlock]),
      scope.boundaryVar direction spec.name ∈ st.locals := by
  cases hasks with
  | condition hblock =>
    refine ⟨_, List.mem_cons_self, ?_⟩
    rw [hblock]
    exact List.mem_singleton_self _
  | network ho' hnetwork =>
    obtain rfl := Option.some.inj (ho.symm.trans ho')
    obtain ⟨st, hst, hx⟩ := hnetwork.used h
    exact ⟨st, List.mem_cons_of_mem _ (List.mem_append_left _ hst), hx⟩

/-! ## §4. Whole compilations -/

/-- A graph that a document loads to has connections that leave outputs which are there. -/
theorem Graph.Orderly.wired (h : g.Orderly) : g.Wired where
  ids := h.ids
  wired := by
    intro c hc source hsource
    obtain ⟨s, t, hs, _, output, _, houtput, _⟩ := h.typed c hc
    obtain rfl := Option.some.inj (hs.symm.trans hsource)
    exact Node.mem_of_output? houtput

theorem Scope.isPath_boundaryVar (scope : Scope) (subnet : String) (direction : Direction)
    (name : String) : IsPath ((scope.enter subnet).boundaryVar direction name) := by
  cases direction with
  | input => exact (scope.enter subnet).isPath_inputVar name
  | output =>
    show IsPath ((scope.enter subnet).outputVar name)
    rw [Scope.outputVar_enter]
    exact scope.isPath_varName subnet name

namespace Backend.Builds

variable {output : NodeId} {builds : List (Stage × List Part)} {p : Progress}

/-- What a stage that is in scope uses is a variable of the graph, or a result. -/
theorem mem_variables_of_inScope (h : b.Builds g context output builds p)
    (hstage : stage ∈ b.stages) (hscope : InScope [[]] (p.statements stage)) {st : Statement}
    (hst : st ∈ p.statements stage) {x : String} (hx : x ∈ st.locals) (hpath : IsPath x) :
    x ∈ g.variables (Scope.root g.name) := by
  obtain ⟨front, back, hsplit⟩ := List.append_of_mem hst
  have hdeclared : x ∈ declaredIn (p.statements stage) := by
    rw [hsplit] at hscope ⊢
    rw [declaredIn_append, List.mem_append]
    exact .inl ((mem_scopesAfter (hscope.before x hx)).resolve_left (by simp))
  obtain ⟨parts, hparts, hbody⟩ := h.declaredIn_body hstage
  rw [hbody] at hdeclared
  rcases List.mem_append.mp (hparts.declared.subset hdeclared) with hresult | hvariable
  · obtain ⟨part, _, hresult⟩ := List.mem_flatMap.mp hresult
    exact absurd hpath (Backend.results_spec hresult).2.1
  · exact hvariable

/-- What a stage is built from stands together in its body. -/
theorem exists_infix (h : b.Builds g context output builds p) (hstage : stage ∈ b.stages) :
    ∃ parts, g.Emits b context stage (Scope.root g.name) (output :: b.sideRoots g) parts ∧
      bodyOf stage parts <:+: p.statements stage := by
  obtain ⟨parts, before, after, hmem, hbody, _⟩ := h.body_between hstage
  exact ⟨parts, h.emits _ hmem, before, after, hbody.symm⟩

end Backend.Builds

/-- What the body of a stage has for a subnet that the stage uses, where `scope` is that of the
    network: declarations of its ports and of nothing else, and behind them a block that uses what
    the subnet is asked for, whether that was declared with the name and type or not. -/
structure Subnet.Crossed (b : Backend) (stage : Stage) (body : List Statement) (scope : Scope)
    (s : Subnet) : Prop where
  collected : s.outputNode?.isSome = true
  code : ∃ (front : Direction → List Statement) (block : List Statement),
    front .input ++ front .output ++ block <:+: body ∧
      (∀ direction, s.Declares scope direction (front direction)) ∧
      ∀ direction spec, s.Asks b stage direction spec →
        (∃ st ∈ block, scope.boundaryVar direction spec.name ∈ st.locals) ∧
        (spec ∈ s.ports direction ↔ ∃ value,
          .declare spec.type (scope.boundaryVar direction spec.name) value ∈ front direction)

/-- **What becomes of the boundaries of subnets.**  In a graph that was loaded and compiles, each
    subnet that a stage uses declares its ports and nothing else, and its block uses all that it is
    asked for: a port that is asked for is declared, with its type, exactly if the subnet has it,
    and used in any case.  Where all that is asked for has a name that is declared, and nothing is
    asked of the graph itself, the stage uses what was declared before in an open block.  A stage
    that does so asks for variables of the graph only. -/
theorem Backend.crossings_of_compile {left : Backend} {program : Program} (hg : g.Loaded)
    (h : b.compile g context = (left, .ok program)) :
    ∃ output p, g.outputNode left.target = .ok output ∧ left.pass g context = .ok p ∧
      ∀ stage ∈ left.stages,
        (∀ inner n s,
          g.Involves left stage (Scope.root g.name) (output :: left.sideRoots g) inner n →
            n.kind = .subnet s →
              s.Crossed left stage (p.statements stage) (inner.enter n.name) ∧
              ∀ direction spec, s.Asks left stage direction spec →
                InScope [[]] (p.statements stage) →
                  (inner.enter n.name).boundaryVar direction spec.name ∈
                    g.variables (Scope.root g.name)) ∧
        (∀ spec, g.Asks left stage (output :: left.sideRoots g) .input spec →
          (∃ st ∈ p.statements stage, (Scope.root g.name).inputVar spec.name ∈ st.locals) ∧
          (InScope [[]] (p.statements stage) →
            (Scope.root g.name).inputVar spec.name ∈ g.variables (Scope.root g.name))) ∧
        (g.Covered left stage (Scope.root g.name) (output :: left.sideRoots g) →
          (∀ spec, ¬g.Asks left stage (output :: left.sideRoots g) .input spec) →
            InScope [[]] (p.statements stage)) := by
  have hpass := Backend.pass_of_compile (congrArg Prod.snd h)
  rw [h] at hpass
  obtain ⟨p, hp⟩ := hpass
  obtain ⟨output, builds, hbuilds⟩ := Backend.builds_of_pass hp
  have hwired : g.Everywhere Graph.Wired := hg.everywhere.1.mono fun _ => Graph.Orderly.wired
  refine ⟨output, p, hbuilds.found, hp, fun stage hstage => ?_⟩
  obtain ⟨parts, hparts, hbody⟩ := hbuilds.exists_infix hstage
  refine ⟨fun inner n s hn hk => ?_, fun spec hasks => ?_, fun hcovered htop => ?_⟩
  · obtain ⟨collector, front, within, hfound, hwithin, hfront, hcode⟩ := hparts.exists_code hn hk
    have hinfix := hcode.trans hbody
    refine ⟨⟨by rw [hfound]; rfl, front, _, hinfix, hfront, fun direction spec hasks =>
      ⟨hasks.used hfound hwithin, (hfront direction).mem_ports_iff⟩⟩,
      fun direction spec hasks hscope => ?_⟩
    obtain ⟨st, hst, hx⟩ := hasks.used hfound hwithin
    have hmem : st ∈ p.statements stage := hinfix.subset (List.mem_append_right _ hst)
    exact hbuilds.mem_variables_of_inScope hstage hscope hmem hx
      (inner.isPath_boundaryVar n.name direction spec.name)
  · obtain ⟨st, hst, hx⟩ := hasks.used hparts
    have hmem := hbody.subset hst
    exact ⟨⟨st, hmem, hx⟩, fun hscope => hbuilds.mem_variables_of_inScope hstage hscope hmem hx
      (Scope.isPath_inputVar _ _)⟩
  · exact (hbuilds.inScope_of_covered hwired hcovered htop hstage).1

/-! ## §5. Points behind a gate -/

/-- The network of a subnet with the given inputs that hands out a constant. -/
def gate (inputs : List PortSpec) : Graph :=
  { Graph.empty "s" with
    nodes :=
      [{ Node.make ⟨1⟩ "subnet_input" (.subnetInput inputs) with dirty := false },
       { Node.make ⟨2⟩ "subnet_output" (.subnetOutput [⟨"y", .vector3⟩]) with dirty := false },
       { Node.make ⟨3⟩ "up" (.constant (.vector3 .zero .zero .one)) with dirty := false }]
    connections := [⟨⟨4⟩, ⟨3⟩, "value", ⟨2⟩, "y"⟩]
    version := 4 }

/-- A subnet of that network which runs on a condition. -/
def gateway (inputs : List PortSpec) : Subnet where
  inputs := inputs
  outputs := [⟨"y", .vector3⟩]
  block := .conditional "open"
  network := gate inputs

/-- The node of that subnet. -/
def gatekeeper (inputs : List PortSpec) : Node :=
  { Node.make ⟨1⟩ "s" (.subnet (gateway inputs)) with dirty := false }

/-- Points placed by the subnet. -/
def gating (inputs : List PortSpec) : Graph :=
  { Graph.empty "gating" with
    nodes := [gatekeeper inputs, { Node.make ⟨2⟩ "out" (.output .points) with dirty := false }]
    connections := [⟨⟨3⟩, ⟨1⟩, "y", ⟨2⟩, "position"⟩]
    version := 3 }

/-- Such a graph comes from its document if the network in it comes from its own. -/
theorem gating_loaded {inputs : List PortSpec}
    (hgate : (gate inputs).toDocument.load ⟨1⟩ = .ok (gate inputs, ⟨5⟩))
    (hgating : (gating inputs).toDocument.load ⟨1⟩ = .ok (gating inputs, ⟨4⟩)) :
    (gating inputs).Loaded := by
  refine .intro (fun name s hs => ?_) hgating
  obtain ⟨_, rfl⟩ : name = "s" ∧ s = gateway inputs := by
    simpa [Graph.toDocument, gating, gatekeeper, Node.make] using hs
  refine .intro (fun name s hs => ?_) hgate
  simp [Graph.toDocument, gate, Node.make] at hs

/-- The output node uses the subnet. -/
theorem gating_involves (inputs : List PortSpec) :
    (gating inputs).Involves .points .point (Scope.root "gating") [⟨2⟩] (Scope.root "gating")
      (gatekeeper inputs) := by
  have hposition : "position" ∈ (Node.make ⟨2⟩ "out" (.output .points)).inputNames := by decide
  exact .here (.feed (.root List.mem_cons_self rfl rfl) hposition rfl rfl rfl)

/-- They fit together where the condition is among the inputs. -/
theorem gating_regular {inputs : List PortSpec} (h : "open" ∈ inputs.map (·.name)) :
    (gating inputs).Everywhere Graph.Regular := by
  have hmirrored : (gateway inputs).Mirrored := by
    refine ⟨fun n hn ports hk => ?_, fun n hn ports hk => ?_, fun name hblock => ?_⟩
    · rcases List.mem_cons.mp hn with rfl | hn
      · exact (Kind.subnetInput.inj hk).symm
      · rcases List.mem_pair.mp hn with rfl | rfl <;> cases hk
    · rcases List.mem_cons.mp hn with rfl | hn
      · cases hk
      · rcases List.mem_pair.mp hn with rfl | rfl <;> cases hk
        rfl
    · cases hblock
      exact h
  have hgate : (gate inputs).Everywhere Graph.Regular := by
    have hleaf : ∀ n ∈ (gate inputs).nodes, ∀ s, n.kind ≠ .subnet s := by
      intro n hn s hk
      rcases List.mem_cons.mp hn with rfl | hn
      · cases hk
      · rcases List.mem_pair.mp hn with rfl | rfl <;> cases hk
    have hids : [(⟨1⟩ : NodeId), ⟨2⟩, ⟨3⟩].Nodup := by decide
    refine .intro ⟨hids, ?_, fun n hn s hk => absurd hk (hleaf n hn s)⟩ ?_
    · intro c hc source hsource
      obtain rfl := List.mem_singleton.mp hc
      cases hsource
      exact List.mem_cons_self
    · rintro inner ⟨n, hn, s, hk, rfl⟩
      exact absurd hk (hleaf n hn s)
  have hids : [(⟨1⟩ : NodeId), ⟨2⟩].Nodup := by decide
  refine .intro ⟨hids, ?_, fun n hn s hk => ?_⟩ ?_
  · intro c hc source hsource
    obtain rfl := List.mem_singleton.mp hc
    cases hsource
    exact List.mem_cons_self
  · rcases List.mem_pair.mp hn with rfl | rfl <;> cases hk
    exact hmirrored
  · rintro inner ⟨n, hn, s, hk, rfl⟩
    rcases List.mem_pair.mp hn with rfl | rfl <;> cases hk
    exact hgate

/-- The condition is the one input that the subnet is asked for, so it need have no other. -/
theorem gating_crossed :
    (gating [⟨"open", .bool⟩]).Loaded ∧ ∃ program p,
      Backend.points.compile (gating [⟨"open", .bool⟩]) {} = (.points, .ok program) ∧
      Backend.points.pass (gating [⟨"open", .bool⟩]) {} = .ok p ∧
      (gateway [⟨"open", .bool⟩]).Crossed .points .point (p.statements .point)
        ((Scope.root "gating").enter "s") ∧
      InScope [[]] (p.statements .point) := by
  have hloaded : (gating [⟨"open", .bool⟩]).Loaded := gating_loaded rfl rfl
  have hpass : (Backend.points.pass (gating [⟨"open", .bool⟩]) {}).map (fun _ => ()) = .ok () := by
    decide +kernel
  obtain ⟨p, hp, _⟩ := map_eq_ok.mp hpass
  obtain ⟨program, hcompile, -⟩ := Backend.compile_points hp
  obtain ⟨output, p', houtput, hp', hstages⟩ := Backend.crossings_of_compile hloaded hcompile
  obtain rfl : (⟨2⟩ : NodeId) = output := Except.ok.inj houtput
  obtain rfl := Except.ok.inj (hp.symm.trans hp')
  obtain ⟨hsubnets, _, hscope⟩ := hstages .point (by decide)
  refine ⟨hloaded, _, p, hcompile, hp, (hsubnets _ _ _ (gating_involves _) rfl).1,
    hscope (Graph.covered_of_regular (gating_regular (by decide))) ?_⟩
  intro spec hasks
  cases hasks with
  | reads _ _ _ _ hsource hk _ =>
    -- neither of the two nodes offers inputs
    rcases List.mem_pair.mp (Graph.mem_of_node? hsource) with rfl | rfl <;> cases hk

/-- **A condition that is no input of its subnet is let through**, and the stage asks for a
    variable that nothing declares. -/
theorem gating_unchecked :
    (gating []).Loaded ∧ ∃ program p,
      Backend.points.compile (gating []) {} = (.points, .ok program) ∧
      Backend.points.pass (gating []) {} = .ok p ∧
      (gating []).Involves .points .point (Scope.root "gating") [⟨2⟩] (Scope.root "gating")
        (gatekeeper []) ∧
      ¬(gateway []).Sealed .points .point ∧ ¬InScope [[]] (p.statements .point) := by
  have hscope : (Backend.points.pass (gating []) {}).map
      (fun p => decide (InScope [[]] (p.statements .point))) = .ok false := by
    decide +kernel
  obtain ⟨p, hp, hno⟩ := map_eq_ok.mp hscope
  obtain ⟨program, hcompile, -⟩ := Backend.compile_points hp
  refine ⟨gating_loaded rfl rfl, _, p, hcompile, hp, gating_involves _, fun hsealed => ?_,
    of_decide_eq_false hno⟩
  have hinput : (⟨"open", .bool⟩ : PortSpec) ∈ (gateway []).inputs :=
    hsealed .input _ (.condition rfl)
  cases hinput

end ShaderFlow
