/-
  ShaderFlow.Proofs.Origins — the nodes that errors name.

  A host looks for the node that an error names among the nodes that it compiled.  It is always
  there: a node is named where it stands in a network of the hierarchy, by the search for what
  feeds it, by the table of variables, by the places of attributes or by its own emission.

  Main definitions:
    * `FailsAt`          — whether a result that is not there blames certain nodes at most;
    * `Site.Blames`      — what a node can complain of as it is emitted;
    * `Particles.AsksAt` — the same for what a graph asks for, and for the nodes that ask.

  Main statements:
    * `Backend.blames_emitLeaf`          — a node that is emitted blames itself;
    * `Graph.complains_emitStage`        — what a stage complains of is in its network;
    * `Graph.failsAt_emitStage`          — so it blames nodes of it;
    * `Particles.asksAt_collectRequests` — a graph asks at its own nodes;
    * `Backend.failsAt_compile`          — a compilation blames nodes of its graph.
-/

import ShaderFlow.Proofs.Coverage

namespace ShaderFlow

variable {b : Backend} {context : Context} {stage : Stage} {scope : Scope} {roots : List NodeId}
  {g : Graph} {s : Site} {n : Node} {path : String} {e : CompileError}

/-! ## §1. Blame -/

/-- Whether a result is there, or the node that its error names, if it names one, is such as
    `P` says. -/
abbrev FailsAt {α : Type} (P : NodeRef → Prop) (x : Except CompileError α) : Prop :=
  FailsOnly (fun e => ∀ ref, e.node? = some ref → P ref) x

/-- An error that names no node blames none. -/
theorem FailsAt.of_node?_eq_none {α : Type} {P : NodeRef → Prop} {x : Except CompileError α}
    (h : ∀ e, x = .error e → e.node? = none) : FailsAt P x := by
  intro e he ref href
  rw [h e he] at href
  cases href

theorem FailsAt.weaken {α : Type} {P Q : NodeRef → Prop} {x : Except CompileError α}
    (hPQ : ∀ ref, P ref → Q ref) (h : FailsAt P x) : FailsAt Q x :=
  h.mono fun _ he ref href => hPQ ref (he ref href)

/-! ## §2. Nodes that are emitted -/

/-- What a node can complain of as it is emitted.  Where a source is missing, it names that. -/
inductive Site.Blames (s : Site) : CompileError → Prop
  | missingInput (input : String) : Site.Blames s (.missingInput s.ref input)
  | nodeNotFound (id : NodeId) : Site.Blames s (.nodeNotFound id)
  | unknownFunction (function : String) : Site.Blames s (.unknownFunction s.ref function)
  | unallocatedAttribute (name : String) : Site.Blames s (.unallocatedAttribute s.ref name)
  | unsupportedAttributeType (name : String) (type : PortType) :
      Site.Blames s (.unsupportedAttributeType s.ref name type)
  | missingSubnetOutput : Site.Blames s (.missingSubnetOutput s.ref)
  | unsupportedNode (target : Target) : Site.Blames s (.unsupportedNode s.ref target)
  | conflictingDefinition (kept dropped : Declaration) :
      Site.Blames s (.conflictingDefinition s.ref kept dropped)

/-- It names no other node than itself. -/
theorem Site.Blames.ref_eq (h : s.Blames e) : ∀ ref, e.node? = some ref → ref = s.ref := by
  intro ref href
  cases h with
  | nodeNotFound _ => cases href
  | _ => exact (Option.some.inj href).symm

/-- An input blames its own node. -/
theorem Site.blames_input (s : Site) (name : String) : FailsOnly s.Blames (s.input name) := by
  intro e he
  rcases Site.input_cause he with rfl | ⟨id, rfl⟩
  · exact .missingInput name
  · exact .nodeNotFound id

theorem Site.blames_inputs (s : Site) (names : List String) :
    FailsOnly s.Blames (s.inputs names) :=
  .mapM fun name _ => s.blames_input name

theorem Site.blames_openSubnet (s : Site) (subnet : Subnet) :
    FailsOnly s.Blames (s.openSubnet subnet) := by
  intro e he
  rcases Site.openSubnet_cause he with rfl | ⟨name, hinput⟩
  · exact .missingSubnetOutput
  · exact s.blames_input name e hinput

/-- Reading what the host provides blames the node that reads. -/
theorem Site.blames_emitGlobals {read : String → Except CompileError Reading}
    (hread : ∀ output, FailsOnly s.Blames (read output)) :
    FailsOnly s.Blames (s.emitGlobals read) :=
  .bind (.mapM fun output _ => hread output) fun _ _ => .ok _

namespace Material

theorem blames_emitOutput (s : Site) : FailsOnly s.Blames (emitOutput s) := by
  unfold emitOutput
  split
  · refine .bind ?_ fun _ _ => .bind ?_ fun _ _ => .ok _
    · unfold position
      split
      · exact .map (s.blames_input _)
      · exact .ok _
    · unfold normal
      split
      · exact .map (s.blames_input _)
      · exact .ok _
  · exact .bind (s.blames_input _) fun _ _ => .bind (s.blames_input _) fun _ _ => .ok _

theorem blames_emitAttribute (s : Site) (name : String) (type : PortType) :
    FailsOnly s.Blames (emitAttribute s name type) := by
  unfold emitAttribute
  split
  · exact .error (.unsupportedAttributeType name type)
  · exact .ok _

theorem blames_readGlobal (s : Site) (output : String) :
    FailsOnly s.Blames (readGlobal s output) := by
  unfold readGlobal
  split
  case h_3 => split <;> exact .ok _
  all_goals exact .ok _

end Material

namespace Points

theorem blames_emitOutput (s : Site) : FailsOnly s.Blames (emitOutput s) :=
  .bind (.mapM fun name _ => .map (s.blames_input name)) fun _ _ => .ok _

theorem blames_emitAttribute (s : Site) (name : String) (type : PortType) :
    FailsOnly s.Blames (emitAttribute s name type) := by
  unfold emitAttribute
  split
  · exact .error (.unsupportedAttributeType name type)
  · simp only
    split
    · exact .bind (.map (s.blames_input _)) fun _ _ => .ok _
    · exact .ok _

theorem blames_readGlobal (s : Site) (output : String) :
    FailsOnly s.Blames (readGlobal s output) := by
  unfold readGlobal
  split <;> exact .ok _

end Points

namespace Particles

variable {table : Allocations} {name : String} {type : PortType}

theorem blames_read : FailsOnly s.Blames (read table s name type) := by
  intro e he
  obtain ⟨rfl, -⟩ := read_error he
  exact .unallocatedAttribute name

theorem blames_write {value : Operand} :
    FailsOnly s.Blames (write table s name type value) := by
  intro e he
  obtain ⟨rfl, -⟩ := write_error he
  exact .unallocatedAttribute name

theorem blames_emitOutput (table : Allocations) (s : Site) :
    FailsOnly s.Blames (emitOutput table s) :=
  .bind (.mapM fun name _ => .bind (s.blames_input name) fun _ _ => blames_write)
    fun _ _ => .ok _

theorem blames_emitAttribute (table : Allocations) (s : Site) (name : String)
    (type : PortType) : FailsOnly s.Blames (emitAttribute table s name type) := by
  rw [emitAttribute_eq]
  refine .bind ?_ fun _ _ => .bind ?_ fun _ _ => .ok _
  · unfold readings
    split
    · exact .map blames_read
    · exact .ok _
  · unfold writes
    split
    · exact .bind (s.blames_input _) fun _ _ => .map blames_write
    · exact .ok _

theorem blames_readGlobal (table : Allocations) (s : Site) (output : String) :
    FailsOnly s.Blames (readGlobal table s output) := by
  unfold readGlobal
  split
  case h_4 => exact blames_read
  all_goals exact .ok _

end Particles

namespace Backend

theorem blames_emitOutput (b : Backend) (s : Site) : FailsOnly s.Blames (b.emitOutput s) := by
  cases b with
  | material => exact Material.blames_emitOutput s
  | particles table => exact Particles.blames_emitOutput table s
  | points => exact Points.blames_emitOutput s

theorem blames_emitAttribute (b : Backend) (s : Site) (name : String) (type : PortType) :
    FailsOnly s.Blames (b.emitAttribute s name type) := by
  cases b with
  | material => exact Material.blames_emitAttribute s name type
  | particles table => exact Particles.blames_emitAttribute table s name type
  | points => exact Points.blames_emitAttribute s name type

theorem blames_readGlobal (b : Backend) (s : Site) (output : String) :
    FailsOnly s.Blames (b.readGlobal s output) := by
  cases b with
  | material => exact Material.blames_readGlobal s output
  | particles table => exact Particles.blames_readGlobal table s output
  | points => exact Points.blames_readGlobal s output

/-- **A node that is emitted blames itself.** -/
theorem blames_emitLeaf (b : Backend) (s : Site) (k : Kind) :
    FailsOnly s.Blames (b.emitLeaf s k) := by
  cases k with
  | constant _ | param _ _ _ | varyingRead _ _ | subnetInput _ | subnet _ => exact .ok _
  | math op _ => exact .bind (s.blames_inputs _) fun _ _ => .ok _
  | globals => exact Site.blames_emitGlobals (b.blames_readGlobal s)
  | «attribute» name type => exact b.blames_emitAttribute s name type
  | varyingWrite _ _ => exact .bind (s.blames_input _) fun _ _ => .ok _
  | function name inputs _ =>
    unfold emitLeaf emitCall
    simp only
    split
    · exact .error (.unknownFunction name)
    · exact .bind (s.blames_inputs _) fun _ _ => .ok _
  | output _ => exact b.blames_emitOutput s
  | subnetOutput _ =>
    exact .bind (.mapM fun name _ => .map (s.blames_input name)) fun _ _ => .ok _

end Backend

/-! ## §3. Stages -/

/-- A traversal blames nodes of its hierarchy. -/
theorem Graph.failsAt_traverse {mode : TraversalMode} {filter : Node → InputFilter} :
    FailsAt (·.id ∈ g.ids) (g.traverse path mode filter roots) := by
  intro e he ref href
  have hwalk := g.walks_traverse path mode filter roots
  rw [he] at hwalk
  -- what is missing is not named, and a cycle is named by a node that the roots lead to
  rcases Graph.cause_of_error hwalk with ⟨_, _, _, rfl⟩ | ⟨v, hv, ⟨_, _, rfl⟩ | ⟨rfl, _⟩⟩
  · cases href
  · cases href
  · cases href
    exact hv.located.id_mem

theorem Site.blames_checkSupported (s : Site) :
    FailsOnly s.Blames (b.checkSupported s.scope s.node) := by
  intro e he
  rw [Backend.checkSupported_cause he]
  exact .unsupportedNode b.target

theorem Site.blames_addAll (s : Site) {p : Progress} {cs : List Contribution} :
    FailsOnly s.Blames (p.addAll s.scope.path s.node cs) := by
  intro e he
  obtain ⟨kept, dropped, rfl⟩ := Progress.addAll_cause he
  exact .conflictingDefinition kept dropped

/-- What a stage can complain of: a search in one of its networks that fails, or one of its
    nodes, at any depth. -/
inductive Graph.Complains (b : Backend) (stage : Stage) (g : Graph) (e : CompileError) : Prop
  | search {network : Graph} {path : String} {roots : List NodeId}
      (hwithin : Relation.ReflTransGen Graph.Nests network g)
      (h : network.traverse path .shallow (b.follows stage) roots = .error e)
  | node {s : Site} (hwithin : Relation.ReflTransGen Graph.Nests s.graph g)
      (hn : s.node ∈ s.graph.nodes) (h : s.Blames e)

theorem Graph.Complains.outside {inner : Graph} (hnests : inner.Nests g)
    (h : inner.Complains b stage e) : g.Complains b stage e := by
  cases h with
  | search hwithin h => exact .search (hwithin.tail hnests) h
  | node hwithin hn h => exact .node (hwithin.tail hnests) hn h

/-- **A stage complains of what is in its network**, at any depth. -/
theorem Graph.complains_emitStage :
    ∀ {g : Graph} {scope : Scope} {roots : List NodeId} {p : Progress},
      FailsOnly (g.Complains b stage) (g.emitStage b context stage scope roots p) := by
  intro g
  induction g using Graph.network_induction with
  | step g ih =>
    intro scope roots p
    rw [Graph.emitStage_eq]
    refine .bind (.map fun e he => .search .refl he) fun order horder => .foldlM fun n hn p => ?_
    have hmem : n ∈ g.nodes :=
      Graph.mem_of_node? ((Backend.schedules_of_stageOrder horder).found n hn)
    let s : Site := { graph := g, node := n, stage, scope, context }
    have hself : ∀ e, s.Blames e → g.Complains b stage e := fun e he => .node .refl hmem he
    refine .bind (s.blames_checkSupported.mono hself) fun _ _ =>
      .bind ?_ fun _ _ => s.blames_addAll.mono hself
    rw [Backend.emitAmong_of_stageOrder horder hn]
    -- what a network inside complains about is in the hierarchy, like the node itself
    cases hk : n.kind with
    | subnet subnet =>
      obtain ⟨inputs, outputs, block, network⟩ := subnet
      have hnests : network.Nests g := ⟨n, hmem, _, hk, rfl⟩
      rw [Kind.emit]
      exact .bind ((s.blames_openSubnet _).mono hself) fun opening _ =>
        .bind ((ih network hnests).mono fun e he => he.outside hnests) fun _ _ => .ok _
    | _ =>
      rw [Kind.emit]
      · exact (b.blames_emitLeaf s _).mono hself
      · simp

/-- So it blames nodes of its network. -/
theorem Graph.failsAt_emitStage {p : Progress} :
    FailsAt (·.id ∈ g.ids) (g.emitStage b context stage scope roots p) := by
  refine Graph.complains_emitStage.mono fun e he ref href => ?_
  cases he with
  | search hwithin h =>
    exact (Graph.sublist_ids_within hwithin).subset (Graph.failsAt_traverse e h ref href)
  | node hwithin hn h =>
    rw [h.ref_eq ref href]
    exact (Graph.sublist_ids_within hwithin).subset (Graph.mem_ids_of_mem hn)

/-! ## §4. Places -/

namespace Particles

/-- Whether what is asked for is asked for at nodes that `P` says, which are also the ones that
    an error blames. -/
structure AsksAt (P : NodeRef → Prop) (x : Except CompileError (List AttributeRequest)) :
    Prop where
  fails : FailsAt P x
  asks : ∀ requests, x = .ok requests → ∀ r ∈ requests, P r.node

theorem AsksAt.ok {P : NodeRef → Prop} {requests : List AttributeRequest}
    (h : ∀ r ∈ requests, P r.node) : AsksAt P (.ok requests) where
  fails := .ok _
  asks := by
    rintro _ ⟨⟩
    exact h

theorem AsksAt.mono {P Q : NodeRef → Prop} {x : Except CompileError (List AttributeRequest)}
    (hPQ : ∀ ref, P ref → Q ref) (h : AsksAt P x) : AsksAt Q x where
  fails := h.fails.weaken hPQ
  asks := fun requests hx r hr => hPQ r.node (h.asks requests hx r hr)

/-- A node asks at itself, or inside its network. -/
theorem asksAt_requestsOf {P : NodeRef → Prop} {r : Reached}
    {nested : Graph → String → List NodeId → Except CompileError (List AttributeRequest)}
    (hself : P (NodeRef.of r.path r.node))
    (hnested : ∀ subnet, r.node.kind = .subnet subnet →
      ∀ path roots, AsksAt P (nested subnet.network path roots)) :
    AsksAt P (requestsOf nested g r) := by
  unfold requestsOf
  simp only
  split
  · refine .ok fun r hr => ?_
    rw [List.mem_singleton.mp hr]
    exact hself
  · refine .ok fun r hr => ?_
    obtain ⟨_, _, rfl⟩ := List.mem_map.mp hr
    exact hself
  next subnet hk =>
    split
    · exact .ok nofun
    · exact hnested subnet hk _ _
  · exact .ok nofun

/-- A graph asks at its own nodes, if the networks inside do. -/
theorem asksAt_of_inside {levels : Nat} (hids : g.ids.Nodup)
    (hinside : ∀ {network : Graph} {path : String} {roots : List NodeId}, network.ids.Nodup →
      AsksAt (·.id ∈ network.ids) (requestsInside levels network path roots)) :
    AsksAt (·.id ∈ g.ids) (collectRequests levels g path roots) := by
  -- what a traversal lists stands in the hierarchy, and so does what is inside it
  have hlisted : ∀ t, g.traverse path .deep followAll roots = .ok t → ∀ r ∈ t.ordered,
      AsksAt (·.id ∈ g.ids) (requestsOf (requestsInside levels) g r) := by
    intro t ht r hr
    obtain ⟨visits, hsorts⟩ := Graph.exists_sorts_of_traverse hids ht
    rw [hsorts.ordered] at hr
    obtain ⟨v, hv, rfl⟩ := List.mem_map.mp hr
    have hlocated := hsorts.located v hv
    obtain ⟨hwithin, hmem⟩ := hlocated.within
    refine asksAt_requestsOf hlocated.id_mem fun subnet hk path roots => ?_
    have hnests : Relation.ReflTransGen Graph.Nests subnet.network g :=
      .head ⟨_, hmem, subnet, hk, rfl⟩ hwithin
    exact (hinside (Graph.nodup_ids_within hnests hids)).mono
      fun _ hid => (Graph.sublist_ids_within hnests).subset hid
  rw [collectRequests_eq]
  refine ⟨.bind Graph.failsAt_traverse fun t ht =>
    .bind (.mapM fun r hr => (hlisted t ht r hr).fails) fun _ _ => .ok _, ?_⟩
  intro requests h request hrequest
  obtain ⟨t, ht, h⟩ := bind_eq_ok.mp h
  obtain ⟨lists, hlists, hrequests⟩ := bind_eq_ok.mp h
  rw [pure_eq_ok] at hrequests
  subst hrequests
  obtain ⟨own, hown, hmem⟩ := List.mem_flatten.mp hrequest
  obtain ⟨r, hr, heq⟩ := exists_of_mem_mapM hlists hown
  exact (hlisted t ht r hr).asks own heq request hmem

/-- **A graph asks at its own nodes**, at any depth. -/
theorem asksAt_collectRequests :
    ∀ {levels : Nat} {g : Graph} {path : String} {roots : List NodeId}, g.ids.Nodup →
      AsksAt (·.id ∈ g.ids) (collectRequests levels g path roots)
  | 0, _, _, _, hids => asksAt_of_inside hids fun _ => .ok nofun
  | _ + 1, _, _, _, hids => asksAt_of_inside hids asksAt_collectRequests

end Particles

/-- A table that is brought in line complains of the settings, or of what cannot be stored. -/
theorem Allocations.failsOnly_update {P : CompileError → Prop} (t : Allocations)
    {requests : List AttributeRequest} (options : ParticlesOptions)
    (hconfig : ∀ fault, P (.invalidConfig fault))
    (htype : ∀ r ∈ requests, P (.unsupportedAttributeType r.node r.name r.type)) :
    FailsOnly P (t.update requests options) := by
  unfold update
  refine .bind ?_ fun _ _ => .bind ?_ fun _ _ => ?_
  · intro e he
    cases hcheck : options.check <;> rw [hcheck] at he <;> cases he
    exact hconfig _
  · unfold signatureOf
    split
    · exact .error (hconfig _)
    · refine .foldlM fun r hr merged => ?_
      unfold merge
      simp only
      split
      · exact .error (htype r hr)
      · exact .ok _
  · simp only
    split <;> exact .ok _

theorem Graph.failsAt_outputNode {P : NodeRef → Prop} {target : Target} :
    FailsAt P (g.outputNode target) := by
  refine FailsAt.of_node?_eq_none fun e he => ?_
  rcases Graph.outputNode_cause he with rfl | ⟨_, rfl⟩ <;> rfl

theorem Particles.failsAt_allocate (table : Allocations) (context : Context)
    (hids : g.ids.Nodup) : FailsAt (·.id ∈ g.ids) (allocate table g context) := by
  refine .bind Graph.failsAt_outputNode fun _ _ =>
    .bind (asksAt_collectRequests hids).fails fun requests hrequests =>
      .bind (table.failsOnly_update _ (fun _ _ => nofun) fun r hr ref href => ?_) fun _ _ => .ok _
  rw [← Option.some.inj href]
  exact (asksAt_collectRequests hids).asks requests hrequests r hr

/-! ## §5. Compilations -/

/-- **A pass blames nodes of its graph**, at any depth. -/
theorem Backend.failsAt_pass (b : Backend) (context : Context) :
    FailsAt (·.id ∈ g.ids) (b.pass g context) := by
  refine .bind Graph.failsAt_outputNode fun _ _ => .bind ?_ fun _ _ => .bind (.map ?_) fun _ _ =>
    .bind Graph.failsAt_traverse fun _ _ => .foldlM fun _ _ _ => Graph.failsAt_emitStage
  · intro e he ref href
    obtain ⟨n, hn, rfl⟩ := Backend.checkNodes_cause he
    cases href
    exact Graph.mem_ids_of_mem hn
  · intro e he ref href
    obtain ⟨_, _, _, hid, rfl⟩ := Graph.reserveVariables_cause he
    cases href
    exact hid

section Templates

variable {P : CompileError → Prop} {p : Progress}

/-- A template complains of its markers. -/
theorem Template.failsOnly_insert (hP : ∀ stage marker, P (.template stage marker))
    {marker : Marker} {texts : List String} {source : String} :
    FailsOnly P (insert stage marker texts source) := by
  unfold insert
  split
  · exact .ok _
  · exact .error (hP stage marker)

theorem Progress.failsOnly_render (hP : ∀ stage marker, P (.template stage marker))
    {template : String} {epilogue : List String} :
    FailsOnly P (p.render template stage epilogue) :=
  .bind (Template.failsOnly_insert hP) fun _ _ => Template.failsOnly_insert hP

theorem MaterialProgram.failsOnly_assemble (hP : ∀ stage marker, P (.template stage marker))
    {config : Config} : FailsOnly P (assemble p config) :=
  .bind (Progress.failsOnly_render hP) fun _ _ =>
    .bind (Progress.failsOnly_render hP) fun _ _ => .ok _

theorem ParticlesProgram.failsOnly_assemble (hP : ∀ stage marker, P (.template stage marker))
    {table : Allocations} : FailsOnly P (assemble p table) :=
  .bind (.mapM fun _ _ => .bind (Progress.failsOnly_render hP) fun _ _ => .ok _) fun _ _ => .ok _

theorem PointProgram.failsOnly_assemble (hP : ∀ stage marker, P (.template stage marker))
    {config : Config} : FailsOnly P (assemble p config) :=
  .bind (Template.failsOnly_insert hP) fun _ _ => .ok _

/-- **A compilation fails as its places, its pass or its templates do.** -/
theorem Backend.failsOnly_compile (hP : ∀ stage marker, P (.template stage marker))
    (hallocate : ∀ table, b = .particles table →
      FailsOnly P (Particles.allocate table g context))
    (hpass : ∀ left : Backend, left.target = b.target → FailsOnly P (left.pass g context)) :
    FailsOnly P (b.compile g context).2 := by
  cases b with
  | material =>
    exact .bind (hpass .material rfl) fun p _ =>
      .bind (MaterialProgram.failsOnly_assemble hP) fun _ _ => .ok _
  | particles table =>
    unfold compile
    simp only
    split
    next e he => exact .error (hallocate table rfl e he)
    next table' _ =>
      exact .bind (hpass (.particles table') rfl) fun p _ =>
        .bind (ParticlesProgram.failsOnly_assemble hP) fun _ _ => .ok _
  | points =>
    exact .bind (hpass .points rfl) fun p _ =>
      .bind (PointProgram.failsOnly_assemble hP) fun _ _ => .ok _

end Templates

/-- **A compilation blames nodes of its graph**, at any depth, where identities are different. -/
theorem Backend.failsAt_compile (b : Backend) (context : Context) (hids : g.ids.Nodup) :
    FailsAt (·.id ∈ g.ids) (b.compile g context).2 :=
  -- a template is no node's fault
  Backend.failsOnly_compile (fun _ _ _ => nofun)
    (fun table _ => Particles.failsAt_allocate table context hids)
    fun left _ => left.failsAt_pass context

end ShaderFlow
