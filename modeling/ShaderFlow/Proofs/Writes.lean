/-
  ShaderFlow.Proofs.Writes — no write of a particle system is lost, repeated or misplaced.

  A stage starts from what its texture held and assigns channels.  Its nodes are emitted network
  by network; each node that writes stores once, in the stage that computes the texture of its
  attribute, and nothing else stores.  So over all stages the assignments of channels are, one
  to one, what the graph writes.

  Main definitions:
    * `Writer.Writes`    — the statement that a writer comes to, in its stage;
    * `Particles.Stored` — a body whose assignments of channels are those of its writers.

  Main statements:
    * `Particles.stored_of_emitLeaf` — one node without a network;
    * `Graph.Emits.stored`           — a network with everything inside;
    * `Particles.perm_ownedBy`       — each writer is owned by one stage;
    * `Particles.writes_once`        — all stages of a program.
-/

import ShaderFlow.Proofs.Templates
import ShaderFlow.Proofs.Writers

namespace ShaderFlow

open Contribution

/-! ## §1. Assignments of channels -/

/-- Whether a statement assigns channels of the texture that its stage computes, as far as that
    can be seen: a line given as text may. -/
def Statement.isStore : Statement → Bool
  | .assign (.channels _) _ | .raw _ => true
  | _ => false

theorem Statement.isStore_of_isComputation {st : Statement} (h : st.isComputation = true) :
    st.isStore = false := by
  cases st with
  | assign place value => cases place <;> first | rfl | cases h
  | raw text => cases h
  | _ => rfl

/-- The statements of a body that assign channels. -/
def storesOf (body : List Statement) : List Statement := body.filter Statement.isStore

@[simp] theorem storesOf_append (first rest : List Statement) :
    storesOf (first ++ rest) = storesOf first ++ storesOf rest :=
  List.filter_append ..

theorem storesOf_eq_nil {body : List Statement} (h : ∀ st ∈ body, st.isStore = false) :
    storesOf body = [] :=
  List.filter_eq_nil_iff.mpr fun st hst => by simp [h st hst]

namespace Writer

/-- The node of a writer in a stage. -/
def site (w : Writer) (context : Context) (stage : Stage) : Site :=
  { graph := w.graph, node := w.node, stage, scope := w.scope, context }

/-- The statement that a writer comes to in a stage: the stage computes the texture in which the
    attribute has its place, the channels are those of that place, as many as the type has
    components, and they get what feeds the input. -/
def Writes (table : Allocations) (context : Context) (stage : Stage) (w : Writer)
    (st : Statement) : Prop :=
  ∃ a value, table.get? w.name = some a ∧ stage = .simulation a.texture ∧
    (w.site context stage).input w.input = .ok value ∧
      st = .assign (.channels (a.swizzle w.type.components))
        (.operand (value.as w.type (Particles.channelType (a.swizzle w.type.components))))

end Writer

namespace Particles

variable {table : Allocations} {context : Context} {stage : Stage} {writers more : List Writer}
  {body rest : List Statement}

theorem isOwned_iff {name : String} :
    isOwned table name stage = true ↔
      ∃ a, table.get? name = some a ∧ stage = .simulation a.texture := by
  have hstage : ∀ index, some index = stage.texture? ↔ stage = .simulation index := by
    intro index
    cases stage with
    | simulation own => simpa [Stage.texture?] using eq_comm
    | _ => simp [Stage.texture?]
  simp only [isOwned, Option.any_eq_true, beq_iff_eq, hstage]

/-- The writers whose attributes have their places in the texture of a stage. -/
def ownedBy (table : Allocations) (stage : Stage) (writers : List Writer) : List Writer :=
  writers.filter fun w => isOwned table w.name stage

/-- The assignments of channels in a body are, one to one, what those writers come to whose
    attributes the stage owns. -/
def Stored (table : Allocations) (context : Context) (stage : Stage) (writers : List Writer)
    (body : List Statement) : Prop :=
  ∃ order, order.Perm (ownedBy table stage writers) ∧
    List.Forall₂ (Writer.Writes table context stage) order (storesOf body)

namespace Stored

theorem silent (hwriters : ownedBy table stage writers = []) (hbody : storesOf body = []) :
    Stored table context stage writers body :=
  ⟨[], hwriters ▸ .refl _, hbody ▸ .nil⟩

theorem append (h : Stored table context stage writers body)
    (hrest : Stored table context stage more rest) :
    Stored table context stage (writers ++ more) (body ++ rest) := by
  obtain ⟨order, hperm, hall⟩ := h
  obtain ⟨order', hperm', hall'⟩ := hrest
  refine ⟨order ++ order', ?_, ?_⟩
  · rw [ownedBy, List.filter_append]
    exact hperm.append hperm'
  · rw [storesOf_append]
    exact List.rel_append hall hall'

theorem of_perm (h : Stored table context stage writers body)
    (hperm : (ownedBy table stage writers).Perm (ownedBy table stage more))
    (hbody : storesOf body = storesOf rest) : Stored table context stage more rest := by
  obtain ⟨order, horder, hall⟩ := h
  exact ⟨order, horder.trans hperm, hbody ▸ hall⟩

theorem flatMap {α : Type} {f : α → List Writer} {f' : α → List Statement} :
    ∀ {xs : List α}, (∀ x ∈ xs, Stored table context stage (f x) (f' x)) →
      Stored table context stage (xs.flatMap f) (xs.flatMap f')
  | [], _ => silent rfl rfl
  | x :: xs, h => by
    rw [List.flatMap_cons, List.flatMap_cons]
    exact (h x List.mem_cons_self).append (flatMap fun y hy => h y (List.mem_cons_of_mem _ hy))

end Stored

/-! ## §2. Nodes without a network -/

section Leaf

variable {s : Site} {cs : List Contribution}

/-- What writes an attribute comes to the writer of the same input. -/
theorem writes_of_write {name input : String} {type : PortType} {value : Operand}
    {write : Contribution × Statement} (hvalue : s.input input = .ok value)
    (howned : isOwned table name s.stage = true)
    (h : Particles.write table s name type value = .ok write) :
    Writer.Writes table s.context s.stage
      { graph := s.graph, scope := s.scope, node := s.node, input, name, type } write.2 := by
  obtain ⟨a, ha, hstage⟩ := isOwned_iff.mp howned
  obtain ⟨a', ha', h⟩ := bind_eq_ok.mp h
  rw [pure_eq_ok] at h
  subst h
  simp only [allocation, ha, Except.ok.injEq] at ha'
  subst ha'
  exact ⟨a, value, ha, hstage, hvalue, rfl⟩

theorem isStore_of_write {name : String} {type : PortType} {value : Operand}
    {write : Contribution × Statement} (h : Particles.write table s name type value = .ok write) :
    write.2.isStore = true ∧ ∃ note, write.1 = .note note := by
  obtain ⟨a, _, h⟩ := bind_eq_ok.mp h
  rw [pure_eq_ok] at h
  subst h
  exact ⟨rfl, _, rfl⟩

/-- What a node stores that reads attributes and writes others. -/
theorem storesOf_exchange {readings : List Reading} {writes : List (Contribution × Statement)}
    (hreadings : ∀ r ∈ readings, written s.stage r.contributions = [])
    (hwrites : ∀ write ∈ writes, write.2.isStore = true ∧ ∃ note, write.1 = .note note) :
    storesOf (written s.stage (s.exchange readings writes)) = writes.map (·.2) := by
  have hread : written s.stage (readings.flatMap (·.contributions)) = [] :=
    written_flatMap_eq_nil hreadings
  have hnotes : written s.stage (writes.map (·.1)) = [] := by
    refine written_of_notes fun c hc => ?_
    obtain ⟨write, hwrite, rfl⟩ := List.mem_map.mp hc
    exact (hwrites write hwrite).2
  have hdeclared :
      storesOf (readings.map fun r => s.declare "value" (.operand r.operand)) = [] := by
    refine storesOf_eq_nil fun st hst => ?_
    obtain ⟨r, _, rfl⟩ := List.mem_map.mp hst
    rfl
  have hkept : storesOf (writes.map (·.2)) = writes.map (·.2) := by
    refine List.filter_eq_self.mpr fun st hst => ?_
    obtain ⟨write, hwrite, rfl⟩ := List.mem_map.mp hst
    exact (hwrites write hwrite).1
  rw [Site.exchange, written_append, written_append, hread, hnotes, written_statements, if_pos rfl,
    written_nil, List.append_nil, List.append_nil, List.nil_append, storesOf_append, hdeclared,
    hkept, List.nil_append]

/-- An attribute stores what feeds its export, in the stage that owns it. -/
theorem stored_attribute {name : String} {type : PortType} {readings : List Reading}
    {writes : List (Contribution × Statement)} (hk : s.node.kind = .attribute name type)
    (hreadings : (Backend.particles table).GetsUsed s name type readings)
    (hwrites : (Backend.particles table).PutsFed s name type writes) :
    Stored table s.context s.stage (s.node.writers s.scope s.graph)
      (written s.stage (s.exchange readings writes)) := by
  -- what it reads, in this stage or another, is no statement of the body
  have hsilent : ∀ r ∈ readings, written s.stage r.contributions = [] := by
    cases hreadings with
    | unused _ => exact List.forall_mem_nil _
    | used _ hr => exact List.forall_mem_singleton.mpr hr.contained.silent
  -- one test decides whether it writes, and whether the stage owns what it writes
  cases hwrites with
  | idle hidle =>
    refine .silent ?_ (storesOf_exchange hsilent (List.forall_mem_nil _))
    have hidle : (s.graph.inputSource? s.node.id Kind.exportInput).isSome = true →
        isOwned table name s.stage = false := by
      simpa [Site.isFed, Backend.owns] using hidle
    simp only [ownedBy, Node.writers, hk, Kind.writers]
    split
    next hfed => simpa using hidle hfed
    next => rfl
  | fed hfed howned hvalue hput =>
    cases hput with
    | particles hwrite =>
      have howned : isOwned table name s.stage = true := howned
      have hfed : (s.graph.inputSource? s.node.id Kind.exportInput).isSome = true := hfed
      have hwriters : ownedBy table s.stage (s.node.writers s.scope s.graph) =
          [{ graph := s.graph, scope := s.scope, node := s.node, input := Kind.exportInput, name,
             type }] := by
        simp [ownedBy, Node.writers, hk, Kind.writers, hfed, howned]
      refine ⟨_, .refl _, ?_⟩
      rw [hwriters, storesOf_exchange hsilent
        (List.forall_mem_singleton.mpr (isStore_of_write hwrite))]
      exact .cons (writes_of_write hvalue howned hwrite) .nil

/-- The output node of the graph stores what feeds those of its inputs that the stage owns. -/
theorem stored_output {target : Target} {writes : List (Contribution × Statement)}
    (hk : s.node.kind = .output target) (hdepth : s.scope.depth = 0)
    (hwrites : (Backend.particles table).PutsAll s writes) :
    Stored table s.context s.stage (s.node.writers s.scope s.graph)
      (written s.stage (s.exchange [] writes)) := by
  have hstores : storesOf (written s.stage (s.exchange [] writes)) = writes.map (·.2) := by
    refine storesOf_exchange nofun fun write hwrite => ?_
    obtain ⟨name, _, value, _, ⟨hput⟩⟩ := exists_mem_of_forall₂ hwrites.flip write hwrite
    exact isStore_of_write hput
  -- the inputs that are written are those whose writers the stage owns, in the same order
  have hnames : ownedBy table s.stage (s.node.writers s.scope s.graph) =
      ((Backend.particles table).outputNames s).map
        fun name => { graph := s.graph, scope := s.scope, node := s.node, input := name, name,
                      type := .vector3 } := by
    simp only [ownedBy, Node.writers, hk, Kind.writers, hdepth, if_true, List.filter_map,
      List.filter_filter]
    rfl
  refine ⟨_, .refl _, ?_⟩
  rw [hstores, hnames, List.forall₂_map_left_iff, List.forall₂_map_right_iff]
  refine (forall₂_mem hwrites).imp ?_
  rintro name write ⟨⟨value, hvalue, ⟨hput⟩⟩, hname, _⟩
  obtain ⟨_, hwritten⟩ := List.mem_filter.mp hname
  rw [Bool.and_eq_true] at hwritten
  exact writes_of_write hvalue hwritten.1 hput

/-- **Every node without a network stores what it writes**, and nothing else. -/
theorem stored_of_emitLeaf (hsubnet : ∀ subnet, s.node.kind ≠ .subnet subnet)
    (hdepth : ∀ target, s.node.kind = .output target → s.scope.depth = 0)
    (h : (Backend.particles table).emitLeaf s s.node.kind = .ok cs) :
    Stored table s.context s.stage (s.node.writers s.scope s.graph) (written s.stage cs) := by
  cases Site.emits_of_emitLeaf h with
  | «attribute» hk h =>
    cases h with
    | exchanged _ hreadings hwrites => exact stored_attribute hk hreadings hwrites
  | output hk h =>
    cases h with
    | written _ hwrites => exact stored_output hk (hdepth _ hk) hwrites
  | param hk =>
    refine .silent (by simp [ownedBy, Node.writers, hk, Kind.writers]) ?_
    rw [Backend.emitParam, written_define, written_note, written_statements, if_pos rfl]
    rfl
  | @globals readings hk hreadings =>
    refine .silent (by simp [ownedBy, Node.writers, hk, Kind.writers]) ?_
    have hread : written s.stage (readings.flatMap (·.contributions)) = [] := by
      refine written_flatMap_eq_nil fun r hr => ?_
      obtain ⟨output, _, hread⟩ := exists_mem_of_forall₂ hreadings.flip r hr
      exact hread.contained.silent
    refine storesOf_eq_nil fun st hst => ?_
    rw [written_append, hread, List.nil_append, written_statements, if_pos rfl, written_nil,
      List.append_nil] at hst
    obtain ⟨_, _, _, rfl⟩ := Site.mem_declareAll hst
    rfl
  | subnet hk => exact absurd hk (hsubnet _)
  | subnetInput hk => exact .silent (by simp [ownedBy, Node.writers, hk, Kind.writers]) rfl
  -- what only computes writes nothing
  | constant hk | math hk _ | varyingWrite hk _ | varyingRead hk | function hk _ _
  | subnetOutput hk _ =>
    refine .silent (by simp [ownedBy, Node.writers, hk, Kind.writers]) (storesOf_eq_nil ?_)
    exact fun st hst => Statement.isStore_of_isComputation
      (isComputation_of_mem_written (Backend.isComputation_of_emitLeaf (by rw [hk]; rfl) h) hst)

end Leaf

end Particles

/-! ## §3. Networks -/

open Particles

variable {table : Allocations} {context : Context} {stage : Stage} {scope : Scope}
  {roots : List NodeId} {g : Graph} {parts : List Part} {n : Node}

/-- What opens a subnet stores nothing. -/
theorem Site.storesOf_opening {s : Site} {subnet : Subnet} {bindings : List Statement}
    (h : subnet.inputs.mapM s.bindInput = .ok bindings) :
    storesOf (s.opening subnet bindings) = [] := by
  refine storesOf_eq_nil fun st hst => ?_
  simp only [Site.opening, List.mem_append, List.mem_map, List.mem_singleton] at hst
  obtain (hst | ⟨spec, _, rfl⟩) | rfl := hst
  · obtain ⟨spec, _, o, _, rfl⟩ := Site.exists_of_mem_bindings h hst
    rfl
  · rfl
  · cases subnet.block <;> rfl

/-- A node with something to write in a stage has inputs that the stage follows. -/
theorem Particles.isEmpty_follows_of_owned {w : Writer} (hw : w ∈ n.writers scope g)
    (howned : isOwned table w.name stage = true) :
    ((Backend.particles table).follows stage n).isEmpty = false := by
  cases hk : n.kind with
  | «attribute» name type =>
    simp only [Node.writers, hk, Kind.writers] at hw
    split at hw
    · rw [List.mem_singleton.mp hw] at howned
      simp [Backend.follows, hk, follows, howned, InputFilter.isEmpty]
    · cases hw
  | output target =>
    simp only [Node.writers, hk, Kind.writers] at hw
    split at hw
    · obtain ⟨name, hname, rfl⟩ := List.mem_map.mp hw
      have hmem : name ∈ outputAttributes.filter (isOwned table · stage) :=
        List.mem_filter.mpr ⟨(List.mem_filter.mp hname).1, howned⟩
      simpa [Backend.follows, hk, follows, InputFilter.isEmpty] using List.ne_nil_of_mem hmem
    · cases hw
  -- all inputs of other nodes are followed in every stage, those of subnets too
  | _ => simp [Backend.follows, hk, follows, InputFilter.isEmpty]

/-- A root with something to write in a stage is emitted there. -/
theorem Graph.Emits.mem_of_owned (h : g.Emits (.particles table) context stage scope roots parts)
    (hids : (g.nodes.map (·.id)).Nodup) (hn : n ∈ g.nodes)
    (hroot : n.writers scope g ≠ [] → n.id ∈ roots)
    (hsome : ownedBy table stage (n.writers scope g) ≠ []) : n ∈ parts.map (·.node) := by
  obtain ⟨w, hw⟩ := List.exists_mem_of_ne_nil _ hsome
  obtain ⟨hw, howned⟩ := List.mem_filter.mp hw
  have hfound := Graph.node?_of_mem hids hn
  have hconcerns : (Backend.particles table).concerns g stage n.id = true := by
    simp [Backend.concerns, hfound, isEmpty_follows_of_owned hw howned]
  -- what is emitted has the identity of the root, so it is the root
  obtain ⟨m, hm, hsame⟩ := h.schedules.started n.id
    (List.mem_filter.mpr ⟨hroot (List.ne_nil_of_mem hw), hconcerns⟩)
  rw [hfound] at hsame
  rwa [Option.some.inj hsame]

/-- A stage comes to all that it owns of what a network writes. -/
theorem Graph.Emits.perm_owned (h : g.Emits (.particles table) context stage scope roots parts)
    (hids : (g.nodes.map (·.id)).Nodup)
    (hroots : ∀ n ∈ g.nodes, n.writers scope g ≠ [] → n.id ∈ roots) :
    (ownedBy table stage (parts.flatMap fun part => part.node.writers scope g)).Perm
      (ownedBy table stage (g.writers scope)) := by
  have hflat : ∀ nodes : List Node, ownedBy table stage (nodes.flatMap (Node.writers scope g)) =
      nodes.flatMap fun n => ownedBy table stage (n.writers scope g) :=
    fun nodes => List.filter_flatMap
  have hparts : (parts.flatMap fun part => part.node.writers scope g) =
      (parts.map (·.node)).flatMap (Node.writers scope g) := by
    rw [List.flatMap_map]
  -- a node that is not emitted has nothing to write here
  have hrest : (g.nodes.filter fun n => ((parts.map (·.node)).map (·.id)).contains n.id).flatMap
      (fun n => ownedBy table stage (n.writers scope g)) =
        g.nodes.flatMap fun n => ownedBy table stage (n.writers scope g) := by
    refine flatMap_filter_of_nil fun n hn hnot => ?_
    by_contra hsome
    have hmem := h.mem_of_owned hids hn (hroots n hn) hsome
    rw [List.contains_iff_mem.mpr (List.mem_map_of_mem hmem)] at hnot
    cases hnot
  rw [hparts, Graph.writers_eq, hflat, hflat, ← hrest]
  -- parts and nodes are listed once each, so it is enough that they have the same members
  refine List.Perm.flatMap_right _ ?_
  refine (List.perm_ext_iff_of_nodup (.of_map _ h.schedules.nodup)
    ((List.Nodup.of_map _ hids).filter _)).mpr fun n => ?_
  rw [List.mem_filter, List.contains_iff_mem]
  constructor
  · intro hn
    exact ⟨Graph.mem_of_node? (h.schedules.found n hn), List.mem_map_of_mem hn⟩
  · rintro ⟨hn, hid⟩
    obtain ⟨m, hm, hid⟩ := List.mem_map.mp hid
    have hsame := h.schedules.found m hm
    rw [hid, Graph.node?_of_mem hids hn] at hsame
    rwa [Option.some.inj hsame]

/-- **A network stores what it writes**, with everything inside, as far as the stage owns it. -/
theorem Graph.Emits.stored :
    ∀ {g : Graph} {scope : Scope} {roots : List NodeId} {parts : List Part},
      g.Everywhere (fun network => (network.nodes.map (·.id)).Nodup) →
        g.Emits (.particles table) context stage scope roots parts →
        (∀ n ∈ g.nodes, n.writers scope g ≠ [] → n.id ∈ roots) →
          Stored table context stage (g.writers scope) (bodyOf stage parts) := by
  intro g
  induction g using Graph.network_induction with
  | step g ih =>
    intro scope roots parts hg h hroots
    have hpart : ∀ part ∈ parts,
        Stored table context stage (part.node.writers scope g) (part.statements stage) := by
      intro part hpart
      rcases h.cases hpart with ⟨hleaf, hemit⟩ | ⟨subnet, _, _, _, hk, _⟩
      · refine stored_of_emitLeaf (s := { graph := g, node := part.node, stage, scope, context })
          hleaf (fun target hk => ?_) hemit
        -- an output node inside a subnet is refused
        have hk' : part.node.kind = .output target := hk
        have hsupported := h.supported part hpart
        by_contra hdepth
        simp [Backend.checkSupported, hk', Nat.pos_of_ne_zero hdepth] at hsupported
      · obtain ⟨output, bindings, inner, _, hbindings, hinner, hbody⟩ := h.written_subnet hpart hk
        have hnests : subnet.network.Nests g := ⟨part.node, h.node_mem hpart, subnet, hk, rfl⟩
        have hstored := ih _ hnests (hg.inside hnests) hinner fun n hn hsome =>
          List.mem_cons_of_mem _
            (Graph.mem_exports_of_writers hn (.inl (Nat.succ_pos _)) hsome)
        rw [Node.writers_subnet hk, hbody]
        refine hstored.of_perm (.refl _) ?_
        have hclose : storesOf [.closeBlock] = [] := rfl
        rw [storesOf_append, storesOf_append, Site.storesOf_opening hbindings, hclose,
          List.nil_append, List.append_nil]
    exact (Stored.flatMap hpart).of_perm (h.perm_owned hg.here hroots) rfl

/-! ## §4. Whole programs -/

/-- A stage stores what it owns of all that the graph writes. -/
theorem Backend.Builds.stored {p : Progress} {output : NodeId}
    {builds : List (Stage × List Part)}
    (h : (Backend.particles table).Builds g context output builds p)
    (hg : g.Everywhere fun network => (network.nodes.map (·.id)).Nodup)
    (hroots : ∀ n ∈ g.nodes, n.writers (Scope.root g.name) g ≠ [] → n.id ∈ output :: g.exports)
    (hstage : stage ∈ Particles.stages table) :
    Stored table context stage (g.writers (Scope.root g.name)) (p.statements stage) := by
  obtain ⟨parts, before, after, hmem, hbody, hrelays⟩ := h.body_between hstage
  have hsilent : ∀ body : List Statement, body ⊆ before ++ after → storesOf body = [] := by
    refine fun body hsub => storesOf_eq_nil fun st hst => ?_
    obtain ⟨name, rfl⟩ := hrelays st (hsub hst)
    rfl
  refine ((h.emits _ hmem).stored hg hroots).of_perm (.refl _) ?_
  rw [hbody, storesOf_append, storesOf_append, hsilent before (List.subset_append_left ..),
    hsilent after (List.subset_append_right ..), List.nil_append, List.append_nil]

/-- The assignments of channels in stages, each with its stage. -/
def Progress.stores (p : Progress) (stages : List Stage) : List (Stage × Statement) :=
  stages.flatMap fun stage => (storesOf (p.statements stage)).map (Prod.mk stage)

namespace Particles

variable {writers : List Writer} {p : Progress}

/-- **Each writer is owned by one stage**, so what the stages own is, together, all that is
    written. -/
theorem perm_ownedBy {stages : List Stage} (hnodup : stages.Nodup) :
    ∀ {writers : List Writer},
      (∀ w ∈ writers, ∃ a, table.get? w.name = some a ∧ .simulation a.texture ∈ stages) →
        (stages.flatMap fun stage => ownedBy table stage writers).Perm writers
  | [], _ => by
    have hnone : (stages.flatMap fun stage => ownedBy table stage []) = [] :=
      List.flatMap_eq_nil_iff.mpr fun _ _ => rfl
    rw [hnone]
  | w :: writers, h => by
    obtain ⟨a, ha, hmem⟩ := h w List.mem_cons_self
    have howned : ∀ stage, isOwned table w.name stage = decide (stage = .simulation a.texture) := by
      intro stage
      rw [Bool.eq_iff_iff, isOwned_iff, decide_eq_true_iff]
      simp [ha]
    have hnone : ∀ stage ∈ stages, decide (stage = .simulation a.texture) = false →
        ownedBy table stage [w] = [] := by
      intro stage _ hne
      rw [ownedBy, List.filter_singleton, howned, hne]
      rfl
    have hone : (stages.flatMap fun stage => ownedBy table stage [w]) = [w] := by
      rw [← flatMap_filter_of_nil hnone, List.filter_eq, List.count_eq_one_of_mem hnodup hmem]
      simp [ownedBy, howned]
    -- one writer against all stages, and the others after it
    have hsplit : (stages.flatMap fun stage => ownedBy table stage (w :: writers)) =
        stages.flatMap fun stage => ownedBy table stage [w] ++ ownedBy table stage writers :=
      List.flatMap_congr fun stage _ => List.filter_append [w] writers
    rw [hsplit]
    refine (List.flatMap_append_perm stages _ _).symm.trans ?_
    rw [hone]
    exact (perm_ownedBy hnodup fun v hv => h v (List.mem_cons_of_mem _ hv)).cons w

/-- What stages store, all together. -/
theorem exists_order :
    ∀ {stages : List Stage},
      (∀ stage ∈ stages, Stored table context stage writers (p.statements stage)) →
        ∃ order, order.Perm (stages.flatMap fun stage => ownedBy table stage writers) ∧
          List.Forall₂ (fun w store => Writer.Writes table context store.1 w store.2) order
            (p.stores stages)
  | [], _ => ⟨[], .nil, .nil⟩
  | stage :: stages, h => by
    obtain ⟨first, hfirst, hstores⟩ := h stage List.mem_cons_self
    obtain ⟨order, horder, hall⟩ := exists_order fun other hother =>
      h other (List.mem_cons_of_mem _ hother)
    have hhead : List.Forall₂ (fun w store => Writer.Writes table context store.1 w store.2) first
        ((storesOf (p.statements stage)).map (Prod.mk stage)) :=
      List.forall₂_map_right_iff.mpr hstores
    exact ⟨first ++ order, hfirst.append horder, List.rel_append hhead hall⟩

/-- **No write is lost, repeated or misplaced.**  When a particle system compiles whose networks
    are apart, whatever places its attributes had before, then the assignments of channels in
    all stages of the program are, one to one, what the writers of the graph come to, each in the
    stage that computes the texture where its attribute has its place, and in the channels of
    that place. -/
theorem writes_once {left : Backend} {program : Program} (htable : Allocations.Reached table)
    (hg : g.Everywhere Graph.Apart)
    (h : (Backend.particles table).compile g context = (left, .ok program)) :
    ∃ table' p kept order, left = .particles table' ∧ program = .particles kept ∧
      left.pass g context = .ok p ∧ ParticlesProgram.assemble p table' = .ok kept ∧
      order.Perm (g.writers (Scope.root g.name)) ∧
      List.Forall₂ (fun w store => Writer.Writes table' context store.1 w store.2) order
        (p.stores (stages table')) := by
  obtain ⟨table', p, kept, rfl, rfl, hallocate, hp, hkept⟩ := Backend.particles_of_compile h
  obtain ⟨output, builds, hbuilds⟩ := Backend.builds_of_pass hp
  obtain ⟨output', houtput, houtputs⟩ := Backend.outputs_of_pass hp
  obtain rfl := Except.ok.inj (hbuilds.found.symm.trans houtput)
  obtain ⟨order, horder, hall⟩ := exists_order fun stage hstage =>
    hbuilds.stored (hg.mono fun _ hnetwork => hnetwork.ids)
      (fun n hn => Backend.mem_roots_of_writers houtputs hn) hstage
  have hplaces := exists_place htable hg hallocate hp
  exact ⟨table', p, kept, order, rfl, rfl, hp, hkept,
    horder.trans (perm_ownedBy (Backend.stages_nodup (.particles table')) hplaces), hall⟩

/-- A subnet that computes a direction and writes the age of particles. -/
def lift (up : NodeId) : Subnet where
  inputs := []
  outputs := [⟨"y", .vector3⟩]
  block := .always
  network :=
    { Graph.empty "lift" with
      nodes :=
        [.make ⟨10⟩ "output" (.subnetOutput [⟨"y", .vector3⟩]),
         .make up "up" (.constant (.vector3 .zero .zero .one)),
         .make ⟨12⟩ "year" (.constant (.float .one)),
         .make ⟨13⟩ "age" (.attribute "age" .float)]
      connections := [⟨⟨20⟩, up, "value", ⟨10⟩, "y"⟩, ⟨⟨21⟩, ⟨12⟩, "value", ⟨13⟩, "export"⟩]
      version := 6 }

/-- Particles that are lifted, and get a seed. -/
def seeded (up : NodeId) : Graph :=
  { Graph.empty "g" with
    nodes :=
      [.make ⟨1⟩ "out" (.output .particles),
       .make ⟨2⟩ "lift" (.subnet (lift up)),
       .make ⟨3⟩ "one" (.constant (.float .one)),
       .make ⟨4⟩ "seed" (.attribute "seed" .float)]
    connections :=
      [⟨⟨5⟩, ⟨2⟩, "y", ⟨1⟩, "position"⟩, ⟨⟨6⟩, ⟨3⟩, "value", ⟨4⟩, "export"⟩]
    version := 6 }

/-- The position, the age and the seed are written once each, the age inside the subnet and the
    seed in a texture of its own. -/
theorem seeded_writes_once :
    (seeded ⟨11⟩).Everywhere Graph.Apart ∧
      ∃ (program : ParticlesProgram) (table' : Allocations) (p : Progress) (order : List Writer),
        (Backend.particles {}).compile (seeded ⟨11⟩) {} =
          (.particles table', .ok (.particles program)) ∧
        ((seeded ⟨11⟩).writers (.root "g")).map (fun w => (w.name, w.scope.depth)) =
          [("position", 0), ("age", 1), ("seed", 0)] ∧
        (p.stores (stages table')).map (fun store => (store.1, store.2.render)) =
          [(.simulation 0, "gl_FragColor.w = v_lift_year_value;"),
           (.simulation 0, "gl_FragColor.xyz = v_lift_y;"),
           (.simulation 1, "gl_FragColor.x = v_one_value;")] ∧
        order.Perm ((seeded ⟨11⟩).writers (.root "g")) ∧
        List.Forall₂ (fun w store => Writer.Writes table' {} store.1 w store.2) order
          (p.stores (stages table')) := by
  have hapart : (seeded ⟨11⟩).Everywhere Graph.Apart := Graph.everywhere_apart (by decide)
  have hpass : ((allocate {} (seeded ⟨11⟩) {}).bind fun table =>
      ((Backend.particles table).pass (seeded ⟨11⟩) {}).map fun p =>
        (p.stores (stages table)).map fun store => (store.1, store.2.render)) =
      .ok [(.simulation 0, "gl_FragColor.w = v_lift_year_value;"),
        (.simulation 0, "gl_FragColor.xyz = v_lift_y;"),
        (.simulation 1, "gl_FragColor.x = v_one_value;")] := by
    decide +kernel
  obtain ⟨table, htable, hpass⟩ := bind_eq_ok.mp hpass
  obtain ⟨p, hp, hstores⟩ := map_eq_ok.mp hpass
  obtain ⟨program, hcompile, -⟩ := Backend.compile_particles htable hp
  obtain ⟨table', p', kept, order, hleft, -, hp', -, horder, hall⟩ :=
    writes_once .empty hapart hcompile
  cases hleft
  obtain rfl := Except.ok.inj (hp.symm.trans hp')
  exact ⟨hapart, program, table, p, order, hcompile, by decide, hstores, horder, hall⟩

/-- If what lifts the particles inside the subnet has the identity of the seed, the seed is not
    asked for: it has no place, and no stage writes it. -/
theorem seeded_lost :
    ∃ (program : ParticlesProgram) (table' : Allocations) (p : Progress),
      (Backend.particles {}).compile (seeded ⟨4⟩) {} =
        (.particles table', .ok (.particles program)) ∧
      (Backend.particles table').pass (seeded ⟨4⟩) {} = .ok p ∧
      (∃ w ∈ (seeded ⟨4⟩).writers (.root "g"), w.name = "seed") ∧
      table'.get? "seed" = none ∧
      ¬∃ order, order.Perm ((seeded ⟨4⟩).writers (.root "g")) ∧
        List.Forall₂ (fun w store => Writer.Writes table' {} store.1 w store.2) order
          (p.stores (stages table')) := by
  have hpass : ((allocate {} (seeded ⟨4⟩) {}).bind fun table =>
      ((Backend.particles table).pass (seeded ⟨4⟩) {}).map fun _ => table.get? "seed") =
      .ok none := by
    decide +kernel
  obtain ⟨table, htable, hpass⟩ := bind_eq_ok.mp hpass
  obtain ⟨p, hp, hseed⟩ := map_eq_ok.mp hpass
  obtain ⟨program, hcompile, -⟩ := Backend.compile_particles htable hp
  have hwriter : ∃ w ∈ (seeded ⟨4⟩).writers (.root "g"), w.name = "seed" :=
    List.mem_map.mp (by decide)
  refine ⟨program, table, p, hcompile, hp, hwriter, hseed, ?_⟩
  rintro ⟨order, horder, hall⟩
  obtain ⟨w, hw, hname⟩ := hwriter
  obtain ⟨i, hi, rfl⟩ := List.mem_iff_getElem.mp (horder.mem_iff.mpr hw)
  -- whatever is written has a place
  obtain ⟨a, value, ha, -⟩ := hall.get hi (hall.length_eq ▸ hi)
  rw [List.get_eq_getElem, hname, hseed] at ha
  cases ha

end Particles

end ShaderFlow
