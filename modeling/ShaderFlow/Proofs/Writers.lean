/-
  ShaderFlow.Proofs.Writers — what a particle graph writes, and that it has a place.

  The attributes with a fed export, at any depth, and the fed inputs of the output node are
  written.  Each of them is a root of its network, or stands in a subnet that is one, so the
  collection asks for its attribute, unless a node deeper inside has the identity of the root
  and was reached before it.

  Main definitions:
    * `Graph.writers`        — the inputs of a hierarchy whose values are written;
    * `Graph.Apart`          — a network whose nodes share no identity with each other and the
      nodes inside.

  Main statements:
    * `Graph.mem_exports_of_writers`  — what writes is a root of its network;
    * `Graph.listed_of_root`          — a deep traversal lists its roots;
    * `Particles.requested_of_writer` — what is written is asked for;
    * `Particles.exists_place`        — and has a place in one of the stages.
-/

import ShaderFlow.Proofs.Coverage
import ShaderFlow.Proofs.Declarations

namespace ShaderFlow

open Relation

/-! ## §1. Writers -/

/-- An input whose value is written. -/
structure Writer where
  graph : Graph
  scope : Scope
  node : Node
  input : String
  /-- The attribute that it is written to. -/
  name : String
  type : PortType

mutual

/-- The inputs of a hierarchy whose values are written. -/
def Graph.writers (scope : Scope) : Graph → List Writer
  | { name, nodes, connections, version, error } =>
    Node.writersAmong scope { name, nodes, connections, version, error } nodes

/-- The same for some of the nodes of the network `g`, and for what is inside them. -/
def Node.writersAmong (scope : Scope) (g : Graph) : List Node → List Writer
  | [] => []
  | { id, name, kind, dirty, error } :: ns =>
    kind.writers scope g { id, name, kind, dirty, error } ++ Node.writersAmong scope g ns

/-- The same for a node of the given kind: an attribute writes what feeds its export, and the
    output node of the graph itself what feeds its inputs. -/
def Kind.writers (scope : Scope) (g : Graph) (n : Node) : Kind → List Writer
  | .attribute name type =>
    if (g.inputSource? n.id Kind.exportInput).isSome then
      [{ graph := g, scope, node := n, input := Kind.exportInput, name, type }]
    else []
  | .output _ =>
    if scope.depth = 0 then
      (Particles.outputAttributes.filter fun name => (g.inputSource? n.id name).isSome).map
        fun name => { graph := g, scope, node := n, input := name, name, type := .vector3 }
    else []
  | .subnet { network, .. } => network.writers (scope.enter n.name)
  | _ => []

end

/-- What a node and what is inside it write. -/
def Node.writers (scope : Scope) (g : Graph) (n : Node) : List Writer := n.kind.writers scope g n

variable {g : Graph} {scope : Scope} {n : Node} {path : String} {roots : List NodeId}

theorem Node.writersAmong_eq (scope : Scope) (g : Graph) (ns : List Node) :
    Node.writersAmong scope g ns = ns.flatMap (Node.writers scope g) := by
  induction ns with
  | nil => rw [Node.writersAmong, List.flatMap_nil]
  | cons n ns ih =>
    obtain ⟨id, name, kind, dirty, error⟩ := n
    rw [Node.writersAmong, List.flatMap_cons, ih]
    rfl

theorem Graph.writers_eq (scope : Scope) (g : Graph) :
    g.writers scope = g.nodes.flatMap (Node.writers scope g) := by
  obtain ⟨name, nodes, connections, version, error⟩ := g
  rw [Graph.writers, Node.writersAmong_eq]

theorem Node.writers_subnet {s : Subnet} (hk : n.kind = .subnet s) :
    n.writers scope g = s.network.writers (scope.enter n.name) := by
  obtain ⟨inputs, outputs, block, network⟩ := s
  rw [Node.writers, hk, Kind.writers]

/-! ## §2. What writes is a root -/

theorem Graph.exists_of_writers (h : g.writers scope ≠ []) :
    ∃ n ∈ g.nodes, n.writers scope g ≠ [] := by
  rw [Graph.writers_eq, ne_eq, List.flatMap_eq_nil_iff, not_forall] at h
  obtain ⟨n, h⟩ := h
  rw [Classical.not_imp] at h
  exact ⟨n, h⟩

/-- **What writes is a root of its network**, but for the output node. -/
theorem Graph.mem_exports_of_writers :
    ∀ {g : Graph} {scope : Scope} {n : Node}, n ∈ g.nodes →
      (0 < scope.depth ∨ ∀ target, n.kind ≠ .output target) → n.writers scope g ≠ [] →
        n.id ∈ g.exports := by
  intro g
  induction g using Graph.network_induction with
  | step g ih =>
    intro scope n hn hinside hsome
    refine Graph.mem_sideRoots.mpr ⟨n, hn, ?_, rfl⟩
    unfold Node.acts
    cases hk : n.kind with
    | subnet s =>
      rw [Node.writers_subnet hk] at hsome
      obtain ⟨m, hm, hwrites⟩ := Graph.exists_of_writers hsome
      -- inside, every scope is deep
      have hid := ih s.network ⟨n, hn, s, hk, rfl⟩ hm (.inl (Nat.succ_pos _)) hwrites
      have hfull : s.network.exports ≠ [] := List.ne_nil_of_mem hid
      simpa [Graph.exports] using hfull
    | «attribute» name type =>
      simp only [Node.writers, hk, Kind.writers, ne_eq, ite_eq_right_iff, List.cons_ne_nil,
        imp_false, not_not] at hsome
      simpa [Kind.isAttribute] using hsome
    | output target =>
      rcases hinside with hdepth | hno
      · simp [Node.writers, hk, Kind.writers, Nat.ne_of_gt hdepth] at hsome
      · exact absurd hk (hno target)
    | _ => simp [Node.writers, hk, Kind.writers] at hsome

/-! ## §3. What a deep traversal lists -/

/-- A network whose nodes share no identity with each other, nor with any node inside. -/
structure Graph.Apart (g : Graph) : Prop where
  ids : (g.nodes.map (·.id)).Nodup
  inside : ∀ inner : Graph, inner.Nests g → ∀ id ∈ inner.ids, id ∉ g.nodes.map (·.id)

/-- No node inside a subnet has the identity of a node around it, if all identities differ. -/
theorem Node.id_notMem_of_nodup {s : Subnet} {m : Node} (hk : m.kind = .subnet s) :
    ∀ {ns : List Node}, (Node.idsAmong ns).Nodup → m ∈ ns →
      ∀ id ∈ s.network.ids, id ∉ ns.map (·.id)
  | { id, name, kind, dirty, error } :: ns, hids, hm => by
    intro inner hinner hmem
    rw [Node.idsAmong, List.nodup_cons, List.nodup_append, List.mem_append, not_or] at hids
    obtain ⟨⟨hkind, hrest⟩, -, hnodup, happart⟩ := hids
    obtain ⟨other, hother, rfl⟩ := List.mem_map.mp hmem
    rcases List.mem_cons.mp hm with rfl | hm
    · simp only at hk
      subst hk
      obtain ⟨inputs, outputs, block, network⟩ := s
      rw [Kind.ids] at hkind happart
      rcases List.mem_cons.mp hother with rfl | hother
      · exact hkind hinner
      · exact happart _ hinner _ (id_mem_idsAmong hother) rfl
    · rcases List.mem_cons.mp hother with rfl | hother
      · exact hrest ((Node.sublist_idsAmong hk hm).subset hinner)
      · exact id_notMem_of_nodup hk hnodup hm _ hinner (List.mem_map_of_mem hother)

/-- Where all identities of a hierarchy differ, its networks are apart. -/
theorem Graph.everywhere_apart (hids : g.ids.Nodup) : g.Everywhere Graph.Apart := by
  intro network hnetwork
  have hnodup := Graph.nodup_ids_within hnetwork hids
  obtain ⟨name, nodes, connections, version, error⟩ := network
  rw [Graph.ids] at hnodup
  refine ⟨(Node.map_id_sublist nodes).nodup hnodup, ?_⟩
  rintro inner ⟨m, hm, s, hk, rfl⟩
  exact Node.id_notMem_of_nodup hk hnodup hm

theorem Graph.id_mem_ids {inner : Graph} (h : ReflTransGen Graph.Nests inner g)
    (hn : n ∈ inner.nodes) : n.id ∈ g.ids :=
  (Graph.sublist_ids_within h).subset (Graph.mem_ids_of_mem hn)

/-- A node of a hierarchy is one of the graph itself, or it is inside one of its subnets. -/
theorem Graph.Located.cases_inside {v : Visit} (h : g.Located path v) :
    (v.path = path ∧ v.node ∈ g.nodes) ∨
      ∃ inner : Graph, inner.Nests g ∧ v.node.id ∈ inner.ids := by
  have hwithin : (v.path = path ∧ v.node ∈ g.nodes) ∨ ∃ inner : Graph, inner.Nests g ∧
      ReflTransGen Graph.Nests v.graph inner ∧ v.node ∈ v.graph.nodes := by
    induction h with
    | top hn => exact .inl ⟨rfl, hn⟩
    | @inside v s n _ hs hn ih =>
      right
      rcases ih with ⟨_, hv⟩ | ⟨inner, hinner, hwithin, hv⟩
      · exact ⟨s.network, ⟨v.node, hv, s, hs, rfl⟩, .refl, hn⟩
      · exact ⟨inner, hinner, .head ⟨v.node, hv, s, hs, rfl⟩ hwithin, hn⟩
  exact hwithin.imp_right fun ⟨inner, hinner, hwithin, hv⟩ =>
    ⟨inner, hinner, Graph.id_mem_ids hwithin hv⟩

/-- **A deep traversal lists its roots** where they stand, unless a node inside has the identity
    of one of them. -/
theorem Graph.listed_of_root {filter : Node → InputFilter} {t : Traversal} (hg : g.Apart)
    (h : g.traverse path .deep filter roots = .ok t) (hn : n ∈ g.nodes) (hroot : n.id ∈ roots) :
    { path, node := n } ∈ t.ordered := by
  have hwalk := g.walks_traverse path .deep filter roots
  rw [h] at hwalk
  obtain ⟨hwithin, -, hlisted⟩ :=
    hwalk.listed Graph.Located.follows nofun fun _ => Graph.located_of_root
  have hreached : t.hasReached n.id = true := hlisted { graph := g, path, node := n }
    (Graph.mem_rootSteps.mpr ⟨n.id, hroot, n, Graph.node?_of_mem hg.ids hn, rfl⟩)
  obtain ⟨r, hr, hid⟩ := List.any_eq_true.mp hreached
  obtain ⟨v, hv, rfl⟩ := hwithin r hr
  have hid : v.node.id = n.id := by simpa [Visit.reached] using hid
  rcases hv.cases_inside with ⟨hpath, hmem⟩ | ⟨inner, hinner, hmem⟩
  · have hsame := Graph.node?_of_mem hg.ids hmem
    rw [hid, Graph.node?_of_mem hg.ids hn] at hsame
    rwa [Visit.reached, hpath, ← Option.some.inj hsame] at hr
  · rw [hid] at hmem
    exact absurd (List.mem_map_of_mem hn) (hg.inside inner hinner n.id hmem)

/-! ## §4. What is asked for -/

namespace Particles

/-- **What is written is asked for**, as long as what writes in the graph is among the roots. -/
theorem requested_of_writer :
    ∀ {g : Graph} {scope : Scope} {path : String} {roots : List NodeId} {levels : Nat}
      {requests : List AttributeRequest}, g.Everywhere Graph.Apart → g.depth ≤ levels →
        collectRequests levels g path roots = .ok requests →
        (∀ n ∈ g.nodes, n.writers scope g ≠ [] → n.id ∈ roots) →
          ∀ w ∈ g.writers scope, ∃ r ∈ requests, r.name = w.name ∧ r.type = w.type := by
  intro g
  induction g using Graph.network_induction with
  | step g ih =>
    intro scope path roots levels requests hg hdepth h hroots w hw
    rw [Graph.writers_eq] at hw
    obtain ⟨n, hn, hw⟩ := List.mem_flatMap.mp hw
    obtain ⟨t, ht, hall⟩ := exists_listed_of_collectRequests h
    have hlisted := Graph.listed_of_root hg.here ht hn (hroots n hn (List.ne_nil_of_mem hw))
    obtain ⟨own, heq, hsub⟩ := hall _ hlisted
    suffices hasked : ∃ r ∈ own, r.name = w.name ∧ r.type = w.type by
      obtain ⟨r, hr, hr'⟩ := hasked
      exact ⟨r, hsub hr, hr'⟩
    unfold requestsOf at heq
    cases hk : n.kind with
    | «attribute» name type =>
      simp only [hk] at heq
      cases heq
      simp only [Node.writers, hk, Kind.writers] at hw
      split at hw
      · rw [List.mem_singleton.mp hw]
        exact ⟨_, List.mem_cons_self, rfl, rfl⟩
      · cases hw
    | output target =>
      simp only [hk] at heq
      cases heq
      simp only [Node.writers, hk, Kind.writers] at hw
      split at hw
      · obtain ⟨name, hname, rfl⟩ := List.mem_map.mp hw
        exact ⟨_, List.mem_map_of_mem hname, rfl, rfl⟩
      · cases hw
    | subnet s =>
      simp only [hk] at heq
      rw [Node.writers_subnet hk] at hw
      have hnests : s.network.Nests g := ⟨n, hn, s, hk, rfl⟩
      have hacts : ∀ m ∈ s.network.nodes, m.writers (scope.enter n.name) s.network ≠ [] →
          m.id ∈ s.network.exports :=
        fun m hm => Graph.mem_exports_of_writers hm (.inl (Nat.succ_pos _))
      obtain ⟨m, hm, hsome⟩ := Graph.exists_of_writers (List.ne_nil_of_mem hw)
      rw [if_neg (by simpa using List.ne_nil_of_mem (hacts m hm hsome))] at heq
      -- a network inside is less deep, so there is a level left for it
      have hlt := Graph.depth_lt_of_nests hnests
      obtain ⟨levels, rfl⟩ : ∃ rest, levels = rest + 1 := ⟨levels - 1, by omega⟩
      exact ih s.network hnests (hg.inside hnests) (by omega) heq hacts w hw
    | _ => simp [Node.writers, hk, Kind.writers] at hw

end Particles

/-! ## §5. What has a place -/

variable {b : Backend} {context : Context} {p : Progress}

/-- A pass compiles from the only output node that there is. -/
theorem Backend.outputs_of_pass (h : b.pass g context = .ok p) :
    ∃ output, g.outputNode b.target = .ok output ∧
      ∀ n ∈ g.nodes, ∀ target, n.kind = .output target → n.id = output := by
  obtain ⟨output, houtput, h⟩ := bind_eq_ok.mp h
  obtain ⟨_, hchecked, -⟩ := bind_eq_ok.mp h
  refine ⟨output, houtput, fun n hn target hk => ?_⟩
  have hsupported : b.supports n.kind = true := by
    unfold checkNodes at hchecked
    split at hchecked
    next => cases hchecked
    next hnone => simpa using List.find?_eq_none.mp hnone n hn
  obtain ⟨m, hm, rfl⟩ := Graph.outputNode_spec houtput
  -- a backend supports output nodes for its own target only
  have hown : n ∈ g.nodes.filter (Node.isOutputFor b.target) := by
    refine List.mem_filter.mpr ⟨hn, ?_⟩
    rw [hk] at hsupported
    unfold Node.isOutputFor
    rw [hk]
    cases b <;> exact hsupported
  rw [hm, List.mem_singleton] at hown
  rw [hown]

/-- What writes is among the roots of a pass. -/
theorem Backend.mem_roots_of_writers {output : NodeId}
    (houtputs : ∀ n ∈ g.nodes, ∀ target, n.kind = .output target → n.id = output)
    (hn : n ∈ g.nodes) (hsome : n.writers scope g ≠ []) : n.id ∈ output :: g.exports := by
  by_cases hk : ∃ target, n.kind = .output target
  · obtain ⟨target, hk⟩ := hk
    rw [houtputs n hn target hk]
    exact List.mem_cons_self
  · exact List.mem_cons_of_mem _
      (Graph.mem_exports_of_writers hn (.inr fun target htarget => hk ⟨target, htarget⟩) hsome)

/-- What is asked for has its place in the texture of a stage. -/
theorem Allocations.stage_of_asked {t t' : Allocations} {requests : List AttributeRequest}
    {options : ParticlesOptions} {changed : Bool} (ht : Reached t)
    (h : t.update requests options = .ok (changed, t')) {ask : String × PortType}
    (hask : ask ∈ asked requests) :
    ∃ a, t'.get? ask.1 = some a ∧ .simulation a.texture ∈ Particles.stages t' := by
  obtain ⟨a, ha, -⟩ := stored_of_asked ht h hask
  obtain ⟨-, groups, hpacked⟩ := packed_of_update ht h
  obtain ⟨i, front, back, hi, heq⟩ := hpacked.exists_of_get? ha
  have hlt : i < groups.length := (List.getElem?_eq_some_iff.mp hi).1
  refine ⟨a, ha, List.mem_map.mpr ⟨a.texture, List.mem_range.mpr ?_, rfl⟩⟩
  rw [heq, hpacked.length_textures]
  show min i lastIndex < _
  omega

/-- **What is written has a place** in the texture of one of the stages. -/
theorem Particles.exists_place {table table' : Allocations} (htable : Allocations.Reached table)
    (hg : g.Everywhere Graph.Apart) (h : allocate table g context = .ok table')
    (hp : (Backend.particles table').pass g context = .ok p) :
    ∀ w ∈ g.writers (Scope.root g.name),
      ∃ a, table'.get? w.name = some a ∧ .simulation a.texture ∈ stages table' := by
  intro w hw
  obtain ⟨output, houtput, houtputs⟩ := Backend.outputs_of_pass hp
  obtain ⟨output', houtput', h⟩ := bind_eq_ok.mp h
  obtain rfl := Except.ok.inj (houtput.symm.trans houtput')
  obtain ⟨requests, hrequests, h⟩ := bind_eq_ok.mp h
  obtain ⟨⟨changed, built⟩, hupdate, h⟩ := bind_eq_ok.mp h
  obtain rfl : built = table' := pure_eq_ok.mp h
  obtain ⟨r, hr, hname, -⟩ := requested_of_writer hg (Nat.le_refl _) hrequests
    (fun n hn => Backend.mem_roots_of_writers houtputs hn) w hw
  have hask : (r.name, r.type) ∈ Allocations.asked requests :=
    List.mem_cons_of_mem _ (List.mem_map_of_mem hr)
  obtain ⟨a, ha, hstage⟩ := Allocations.stage_of_asked htable hupdate hask
  exact ⟨a, hname ▸ ha, hstage⟩

end ShaderFlow
