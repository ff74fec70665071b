/-
  ShaderFlow.Proofs.Collection — what is found before anything is emitted.

  The attributes that a graph can touch are collected by a deep traversal from the roots, and
  again inside each subnet from the nodes that act there.  Stages are emitted network by
  network instead.  The two agree where subnets pass on what they are fed: a deep traversal
  goes into a subnet through its outputs and leaves it only where it comes upon its inputs.

  Main definitions:
    * `Graph.Needs`     — which node of a network feeds which;
    * `Graph.PassesOn`  — whether what feeds a subnet can be found through the subnet;
    * `Graph.Gathers`   — the nodes that a collection finds.

  Main statements:
    * `Visit.follows_of_needs`    — a deep traversal finds what feeds a node;
    * `Graph.Meets.gathered`      — a collection finds whatever a stage comes to;
    * `Particles.request_of_gathers` — and takes down the attributes among it.
-/

import ShaderFlow.Backend.Particles
import ShaderFlow.Proofs.Sites
import ShaderFlow.Proofs.Wiring

namespace ShaderFlow

open Relation

variable {g : Graph} {path : String} {roots : List NodeId} {v w : Visit} {n m : Node}

/-! ## §1. One network -/

/-- Whether a node of a network needs another: one of its inputs is fed by it. -/
def Graph.Needs (g : Graph) (n m : Node) : Prop :=
  ∃ input ∈ n.inputNames, ∃ c, g.inputSource? n.id input = some c ∧ g.node? c.source = some m

/-- Whether the outputs of a subnet need its inputs. -/
def Subnet.PassesOn (s : Subnet) : Prop :=
  ∃ output source, s.outputNode? = some output ∧ source.kind.isSubnetInput = true ∧
    ReflTransGen s.network.Needs output source

/-- Whether each subnet of a network that is fed passes on what it is fed. -/
def Graph.PassesOn (g : Graph) : Prop :=
  ∀ n ∈ g.nodes, ∀ s m, n.kind = .subnet s → g.Needs n m → s.PassesOn

theorem Graph.Needs.mem (h : g.Needs n m) : m ∈ g.nodes := by
  obtain ⟨_, _, _, _, hm⟩ := h
  exact Graph.mem_of_node? hm

theorem Graph.mem_of_needs (hn : n ∈ g.nodes) (h : ReflTransGen g.Needs n m) : m ∈ g.nodes := by
  rcases ReflTransGen.cases_tail h with rfl | ⟨_, _, h⟩
  · exact hn
  · exact h.mem

theorem Subnet.mem_of_outputNode? {s : Subnet} {output : Node} (h : s.outputNode? = some output) :
    output ∈ s.network.nodes :=
  List.mem_of_find?_eq_some h

/-- Where nothing is entered, edges stay in the network. -/
theorem Visit.Follows.needs {filter : Node → InputFilter} (h : v.Follows .shallow filter w) :
    v.graph.Needs v.node w.node ∧ w = { v with node := w.node } := by
  cases h with
  | input hr hc hs =>
    cases hr with
    | own _ =>
      obtain ⟨input, hinput, _, hc⟩ := hc
      exact ⟨⟨input, hinput, _, hc, hs⟩, rfl⟩
    | leave hmode _ _ => cases hmode
  | enter hmode _ _ => cases hmode

theorem Visit.needs_of_path {filter : Node → InputFilter}
    (h : ReflTransGen (Visit.Follows .shallow filter) v w) :
    ReflTransGen v.graph.Needs v.node w.node ∧ w = { v with node := w.node } := by
  induction h with
  | refl => exact ⟨.refl, rfl⟩
  | tail _ hstep ih =>
    obtain ⟨hneeds, hsame⟩ := hstep.needs
    rw [ih.2] at hneeds hsame
    exact ⟨ih.1.tail hneeds, hsame⟩

/-- What a stage comes to in a network is needed by one of its roots. -/
theorem Backend.needed_of_stageOrder {b : Backend} {stage : Stage} {order : List Node}
    (hids : g.ids.Nodup) (h : b.stageOrder g path stage roots = .ok order) (hn : n ∈ order) :
    ∃ root ∈ roots, ∃ m, g.node? root = some m ∧ ReflTransGen g.Needs m n := by
  -- the order lists what a shallow traversal reaches, and that stays in the network
  obtain ⟨t, ht, rfl⟩ := map_eq_ok.mp h
  obtain ⟨visits, hsorts⟩ := Graph.exists_sorts_of_traverse hids ht
  rw [Traversal.nodes, hsorts.ordered, List.map_map] at hn
  obtain ⟨v, hv, rfl⟩ := List.mem_map.mp hn
  obtain ⟨u, hu, hpath⟩ := (hsorts.mem_iff v).mp hv
  obtain ⟨root, hroot, m, hm, rfl⟩ := Graph.mem_rootSteps.mp hu
  exact ⟨root, (List.mem_filter.mp hroot).1, m, hm, (Visit.needs_of_path hpath).1⟩

/-! ## §2. Deep traversals -/

/-- Follows every input. -/
abbrev followAll : Node → InputFilter := fun _ => .all

/-- **A deep traversal finds what feeds a node**, and what feeds a subnet as long as subnets
    pass on what they are fed: it comes out where it finds the inputs of the subnet. -/
theorem Visit.follows_of_needs :
    ∀ {g : Graph}, g.Everywhere Graph.PassesOn → ∀ {v : Visit} {m : Node}, v.graph = g →
      v.node ∈ g.nodes → g.Needs v.node m →
        ReflTransGen (Visit.Follows .deep followAll) v { v with node := m } := by
  intro g
  induction g using Graph.network_induction with
  | step g ih =>
    rintro hg v m rfl hv hneeds
    have hneeds' := hneeds
    obtain ⟨input, hinput, c, hc, hm⟩ := hneeds'
    have hfed : v.FedBy followAll c := ⟨input, hinput, rfl, hc⟩
    by_cases hsubnet : ∃ s, v.node.kind = .subnet s
    · obtain ⟨s, hk⟩ := hsubnet
      obtain ⟨output, source, ho, hsource, hpath⟩ := hg.here v.node hv s m hk hneeds
      have hnests : s.network.Nests v.graph := ⟨v.node, hv, s, hk, rfl⟩
      have houtput := Subnet.mem_of_outputNode? ho
      -- inside, the way from the outputs to the inputs of the subnet is found step by step
      have hinside : ∀ node, ReflTransGen s.network.Needs output node →
          ReflTransGen (Visit.Follows .deep followAll) (v.inside s output) (v.inside s node) := by
        intro node hnode
        induction hnode with
        | refl => exact .refl
        | tail hfront hstep ihpath =>
          have hmem := Graph.mem_of_needs houtput hfront
          exact ihpath.trans (ih _ hnests (hg.inside hnests) (v := v.inside s _) rfl hmem hstep)
      have hleave : (v.inside s source).Reads .deep (Visit.ofFrame
          { graph := v.graph, path := v.path, subnet := v.node } v.frames) := .leave rfl hsource rfl
      exact .head (.enter rfl hk ho) ((hinside source hpath).tail (.input hleave hfed hm))
    · have hown : v.Reads .deep v := by
        refine .own (.inr ⟨fun s hk => hsubnet ⟨s, hk⟩, fun hk => ?_⟩)
        -- what offers the inputs of a subnet has none itself
        have hnone : v.node.inputNames = [] := by
          cases hkind : v.node.kind <;> rw [hkind] at hk <;>
            simp [Node.inputNames, Node.inputs, Kind.inputs, Kind.isSubnetInput, hkind] at hk ⊢
        rw [hnone] at hinput
        cases hinput
      exact .single (.input hown hfed hm)

/-! ## §3. Networks inside -/

theorem Node.depth_lt_depths {s : Subnet} (hk : n.kind = .subnet s) :
    ∀ {ns : List Node}, n ∈ ns → s.network.depth < Node.depths ns
  | { id, name, kind, dirty, error } :: ns, hn => by
    rcases List.mem_cons.mp hn with rfl | hn
    · simp only at hk
      subst hk
      obtain ⟨inputs, outputs, block, network⟩ := s
      rw [Node.depths]
      exact Nat.lt_of_lt_of_le (Nat.lt_succ_self _) (Nat.le_max_left _ _)
    · have hrest := Node.depth_lt_depths hk hn
      cases kind with
      | subnet t =>
        obtain ⟨inputs, outputs, block, network⟩ := t
        rw [Node.depths]
        exact Nat.lt_of_lt_of_le hrest (Nat.le_max_right _ _)
      | _ =>
        simp only [Node.depths]
        exact hrest

namespace Graph

variable {inner : Graph}

theorem depth_lt_of_nests (h : inner.Nests g) : inner.depth < g.depth := by
  obtain ⟨n, hn, s, hk, rfl⟩ := h
  obtain ⟨name, nodes, connections, version, error⟩ := g
  rw [Graph.depth]
  exact Node.depth_lt_depths hk hn

/-- The network of a node that is found is one of the hierarchy. -/
theorem Located.within (h : g.Located path v) :
    ReflTransGen Graph.Nests v.graph g ∧ v.node ∈ v.graph.nodes := by
  induction h with
  | top hn => exact ⟨.refl, hn⟩
  | inside hv hs hn ih => exact ⟨.head ⟨_, ih.2, _, hs, rfl⟩ ih.1, hn⟩

theorem sublist_ids_within (h : ReflTransGen Graph.Nests inner g) : inner.ids.Sublist g.ids := by
  induction h using ReflTransGen.head_induction_on with
  | refl => exact .refl _
  | head hnests _ ih => exact (sublist_ids_of_nests hnests).trans ih

theorem nodup_ids_within (h : ReflTransGen Graph.Nests inner g) (hids : g.ids.Nodup) :
    inner.ids.Nodup :=
  (sublist_ids_within h).nodup hids

theorem depth_le_of_within (h : ReflTransGen Graph.Nests inner g) : inner.depth ≤ g.depth := by
  induction h using ReflTransGen.head_induction_on with
  | refl => exact Nat.le_refl _
  | head hnests _ ih => exact Nat.le_trans (Nat.le_of_lt (depth_lt_of_nests hnests)) ih

theorem Reaches.trans (h : g.Reaches path .deep followAll roots v)
    (hpath : ReflTransGen (Visit.Follows .deep followAll) v w) :
    g.Reaches path .deep followAll roots w := by
  obtain ⟨u, hu, hv⟩ := h
  exact ⟨u, hu, hv.trans hpath⟩

theorem reaches_of_root {root : NodeId} (hroot : root ∈ roots) (hn : g.node? root = some n) :
    g.Reaches path .deep followAll roots { graph := g, path, node := n } :=
  ⟨_, Graph.mem_rootSteps.mpr ⟨root, hroot, n, hn, rfl⟩, .refl⟩

theorem Reaches.feed (hg : g.Everywhere Graph.PassesOn)
    (h : g.Reaches path .deep followAll roots v) (hneeds : v.graph.Needs v.node m) :
    g.Reaches path .deep followAll roots { v with node := m } := by
  obtain ⟨hwithin, hv⟩ := h.located.within
  have hinner : v.graph.Everywhere Graph.PassesOn :=
    fun network hnetwork => hg network (hnetwork.trans hwithin)
  exact h.trans (Visit.follows_of_needs hinner rfl hv hneeds)

theorem Reaches.feeds (hg : g.Everywhere Graph.PassesOn)
    (h : g.Reaches path .deep followAll roots v) (hneeds : ReflTransGen v.graph.Needs v.node m) :
    g.Reaches path .deep followAll roots { v with node := m } := by
  induction hneeds with
  | refl => exact h
  | @tail n _ _ hstep ih => exact Reaches.feed (v := { v with node := n }) hg ih hstep

end Graph

/-! ## §4. What a collection finds -/

/-- The nodes that a collection finds: those that a deep traversal reaches, and what is found
    in the same way inside each subnet among them, from the nodes that act there. -/
inductive Graph.Gathers : Graph → String → List NodeId → Visit → Prop where
  | reached {g : Graph} {path : String} {roots : List NodeId} {v : Visit}
      (h : g.Reaches path .deep followAll roots v) : Graph.Gathers g path roots v
  | acting {g : Graph} {path : String} {roots : List NodeId} {u v : Visit} {s : Subnet}
      (hu : g.Reaches path .deep followAll roots u) (hk : u.node.kind = .subnet s)
      (hv : Graph.Gathers s.network (u.path ++ "/" ++ u.node.name) s.network.exports v) :
      Graph.Gathers g path roots v

namespace Graph.Gathers

variable {s : Subnet}

theorem roots_ne_nil (h : g.Gathers path roots v) : roots ≠ [] := by
  have hreach : ∀ {u}, g.Reaches path .deep followAll roots u → roots ≠ [] := by
    rintro u ⟨_, hu, _⟩ rfl
    obtain ⟨_, hroot, _⟩ := Graph.mem_rootSteps.mp hu
    cases hroot
  cases h with
  | reached h => exact hreach h
  | acting hu _ _ => exact hreach hu

/-- What feeds a node that is found is found. -/
theorem feed (hg : g.Everywhere Graph.PassesOn) (h : g.Gathers path roots v)
    (hneeds : v.graph.Needs v.node m) : g.Gathers path roots { v with node := m } := by
  induction h with
  | reached h => exact .reached (h.feed hg hneeds)
  | acting hu hk _ ih =>
    obtain ⟨hwithin, hmem⟩ := hu.located.within
    -- the network inside is one of the hierarchy, so it passes on what it is fed, too
    have hnests : ReflTransGen Graph.Nests _ _ := .head ⟨_, hmem, _, hk, rfl⟩ hwithin
    have hinner := ih (fun network hnetwork => hg network (hnetwork.trans hnests)) hneeds
    exact .acting hu hk hinner

/-- So is what collects the outputs of a subnet that is found. -/
theorem enter (h : g.Gathers path roots v) (hk : v.node.kind = .subnet s)
    (ho : s.outputNode? = some n) : g.Gathers path roots (v.inside s n) := by
  induction h with
  | reached h => exact .reached (h.trans (.single (.enter rfl hk ho)))
  | acting hu hsubnet _ ih => exact .acting hu hsubnet (ih hk)

/-- And so are the nodes that act in it. -/
theorem act (h : g.Gathers path roots v) (hk : v.node.kind = .subnet s) {root : NodeId}
    (hroot : root ∈ s.network.exports) (hn : s.network.node? root = some n) :
    g.Gathers path roots
      { graph := s.network, path := v.path ++ "/" ++ v.node.name, node := n } := by
  induction h with
  | reached h => exact .acting h hk (.reached (Graph.reaches_of_root hroot hn))
  | acting hu hsubnet _ ih => exact .acting hu hsubnet (ih hk)

end Graph.Gathers

/-! ## §5. Stages come to nothing else -/

variable {table : Allocations} {context : Context} {stage : Stage} {scope : Scope} {s : Site}

/-- **A collection finds whatever a stage comes to**, if it finds the roots of the stage. -/
theorem Graph.Meets.gathered (hg : g.Everywhere Graph.PassesOn)
    {network : Graph} {starts : List NodeId}
    (h : network.Meets (.particles table) context stage scope starts s) :
    network.ids.Nodup →
      (∀ root ∈ starts, ∀ n, network.node? root = some n →
        ∃ v, g.Gathers path roots v ∧ v.graph = network ∧ v.node = n) →
      ∃ v, g.Gathers path roots v ∧ v.graph = s.graph ∧ v.node = s.node := by
  -- what a collection finds in a network is closed under what feeds it
  have hfeed : ∀ {network : Graph} {m n : Node}, ReflTransGen network.Needs m n →
      (∃ v, g.Gathers path roots v ∧ v.graph = network ∧ v.node = m) →
        ∃ v, g.Gathers path roots v ∧ v.graph = network ∧ v.node = n := by
    intro network m n hneeds hm
    induction hneeds with
    | refl => exact hm
    | tail _ hstep ih =>
      obtain ⟨v, hv, rfl, rfl⟩ := ih
      exact ⟨_, hv.feed hg hstep, rfl, rfl⟩
  induction h with
  | here horder hn _ =>
    intro hunique hstarts
    obtain ⟨root, hroot, m, hm, hneeds⟩ := Backend.needed_of_stageOrder hunique horder hn
    exact hfeed hneeds (hstarts root hroot m hm)
  | @inside scope starts network order n output subnet s horder hn hk ho _ ih =>
    intro hunique hstarts
    obtain ⟨root, hroot, m, hm, hneeds⟩ := Backend.needed_of_stageOrder hunique horder hn
    obtain ⟨v, hv, rfl, rfl⟩ := hfeed hneeds (hstarts root hroot m hm)
    have hmem : v.node ∈ v.graph.nodes := Graph.mem_of_needs (Graph.mem_of_node? hm) hneeds
    have hinner : subnet.network.ids.Nodup := Graph.nodup_ids_of_nests ⟨_, hmem, _, hk, rfl⟩ hunique
    refine ih hinner fun root hroot inner hnode => ?_
    rcases List.mem_cons.mp hroot with rfl | hroot
    · -- the identity of what collects the outputs is its own
      have hfirst : subnet.network.Located path { graph := subnet.network, path, node := inner } :=
        .top (Graph.mem_of_node? hnode)
      have hsecond :
          subnet.network.Located path { graph := subnet.network, path, node := output } :=
        .top (Subnet.mem_of_outputNode? ho)
      have hsame := hfirst.eq_of_id hinner hsecond (Graph.id_of_node? hnode)
      have houtput : inner = output := congrArg Visit.node hsame
      subst houtput
      exact ⟨_, hv.enter hk ho, rfl, rfl⟩
    · exact ⟨_, hv.act hk hroot hnode, rfl, rfl⟩

/-! ## §6. What is taken down -/

namespace Particles

/-- What the network of a subnet asks for, with as many levels left. -/
def requestsInside :
    Nat → Graph → String → List NodeId → Except CompileError (List AttributeRequest)
  | 0 => fun _ _ _ => .ok []
  | levels + 1 => collectRequests levels

theorem collectRequests_eq (levels : Nat) (g : Graph) (path : String) (roots : List NodeId) :
    collectRequests levels g path roots = (do
      let reached ← g.traverse path .deep followAll roots
      return (← reached.ordered.mapM (requestsOf (requestsInside levels) g)).flatten) := by
  cases levels <;> rfl

variable {levels : Nat} {requests : List AttributeRequest}

/-- What each node that was listed asks for is taken down. -/
theorem exists_listed_of_collectRequests (h : collectRequests levels g path roots = .ok requests) :
    ∃ t, g.traverse path .deep followAll roots = .ok t ∧ ∀ r ∈ t.ordered,
      ∃ own, requestsOf (requestsInside levels) g r = .ok own ∧ own ⊆ requests := by
  rw [collectRequests_eq] at h
  obtain ⟨t, ht, h⟩ := bind_eq_ok.mp h
  obtain ⟨lists, hlists, h⟩ := bind_eq_ok.mp h
  obtain rfl := pure_eq_ok.mp h
  refine ⟨t, ht, fun r hr => ?_⟩
  obtain ⟨own, hown, heq⟩ := exists_mem_of_mapM hlists r hr
  exact ⟨own, heq, fun ask hask => List.mem_flatten.mpr ⟨own, hown, hask⟩⟩

/-- What a node that is reached asks for is taken down. -/
theorem requestsOf_of_reaches (hids : g.ids.Nodup)
    (h : collectRequests levels g path roots = .ok requests)
    (hv : g.Reaches path .deep followAll roots v) :
    ∃ own, requestsOf (requestsInside levels) g v.reached = .ok own ∧ own ⊆ requests := by
  obtain ⟨t, ht, hlisted⟩ := exists_listed_of_collectRequests h
  obtain ⟨visits, hsorts⟩ := Graph.exists_sorts_of_traverse hids ht
  have hordered : v.reached ∈ t.ordered := by
    rw [hsorts.ordered]
    exact List.mem_map_of_mem ((hsorts.mem_iff v).mpr hv)
  exact hlisted _ hordered

/-- **An attribute that is found is taken down** with its type. -/
theorem request_of_gathers {name : String} {type : PortType} (hv : g.Gathers path roots v) :
    ∀ {levels : Nat} {requests : List AttributeRequest}, g.ids.Nodup → g.depth ≤ levels →
      collectRequests levels g path roots = .ok requests → v.node.kind = .attribute name type →
        ∃ r ∈ requests, r.name = name ∧ r.type = type := by
  induction hv with
  | reached hv =>
    intro levels requests hids _ h hk
    obtain ⟨own, hown, hsub⟩ := requestsOf_of_reaches hids h hv
    unfold requestsOf Visit.reached at hown
    simp only [hk] at hown
    cases hown
    exact ⟨_, hsub List.mem_cons_self, rfl, rfl⟩
  | @acting g path roots u v subnet hu hk hv ih =>
    intro levels requests hids hdepth h hattribute
    obtain ⟨own, hown, hsub⟩ := requestsOf_of_reaches hids h hu
    obtain ⟨hwithin, hmem⟩ := hu.located.within
    have hnests : subnet.network.Nests u.graph := ⟨_, hmem, _, hk, rfl⟩
    have hinner : subnet.network.ids.Nodup :=
      Graph.nodup_ids_of_nests hnests (Graph.nodup_ids_within hwithin hids)
    have hlt := Graph.depth_lt_of_nests hnests
    have hle := Graph.depth_le_of_within hwithin
    -- a network inside is less deep, so there is a level left for it
    obtain ⟨levels, rfl⟩ : ∃ rest, levels = rest + 1 := ⟨levels - 1, by omega⟩
    unfold requestsOf Visit.reached at hown
    simp only [hk] at hown
    rw [if_neg (by simpa using hv.roots_ne_nil)] at hown
    obtain ⟨r, hr, hname, htype⟩ := ih hinner (by omega) hown hattribute
    exact ⟨r, hsub hr, hname, htype⟩

end Particles

end ShaderFlow
