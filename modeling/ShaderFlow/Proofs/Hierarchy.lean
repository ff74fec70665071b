/-
  ShaderFlow.Proofs.Hierarchy — where the nodes of a hierarchy stand.

  A hierarchy is a graph with the networks of its subnets, at every depth.  A node stands in
  one network, which has a path and the subnets around it; both follow from how the subnets
  nest and from nothing else.

  Main definitions:
    * `Graph.ids`     — the identities of all nodes of a hierarchy, in depth-first order;
    * `Graph.places`  — the same nodes with the places where they stand;
    * `Graph.Located` — a place, said by the rules of nesting.

  Main statements:
    * `Graph.network_induction` — what passes from the networks inside to the graph around
      them holds of every graph;
    * `Located.eq_of_id` — where no two nodes share an identity, the identity of a node says
      where it stands.
-/

import Mathlib.Data.List.Nodup
import ShaderFlow.Compile.Traversal

namespace ShaderFlow

/-! ## §1. Induction over nested networks -/

/-- The networks of a graph's own subnets. -/
def Graph.Nests (inner g : Graph) : Prop :=
  ∃ n ∈ g.nodes, ∃ s : Subnet, n.kind = .subnet s ∧ s.network = inner

theorem Graph.sizeOf_lt_of_nests {inner g : Graph} (h : inner.Nests g) :
    sizeOf inner < sizeOf g := by
  obtain ⟨n, hn, s, hs, rfl⟩ := h
  obtain ⟨name, nodes, connections, version, error⟩ := g
  obtain ⟨id, nodeName, kind, dirty, nodeError⟩ := n
  obtain ⟨inputs, outputs, block, network⟩ := s
  have hlist : sizeOf (Node.mk id nodeName kind dirty nodeError) < sizeOf nodes :=
    List.sizeOf_lt_of_mem hn
  simp only at hs
  subst hs
  simp only [Node.mk.sizeOf_spec, Kind.subnet.sizeOf_spec, Subnet.mk.sizeOf_spec] at hlist
  simp only [Graph.mk.sizeOf_spec]
  omega

/-- **Induction over nesting.**  What holds of a graph as soon as it holds of the networks of
    its subnets holds of every graph. -/
theorem Graph.network_induction {P : Graph → Prop}
    (step : ∀ g : Graph, (∀ inner : Graph, inner.Nests g → P inner) → P g) : ∀ g, P g := by
  intro g
  induction h : sizeOf g using Nat.strongRecOn generalizing g with
  | ind size ih =>
    refine step g fun inner hinner => ?_
    have hlt := Graph.sizeOf_lt_of_nests hinner
    exact ih (sizeOf inner) (by omega) inner rfl

/-! ## §2. All nodes of a hierarchy -/

mutual

/-- The identities of the nodes of a hierarchy: each node before the nodes of its network. -/
def Graph.ids : Graph → List NodeId
  | { nodes, .. } => Node.idsAmong nodes

/-- The identities of the nodes of a list and of their networks. -/
def Node.idsAmong : List Node → List NodeId
  | [] => []
  | { id, kind, .. } :: ns => id :: (kind.ids ++ Node.idsAmong ns)

/-- The identities of the nodes of the network of a subnet. -/
def Kind.ids : Kind → List NodeId
  | .subnet { network, .. } => network.ids
  | _ => []

end

/-- The identities of a hierarchy, node by node. -/
theorem Graph.ids_eq (g : Graph) : g.ids = g.nodes.flatMap fun n => n.id :: n.kind.ids := by
  have hnodes : ∀ ns : List Node, Node.idsAmong ns = ns.flatMap fun n => n.id :: n.kind.ids := by
    intro ns
    induction ns with
    | nil => rw [Node.idsAmong, List.flatMap_nil]
    | cons n ns ih =>
      cases n
      rw [Node.idsAmong, List.flatMap_cons, ih, List.cons_append]
  cases g
  rw [Graph.ids, hnodes]

theorem Kind.ids_subnet (s : Subnet) : (Kind.subnet s).ids = s.network.ids := by
  cases s
  rw [Kind.ids]

theorem Node.sublist_idsAmong {s : Subnet} {n : Node} (hk : n.kind = .subnet s) :
    ∀ {ns : List Node}, n ∈ ns → s.network.ids.Sublist (Node.idsAmong ns)
  | { id, name, kind, dirty, error } :: ns, hn => by
    rw [Node.idsAmong]
    refine List.Sublist.cons _ ?_
    rcases List.mem_cons.mp hn with rfl | hn
    · simp only at hk
      subst hk
      obtain ⟨inputs, outputs, block, network⟩ := s
      rw [Kind.ids]
      exact List.sublist_append_left _ _
    · exact (Node.sublist_idsAmong hk hn).trans (List.sublist_append_right _ _)

theorem Node.map_id_sublist (ns : List Node) : (ns.map (·.id)).Sublist (Node.idsAmong ns) := by
  induction ns with
  | nil => exact List.nil_sublist _
  | cons n ns ih =>
    obtain ⟨id, name, kind, dirty, error⟩ := n
    rw [Node.idsAmong]
    exact (ih.trans (List.sublist_append_right _ _)).cons_cons _

theorem Node.id_mem_idsAmong {ns : List Node} {n : Node} (hn : n ∈ ns) : n.id ∈ Node.idsAmong ns :=
  (Node.map_id_sublist ns).subset (List.mem_map_of_mem hn)

theorem Graph.sublist_ids_of_nests {inner g : Graph} (h : inner.Nests g) :
    inner.ids.Sublist g.ids := by
  obtain ⟨n, hn, s, hk, rfl⟩ := h
  obtain ⟨name, nodes, connections, version, error⟩ := g
  rw [Graph.ids]
  exact Node.sublist_idsAmong hk hn

theorem Graph.nodup_ids_of_nests {inner g : Graph} (h : inner.Nests g) (hids : g.ids.Nodup) :
    inner.ids.Nodup :=
  (Graph.sublist_ids_of_nests h).nodup hids

theorem Graph.mem_ids_of_mem {g : Graph} {n : Node} (hn : n ∈ g.nodes) : n.id ∈ g.ids := by
  obtain ⟨name, nodes, connections, version, error⟩ := g
  rw [Graph.ids]
  exact Node.id_mem_idsAmong hn

/-- The nodes of a network differ, where those of its hierarchy do. -/
theorem Graph.nodup_of_ids {g : Graph} (hids : g.ids.Nodup) : (g.nodes.map (·.id)).Nodup := by
  obtain ⟨name, nodes, connections, version, error⟩ := g
  rw [Graph.ids] at hids
  exact (Node.map_id_sublist nodes).nodup hids

mutual

/-- The nodes of a hierarchy where they stand: each in its network, with the path of that
    network and the subnets around it. -/
def Graph.places (path : String) (frames : List Frame) : Graph → List Visit
  | { name, nodes, connections, version, error } =>
    Node.placesAmong { name, nodes, connections, version, error } path frames nodes

/-- The places of some of the nodes of the network `g`, and those inside them. -/
def Node.placesAmong (g : Graph) (path : String) (frames : List Frame) : List Node → List Visit
  | [] => []
  | { id, name, kind, dirty, error } :: ns =>
    let n : Node := { id, name, kind, dirty, error }
    { graph := g, path, node := n, frames } ::
      (kind.places (NodeRef.join path name) ({ graph := g, path, subnet := n } :: frames) ++
        Node.placesAmong g path frames ns)

/-- The places inside a node of the given kind. -/
def Kind.places (path : String) (frames : List Frame) : Kind → List Visit
  | .subnet { network, .. } => network.places path frames
  | _ => []

end

mutual

theorem Graph.map_id_places (path : String) (frames : List Frame) :
    ∀ g : Graph, (g.places path frames).map (·.node.id) = g.ids
  | { name, nodes, connections, version, error } => by
    rw [Graph.places, Graph.ids]
    exact Node.map_id_placesAmong _ path frames nodes

theorem Node.map_id_placesAmong (g : Graph) (path : String) (frames : List Frame) :
    ∀ ns : List Node, (Node.placesAmong g path frames ns).map (·.node.id) = Node.idsAmong ns
  | [] => by rw [Node.placesAmong, Node.idsAmong, List.map_nil]
  | { id, name, kind, dirty, error } :: ns => by
    rw [Node.placesAmong, Node.idsAmong, List.map_cons, List.map_append,
      Kind.map_id_places, Node.map_id_placesAmong g path frames ns]

theorem Kind.map_id_places (path : String) (frames : List Frame) :
    ∀ k : Kind, (k.places path frames).map (·.node.id) = k.ids
  | .subnet { inputs, outputs, block, network } => by
    rw [Kind.places, Kind.ids, Graph.map_id_places path frames network]
  | .constant _ | .param .. | .math .. | .globals | .attribute .. | .varyingWrite ..
  | .varyingRead .. | .function .. | .output _ | .subnetInput _ | .subnetOutput _ => by
    simp [Kind.places, Kind.ids]

end

mutual

theorem Graph.length_ids : ∀ g : Graph, g.ids.length = g.size
  | { name, nodes, connections, version, error } => by
    rw [Graph.ids, Graph.size]
    exact Node.length_idsAmong nodes

theorem Node.length_idsAmong : ∀ ns : List Node, (Node.idsAmong ns).length = Node.sizes ns
  | [] => by rw [Node.idsAmong, Node.sizes, List.length_nil]
  | { id, name, kind, dirty, error } :: ns => by
    rw [Node.idsAmong, List.length_cons, List.length_append, Node.length_idsAmong ns]
    cases kind with
    | subnet s =>
      obtain ⟨inputs, outputs, block, network⟩ := s
      rw [Kind.ids, Graph.length_ids network, Node.sizes]
      omega
    | _ => simp [Kind.ids, Node.sizes, Nat.add_comm]

end

/-! ## §3. Places by the rules of nesting -/

/-- The place of a node in a hierarchy whose outermost network has the given path.  A node of
    the graph stands in no subnet; a node of the network of a subnet stands behind it. -/
inductive Graph.Located (g : Graph) (path : String) : Visit → Prop where
  | top {n : Node} (hn : n ∈ g.nodes) :
      Graph.Located g path { graph := g, path, node := n, frames := [] }
  | inside {v : Visit} {s : Subnet} {n : Node} (hv : Graph.Located g path v)
      (hs : v.node.kind = .subnet s) (hn : n ∈ s.network.nodes) :
      Graph.Located g path
        { graph := s.network
          path := NodeRef.join v.path v.node.name
          node := n
          frames := { graph := v.graph, path := v.path, subnet := v.node } :: v.frames }

/-- A node stands where the other nodes of its network stand. -/
theorem Graph.Located.sibling {g : Graph} {path : String} {v : Visit} {n : Node}
    (h : g.Located path v) (hn : n ∈ v.graph.nodes) : g.Located path { v with node := n } := by
  cases h with
  | top _ => exact .top hn
  | inside hv hs _ => exact .inside hv hs hn

/-- The subnet around a network has a place of its own. -/
theorem Graph.Located.outer {g : Graph} {path : String} {v : Visit} {f : Frame}
    {outer : List Frame} (h : g.Located path v) (hf : v.frames = f :: outer) :
    g.Located path { graph := f.graph, path := f.path, node := f.subnet, frames := outer } := by
  cases h with
  | top _ => simp at hf
  | inside hv hs _ =>
    simp only [List.cons.injEq] at hf
    obtain ⟨rfl, rfl⟩ := hf
    exact hv

/-! ## §4. The two descriptions agree -/

theorem Node.mem_placesAmong_of_mem {g : Graph} {path : String} {frames : List Frame} {n : Node} :
    ∀ {ns : List Node}, n ∈ ns →
      { graph := g, path, node := n, frames } ∈ Node.placesAmong g path frames ns
  | { id, name, kind, dirty, error } :: ns, h => by
    rw [Node.placesAmong]
    rcases List.mem_cons.mp h with rfl | h
    · exact List.mem_cons_self
    · exact List.mem_cons_of_mem _
        (List.mem_append_right _ (Node.mem_placesAmong_of_mem h))

theorem Graph.mem_places_of_mem {g : Graph} {path : String} {frames : List Frame} {n : Node}
    (h : n ∈ g.nodes) : { graph := g, path, node := n, frames } ∈ g.places path frames := by
  obtain ⟨name, nodes, connections, version, error⟩ := g
  rw [Graph.places]
  exact Node.mem_placesAmong_of_mem h

mutual

/-- With a subnet, the nodes of its network are among the places. -/
theorem Graph.mem_places_inside {path : String} {frames : List Frame} {v : Visit} {s : Subnet}
    {n : Node} (hs : v.node.kind = .subnet s) (hn : n ∈ s.network.nodes) :
    ∀ {g : Graph}, v ∈ g.places path frames →
      { graph := s.network
        path := NodeRef.join v.path v.node.name
        node := n
        frames := { graph := v.graph, path := v.path, subnet := v.node } :: v.frames } ∈
          g.places path frames
  | { name, nodes, connections, version, error }, h => by
    rw [Graph.places] at h ⊢
    exact Node.mem_placesAmong_inside hs hn h

theorem Node.mem_placesAmong_inside {g : Graph} {path : String} {frames : List Frame} {v : Visit}
    {s : Subnet} {n : Node} (hs : v.node.kind = .subnet s) (hn : n ∈ s.network.nodes) :
    ∀ {ns : List Node}, v ∈ Node.placesAmong g path frames ns →
      { graph := s.network
        path := NodeRef.join v.path v.node.name
        node := n
        frames := { graph := v.graph, path := v.path, subnet := v.node } :: v.frames } ∈
          Node.placesAmong g path frames ns
  | [], h => by
    rw [Node.placesAmong] at h
    exact absurd h List.not_mem_nil
  | { id, name, kind, dirty, error } :: ns, h => by
    rw [Node.placesAmong] at h ⊢
    refine List.mem_cons_of_mem _ (List.mem_append.mpr ?_)
    rcases List.mem_cons.mp h with rfl | h
    · -- the subnet itself: its network is what `places` goes into next
      simp only at hs
      subst hs
      obtain ⟨inputs, outputs, block, network⟩ := s
      rw [Kind.places]
      exact .inl (Graph.mem_places_of_mem hn)
    · rcases List.mem_append.mp h with h | h
      · exact .inl (Kind.mem_places_inside hs hn h)
      · exact .inr (Node.mem_placesAmong_inside hs hn h)

theorem Kind.mem_places_inside {path : String} {frames : List Frame} {v : Visit} {s : Subnet}
    {n : Node} (hs : v.node.kind = .subnet s) (hn : n ∈ s.network.nodes) :
    ∀ {k : Kind}, v ∈ k.places path frames →
      { graph := s.network
        path := NodeRef.join v.path v.node.name
        node := n
        frames := { graph := v.graph, path := v.path, subnet := v.node } :: v.frames } ∈
          k.places path frames
  | .subnet { inputs, outputs, block, network }, h => by
    rw [Kind.places] at h ⊢
    exact Graph.mem_places_inside hs hn h
  | .constant _, h | .param .., h | .math .., h | .globals, h | .attribute .., h
  | .varyingWrite .., h | .varyingRead .., h | .function .., h | .output _, h
  | .subnetInput _, h | .subnetOutput _, h => by
    simp [Kind.places] at h

end

theorem Graph.Located.mem_places {g : Graph} {path : String} {v : Visit}
    (h : g.Located path v) : v ∈ g.places path [] := by
  induction h with
  | top hn => exact Graph.mem_places_of_mem hn
  | inside _ hs hn ih => exact Graph.mem_places_inside hs hn ih

theorem Graph.Located.id_mem {g : Graph} {path : String} {v : Visit} (h : g.Located path v) :
    v.node.id ∈ g.ids := by
  rw [← Graph.map_id_places path []]
  exact List.mem_map_of_mem h.mem_places

/-- **Identities say places.**  Where no two nodes of a hierarchy share an identity, two
    places of one identity are one place. -/
theorem Graph.Located.eq_of_id {g : Graph} {path : String} {v w : Visit} (hids : g.ids.Nodup)
    (hv : g.Located path v) (hw : g.Located path w) (h : v.node.id = w.node.id) : v = w := by
  rw [← Graph.map_id_places path []] at hids
  exact List.inj_on_of_nodup_map hids hv.mem_places hw.mem_places h

end ShaderFlow
