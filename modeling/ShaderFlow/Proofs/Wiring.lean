/-
  ShaderFlow.Proofs.Wiring — networks that fit together.

  Connections join existing outputs to inputs, and what stands for the boundary inside a
  subnet has the ports that the subnet declares.  Validated edits and the way in which subnets
  are built see to that; connections that are inserted without validation need not.

  Main definitions:
    * `Graph.Everywhere` — what holds of every network of a hierarchy;
    * `Graph.Wired`      — a network whose connections leave outputs that are there;
    * `Subnet.Mirrored`  — a subnet whose two sides agree;
    * `Graph.Regular`    — a network that fits together;
    * `Node.acts`        — whether a node acts without feeding the output node.
-/

import ShaderFlow.Compile.SideRoots
import ShaderFlow.Proofs.DependencyOrder

namespace ShaderFlow

open Relation

/-! ## §1. Every network of a hierarchy -/

/-- What holds of a graph and of all networks inside it. -/
def Graph.Everywhere (P : Graph → Prop) (g : Graph) : Prop :=
  ∀ inner : Graph, ReflTransGen Graph.Nests inner g → P inner

namespace Graph.Everywhere

variable {P : Graph → Prop} {g : Graph}

theorem here (h : g.Everywhere P) : P g := h g .refl

theorem inside (h : g.Everywhere P) {inner : Graph} (hinner : inner.Nests g) :
    inner.Everywhere P :=
  fun network hnetwork => h network (hnetwork.tail hinner)

theorem intro (hhere : P g) (hinside : ∀ inner : Graph, inner.Nests g → inner.Everywhere P) :
    g.Everywhere P := by
  intro network hnetwork
  rcases ReflTransGen.cases_tail hnetwork with rfl | ⟨inner, hnetwork, hinner⟩
  · exact hhere
  · exact hinside inner hinner network hnetwork

theorem mono {Q : Graph → Prop} (h : g.Everywhere P) (himp : ∀ network, P network → Q network) :
    g.Everywhere Q :=
  fun network hnetwork => himp network (h network hnetwork)

end Graph.Everywhere

/-! ## §2. Networks that fit together -/

/-- A subnet whose two sides agree: what stands for its boundary inside has the ports that it
    declares, and its condition is one of its inputs. -/
structure Subnet.Mirrored (s : Subnet) : Prop where
  inputs : ∀ n ∈ s.network.nodes, ∀ ports, n.kind = .subnetInput ports → ports = s.inputs
  outputs : ∀ n ∈ s.network.nodes, ∀ ports, n.kind = .subnetOutput ports → ports = s.outputs
  condition : ∀ name, s.block = .conditional name → name ∈ s.inputs.map (·.name)

theorem Kind.exists_of_isSubnetInput {k : Kind} (h : k.isSubnetInput = true) :
    ∃ ports, k = .subnetInput ports := by
  cases k with
  | subnetInput ports => exact ⟨ports, rfl⟩
  | _ => cases h

theorem Kind.exists_of_isSubnetOutput {k : Kind} (h : k.isSubnetOutput = true) :
    ∃ ports, k = .subnetOutput ports := by
  cases k with
  | subnetOutput ports => exact ⟨ports, rfl⟩
  | _ => cases h

namespace Subnet.Mirrored

variable {s : Subnet} {n : Node}

/-- What offers the inputs of a subnet inside has them as its outputs. -/
theorem outputs_eq (h : s.Mirrored) (hn : n ∈ s.network.nodes) (hk : n.kind.isSubnetInput = true) :
    n.outputs = s.inputs.map PortSpec.toOutput := by
  obtain ⟨ports, hkind⟩ := Kind.exists_of_isSubnetInput hk
  rw [Node.outputs, hkind, Kind.outputs, h.inputs n hn ports hkind]

/-- What collects the outputs of a subnet inside has them as its inputs. -/
theorem inputs_eq (h : s.Mirrored) (hn : n ∈ s.network.nodes) (hk : n.kind.isSubnetOutput = true) :
    n.inputs = s.outputs.map PortSpec.toInput := by
  obtain ⟨ports, hkind⟩ := Kind.exists_of_isSubnetOutput hk
  rw [Node.inputs, hkind, Kind.inputs, h.outputs n hn ports hkind]

theorem outputs_name_eq (h : s.Mirrored) (hn : n ∈ s.network.nodes)
    (hk : n.kind.isSubnetInput = true) : n.outputs.map (·.name) = s.inputs.map (·.name) := by
  rw [h.outputs_eq hn hk, List.map_map]
  rfl

theorem inputNames_eq (h : s.Mirrored) (hn : n ∈ s.network.nodes)
    (hk : n.kind.isSubnetOutput = true) : n.inputNames = s.outputs.map (·.name) := by
  rw [Node.inputNames, h.inputs_eq hn hk, List.map_map]
  rfl

end Subnet.Mirrored

/-- A network whose connections leave outputs that are there. -/
structure Graph.Wired (g : Graph) : Prop where
  ids : (g.nodes.map (·.id)).Nodup
  wired : ∀ c ∈ g.connections, ∀ source ∈ g.node? c.source,
    c.output ∈ source.outputs.map (·.name)

/-- A network that fits together. -/
structure Graph.Regular (g : Graph) : Prop where
  /-- Nodes are kept by identity. -/
  ids : (g.nodes.map (·.id)).Nodup
  /-- A connection leaves an output of its source. -/
  wired : ∀ c ∈ g.connections, ∀ source ∈ g.node? c.source,
    c.output ∈ source.outputs.map (·.name)
  mirrored : ∀ n ∈ g.nodes, ∀ s, n.kind = .subnet s → s.Mirrored

/-- Where identities differ, each node is found by its own. -/
theorem Graph.node?_of_mem {g : Graph} (hids : (g.nodes.map (·.id)).Nodup) {n : Node}
    (hn : n ∈ g.nodes) : g.node? n.id = some n := by
  rw [Graph.node?, List.find?_eq_some_iff_append]
  obtain ⟨front, back, hsplit⟩ := List.append_of_mem hn
  refine ⟨by simp, front, back, hsplit, ?_⟩
  intro m hm
  rw [hsplit, List.map_append, List.nodup_append] at hids
  have hne := hids.2.2 m.id (List.mem_map_of_mem hm) n.id (by simp)
  simpa using hne

theorem Graph.Regular.toWired {g : Graph} (h : g.Regular) : g.Wired := ⟨h.ids, h.wired⟩

theorem Graph.Regular.node?_of_mem {g : Graph} (h : g.Regular) {n : Node} (hn : n ∈ g.nodes) :
    g.node? n.id = some n :=
  Graph.node?_of_mem h.ids hn

/-- What feeds an input ends there. -/
theorem Graph.ends_of_inputSource? {g : Graph} {id : NodeId} {input : String} {c : Connection}
    (h : g.inputSource? id input = some c) : c.target = id ∧ c.input = input := by
  simpa using List.find?_some h

theorem Graph.mem_of_inputSource? {g : Graph} {id : NodeId} {input : String} {c : Connection}
    (h : g.inputSource? id input = some c) : c ∈ g.connections :=
  List.mem_of_find?_eq_some h

/-- The output that feeds an input exists, and feeds something. -/
theorem Graph.Wired.feeds {g : Graph} (h : g.Wired) {id : NodeId} {input : String}
    {c : Connection} {source : Node} (hc : g.inputSource? id input = some c)
    (hsource : g.node? c.source = some source) :
    c.output ∈ source.outputs.map (·.name) ∧
      g.isOutputConnected source.id c.output = true := by
  have hmem := Graph.mem_of_inputSource? hc
  refine ⟨h.wired c hmem source hsource, ?_⟩
  rw [Graph.isOutputConnected, List.any_eq_true]
  exact ⟨c, hmem, by simp [Graph.id_of_node? hsource]⟩

theorem Graph.Regular.feeds {g : Graph} (h : g.Regular) {id : NodeId} {input : String}
    {c : Connection} {source : Node} (hc : g.inputSource? id input = some c)
    (hsource : g.node? c.source = some source) :
    c.output ∈ source.outputs.map (·.name) ∧
      g.isOutputConnected source.id c.output = true :=
  h.toWired.feeds hc hsource

/-- A port that is among the ports of a node is found by its name. -/
theorem Node.output?_of_mem {n : Node} {output : String} (h : output ∈ n.outputs.map (·.name)) :
    ∃ port, n.output? output = some port := by
  obtain ⟨port, hport, rfl⟩ := List.mem_map.mp h
  rw [← Option.isSome_iff_exists, Node.output?, List.find?_isSome]
  exact ⟨port, hport, by simp⟩

theorem Node.input?_of_mem {n : Node} {input : String} (h : input ∈ n.inputNames) :
    ∃ port, n.input? input = some port := by
  obtain ⟨port, hport, rfl⟩ := List.mem_map.mp h
  rw [← Option.isSome_iff_exists, Node.input?, List.find?_isSome]
  exact ⟨port, hport, by simp⟩

/-! ## §3. Nodes that act by themselves -/

/-- Whether a node of a network acts by itself: its kind writes and the given input is fed, or it
    holds such a node. -/
def Node.acts (writes : Kind → Bool) (input : String) (g : Graph) (n : Node) : Bool :=
  match n.kind with
  | .subnet s => !(s.network.sideRoots writes input).isEmpty
  | kind => writes kind && (g.inputSource? n.id input).isSome

theorem Node.acts_of_leaf {writes : Kind → Bool} {input : String} {g : Graph} {n : Node}
    (hleaf : ∀ s, n.kind ≠ .subnet s) :
    n.acts writes input g = (writes n.kind && (g.inputSource? n.id input).isSome) := by
  unfold Node.acts
  split
  next s hk => exact absurd hk (hleaf s)
  next => rfl

theorem Node.sideRootsAmong_eq (writes : Kind → Bool) (input : String) (g : Graph)
    (ns : List Node) :
    Node.sideRootsAmong writes input g ns =
      (ns.filter (Node.acts writes input g)).map (·.id) := by
  induction ns with
  | nil => rw [Node.sideRootsAmong, List.filter_nil, List.map_nil]
  | cons n ns ih =>
    obtain ⟨id, name, kind, dirty, error⟩ := n
    have hcons : ∀ (acts : Bool) (n : Node) (rest : List Node),
        (if acts then [n.id] else []) ++ rest.map (·.id) =
          (if acts then n :: rest else rest).map (·.id) := by
      intro acts n rest
      cases acts <;> rfl
    rw [List.filter_cons, ← hcons, ← ih]
    cases kind with
    | subnet s =>
      obtain ⟨inputs, outputs, block, network⟩ := s
      cases hnone : (network.sideRoots writes input).isEmpty <;>
        simp [Node.sideRootsAmong, Node.acts, hnone]
    | _ =>
      simp only [Node.sideRootsAmong, Node.acts]
      rfl

/-- **The nodes that act by themselves**, in the order of the network. -/
theorem Graph.sideRoots_eq (writes : Kind → Bool) (input : String) (g : Graph) :
    g.sideRoots writes input = (g.nodes.filter (Node.acts writes input g)).map (·.id) := by
  obtain ⟨name, nodes, connections, version, error⟩ := g
  rw [Graph.sideRoots]
  exact Node.sideRootsAmong_eq writes input _ nodes

theorem Graph.mem_sideRoots {writes : Kind → Bool} {input : String} {g : Graph} {id : NodeId} :
    id ∈ g.sideRoots writes input ↔
      ∃ n ∈ g.nodes, n.acts writes input g = true ∧ n.id = id := by
  rw [Graph.sideRoots_eq, List.mem_map]
  simp only [List.mem_filter, and_assoc]

/-- A node that acts has a kind that writes, or holds a node that acts. -/
theorem Node.acts_cases {writes : Kind → Bool} {input : String} {g : Graph} {n : Node}
    (h : n.acts writes input g = true) :
    (∃ s, n.kind = .subnet s ∧ s.network.sideRoots writes input ≠ []) ∨
      ((∀ s, n.kind ≠ .subnet s) ∧ writes n.kind = true ∧
        (g.inputSource? n.id input).isSome = true) := by
  unfold Node.acts at h
  split at h
  next s hk =>
    left
    refine ⟨s, hk, fun hnil => ?_⟩
    rw [hnil] at h
    cases h
  next hleaf =>
    rw [Bool.and_eq_true] at h
    exact .inr ⟨fun s hk => hleaf s hk, h⟩

end ShaderFlow
