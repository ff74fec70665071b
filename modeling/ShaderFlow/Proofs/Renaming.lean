/-
  ShaderFlow.Proofs.Renaming — programs do not depend on identities.

  A graph that is loaded again gets new identities, and one that is wired anew stores its
  connections in another order.  Neither shows in a program: nodes are looked up by identity but
  never ordered by it, and what feeds an input is one connection at most wherever it is stored.

  Main definitions:
    * `Graph.Renames` — whether a graph is another one with other identities and its connections
      in another order, at every depth;
    * `Graph.FedOnce` — whether no input is fed twice.

  Main statements:
    * `Graph.Renames.inputSource?` — an input is fed by one connection, wherever it is stored;
    * `Graph.pairing_renamed`      — nodes and their renamed selves match;
    * `Graph.Renames.compiles_alike` — they compile to one program.
-/

import Mathlib.Data.List.Pairwise
import ShaderFlow.Proofs.Simulation

namespace ShaderFlow

variable {ρ : NodeId → NodeId} {g g' : Graph}

/-! ## §1. Graphs with other identities -/

/-- What a connection connects, whatever its own identity. -/
structure Link where
  source : NodeId
  output : String
  target : NodeId
  input : String
deriving DecidableEq

/-- A link between nodes with other identities. -/
def Link.rename (ρ : NodeId → NodeId) (w : Link) : Link :=
  { w with source := ρ w.source, target := ρ w.target }

def Connection.link (c : Connection) : Link := ⟨c.source, c.output, c.target, c.input⟩

/-- What the connections of a network connect, in the order in which they are stored. -/
def Graph.links (g : Graph) : List Link := g.connections.map Connection.link

mutual

/-- **Whether a graph is another one with other identities**, at every depth: networks have the
    same names, their nodes the same names and kinds in one order, and connections that connect
    the same in any order.  Identities of connections, versions and marks do not count. -/
def Graph.Renames (ρ : NodeId → NodeId) : Graph → Graph → Prop
  | { name, nodes, connections, .. }, g' =>
    g'.name = name ∧ Node.RenamesAll ρ nodes g'.nodes ∧
      (connections.map fun c => c.link.rename ρ).Perm g'.links

/-- Whether nodes are others with other identities. -/
def Node.RenamesAll (ρ : NodeId → NodeId) : List Node → List Node → Prop
  | [], [] => True
  | { id, name, kind, .. } :: ns, n' :: ns' =>
    (n'.id = ρ id ∧ n'.name = name ∧ kind.Renames ρ n'.kind) ∧ Node.RenamesAll ρ ns ns'
  | _, _ => False

/-- Whether a kind is another one but for the identities in its network. -/
def Kind.Renames (ρ : NodeId → NodeId) : Kind → Kind → Prop
  | .subnet { inputs, outputs, block, network }, .subnet s' =>
    s'.inputs = inputs ∧ s'.outputs = outputs ∧ s'.block = block ∧ network.Renames ρ s'.network
  | k, k' => k' = k

end

/-- Whether a node is another one but for identities. -/
structure Node.Renames (ρ : NodeId → NodeId) (n n' : Node) : Prop where
  id : n'.id = ρ n.id
  name : n'.name = n.name
  kind : n.kind.Renames ρ n'.kind

/-- Whether a subnet is another one but for identities. -/
structure Subnet.Renames (ρ : NodeId → NodeId) (s s' : Subnet) : Prop where
  inputs : s'.inputs = s.inputs
  outputs : s'.outputs = s.outputs
  block : s'.block = s.block
  network : s.network.Renames ρ s'.network

theorem Node.forall₂_of_renamesAll :
    ∀ {ns ns' : List Node}, Node.RenamesAll ρ ns ns' → List.Forall₂ (Node.Renames ρ) ns ns'
  | [], [], _ => .nil
  | { id, name, kind, dirty, error } :: ns, n' :: ns', h => by
    rw [Node.RenamesAll] at h
    obtain ⟨⟨hid, hname, hkind⟩, hrest⟩ := h
    exact .cons ⟨hid, hname, hkind⟩ (Node.forall₂_of_renamesAll hrest)
  | [], _ :: _, h => by simp [Node.RenamesAll] at h
  | _ :: _, [], h => by simp [Node.RenamesAll] at h

theorem Kind.Renames.cases {k k' : Kind} (h : k.Renames ρ k') :
    ((∀ s, k ≠ .subnet s) ∧ k' = k) ∨
      ∃ s s', k = .subnet s ∧ k' = .subnet s' ∧ s.Renames ρ s' := by
  cases k with
  | subnet s =>
    obtain ⟨inputs, outputs, block, network⟩ := s
    cases k' with
    | subnet s' =>
      rw [Kind.Renames] at h
      obtain ⟨hinputs, houtputs, hblock, hnetwork⟩ := h
      exact .inr ⟨_, s', rfl, rfl, hinputs, houtputs, hblock, hnetwork⟩
    | _ => simp [Kind.Renames] at h
  | _ =>
    left
    refine ⟨nofun, ?_⟩
    rw [Kind.Renames] at h
    · exact h
    · simp

namespace Graph.Renames

variable (h : g.Renames ρ g')
include h

theorem name_eq : g'.name = g.name := by
  cases g
  rw [Graph.Renames] at h
  exact h.1

theorem nodes : List.Forall₂ (Node.Renames ρ) g.nodes g'.nodes := by
  cases g
  rw [Graph.Renames] at h
  exact Node.forall₂_of_renamesAll h.2.1

theorem links : (g.links.map (Link.rename ρ)).Perm g'.links := by
  cases g
  rw [Graph.Renames] at h
  unfold Graph.links
  rw [List.map_map]
  exact h.2.2

end Graph.Renames

/-! ## §2. Looking things up -/

theorem find?_of_perm {α : Type} {p : α → Bool} {l l' : List α} (h : l.Perm l')
    (hone : ∀ a ∈ l, ∀ b ∈ l, p a = true → p b = true → a = b) : l.find? p = l'.find? p := by
  cases hfind : l.find? p with
  | none =>
    rw [eq_comm, List.find?_eq_none]
    exact fun a ha => List.find?_eq_none.mp hfind a (h.mem_iff.mpr ha)
  | some a =>
    have hmem := List.mem_of_find?_eq_some hfind
    have hpa := List.find?_some hfind
    cases hfind' : l'.find? p with
    | none => exact absurd hpa (List.find?_eq_none.mp hfind' a (h.mem_iff.mp hmem))
    | some b =>
      have hb := h.mem_iff.mpr (List.mem_of_find?_eq_some hfind')
      rw [hone a hmem b hb hpa (List.find?_some hfind')]

/-- What is found in one of two lists is found in the other, if they are related element by
    element and agree on what is looked for. -/
theorem rel_find? {α β : Type} {R : α → β → Prop} {p : α → Bool} {q : β → Bool}
    (hpq : ∀ a b, R a b → q b = p a) {l : List α} {l' : List β} (h : List.Forall₂ R l l') :
    Option.Rel R (l.find? p) (l'.find? q) := by
  induction h with
  | nil => exact .none
  | @cons a b l l' hab _ ih =>
    rw [List.find?_cons, List.find?_cons, hpq a b hab]
    cases p a with
    | true => exact .some hab
    | false => exact ih

/-- Whether no input is fed twice. -/
def Graph.FedOnce (g : Graph) : Prop :=
  g.connections.Pairwise fun c d => c.target = d.target → c.input ≠ d.input

instance (g : Graph) : Decidable g.FedOnce :=
  inferInstanceAs (Decidable (g.connections.Pairwise _))

/-- Whether a link ends at an input. -/
def Link.feeds (id : NodeId) (input : String) (w : Link) : Bool :=
  w.target == id && w.input == input

/-- Whether a link begins at an output. -/
def Link.uses (id : NodeId) (output : String) (w : Link) : Bool :=
  w.source == id && w.output == output

theorem Link.feeds_rename (hρ : Function.Injective ρ) (id : NodeId) (input : String) (w : Link) :
    (w.rename ρ).feeds (ρ id) input = w.feeds id input := by
  unfold feeds rename
  simp only
  congr 1
  rw [Bool.eq_iff_iff, beq_iff_eq, beq_iff_eq]
  exact hρ.eq_iff

theorem Link.uses_rename (hρ : Function.Injective ρ) (id : NodeId) (output : String) (w : Link) :
    (w.rename ρ).uses (ρ id) output = w.uses id output := by
  unfold uses rename
  simp only
  congr 1
  rw [Bool.eq_iff_iff, beq_iff_eq, beq_iff_eq]
  exact hρ.eq_iff

namespace Graph

/-- What feeds an input, as a link. -/
theorem link_inputSource? (g : Graph) (id : NodeId) (input : String) :
    (g.inputSource? id input).map Connection.link = g.links.find? (Link.feeds id input) := by
  unfold inputSource? links
  rw [List.find?_map]
  rfl

theorem isSome_inputSource? (g : Graph) (id : NodeId) (input : String) :
    (g.inputSource? id input).isSome = g.links.any (Link.feeds id input) := by
  rw [← Option.isSome_map (f := Connection.link), link_inputSource?, List.isSome_find?]

theorem isOutputConnected_eq (g : Graph) (id : NodeId) (output : String) :
    g.isOutputConnected id output = g.links.any (Link.uses id output) := by
  unfold isOutputConnected links
  rw [List.any_map]
  rfl

/-- An input that is fed once is fed by one link. -/
theorem FedOnce.eq_of_feeds (h : g.FedOnce) {id : NodeId} {input : String} {w x : Link}
    (hw : w ∈ g.links) (hx : x ∈ g.links) (hfw : w.feeds id input = true)
    (hfx : x.feeds id input = true) : w = x := by
  obtain ⟨c, hc, rfl⟩ := List.mem_map.mp hw
  obtain ⟨d, hd, rfl⟩ := List.mem_map.mp hx
  unfold Link.feeds at hfw hfx
  rw [Bool.and_eq_true, beq_iff_eq, beq_iff_eq] at hfw hfx
  have hsymm : Std.Symm fun c d : Connection => c.target = d.target → c.input ≠ d.input :=
    ⟨fun c d hcd htarget hinput => hcd htarget.symm hinput.symm⟩
  by_contra hne
  have hapart := List.Pairwise.forall h hc hd fun heq => hne (congrArg Connection.link heq)
  exact hapart (hfw.1.trans hfx.1.symm) (hfw.2.trans hfx.2.symm)

end Graph

namespace Graph.Renames

/-- Nodes are found under their new identities. -/
theorem node? (hρ : Function.Injective ρ) (h : g.Renames ρ g') (id : NodeId) :
    Option.Rel (fun n n' => n.Renames ρ n' ∧ n ∈ g.nodes ∧ n' ∈ g'.nodes)
      (g.node? id) (g'.node? (ρ id)) := by
  refine rel_find? (fun n n' hn => ?_) (forall₂_mem h.nodes)
  rw [hn.1.id, Bool.eq_iff_iff, beq_iff_eq, beq_iff_eq]
  exact hρ.eq_iff

/-- The same inputs are fed. -/
theorem isSome_inputSource? (hρ : Function.Injective ρ) (h : g.Renames ρ g') (id : NodeId)
    (input : String) :
    (g'.inputSource? (ρ id) input).isSome = (g.inputSource? id input).isSome := by
  rw [Graph.isSome_inputSource?, Graph.isSome_inputSource?, ← h.links.any_eq, List.any_map]
  congr 1
  funext w
  exact Link.feeds_rename hρ id input w

/-- The same outputs are used. -/
theorem isOutputConnected_eq (hρ : Function.Injective ρ) (h : g.Renames ρ g') (id : NodeId)
    (output : String) : g'.isOutputConnected (ρ id) output = g.isOutputConnected id output := by
  rw [Graph.isOutputConnected_eq, Graph.isOutputConnected_eq, ← h.links.any_eq, List.any_map]
  congr 1
  funext w
  exact Link.uses_rename hρ id output w

/-- **An input is fed by one connection**, wherever it is stored. -/
theorem inputSource? (hρ : Function.Injective ρ) (h : g.Renames ρ g') (hfed : g.FedOnce)
    (id : NodeId) (input : String) :
    Option.Rel (fun c c' => c'.link = c.link.rename ρ) (g.inputSource? id input)
      (g'.inputSource? (ρ id) input) := by
  have hlink : (g'.inputSource? (ρ id) input).map Connection.link =
      ((g.inputSource? id input).map Connection.link).map (Link.rename ρ) := by
    have hfeeds : Link.feeds (ρ id) input ∘ Link.rename ρ = Link.feeds id input := by
      funext w
      exact Link.feeds_rename hρ id input w
    -- links may come in another order, but one input has one link at most
    rw [Graph.link_inputSource?, Graph.link_inputSource?, ← find?_of_perm h.links, List.find?_map,
      hfeeds]
    intro w hw x hx hfw hfx
    obtain ⟨w', hw', rfl⟩ := List.mem_map.mp hw
    obtain ⟨x', hx', rfl⟩ := List.mem_map.mp hx
    rw [Link.feeds_rename hρ] at hfw hfx
    rw [hfed.eq_of_feeds hw' hx' hfw hfx]
  generalize g.inputSource? id input = source at hlink
  generalize g'.inputSource? (ρ id) input = source' at hlink
  cases source with
  | none =>
    cases source' with
    | none => exact .none
    | some _ => cases hlink
  | some c =>
    cases source' with
    | none => cases hlink
    | some c' => exact .some (Option.some.inj hlink)

end Graph.Renames

/-! ## §3. Nodes and their renamed selves -/

/-- The nodes that act by themselves are the same. -/
theorem Graph.Renames.sideRoots_eq (hρ : Function.Injective ρ) (writes : Kind → Bool)
    (input : String) :
    ∀ {g g' : Graph}, g.Renames ρ g' →
      g'.sideRoots writes input = (g.sideRoots writes input).map ρ := by
  intro g
  induction g using Graph.network_induction with
  | step g ih =>
    intro g' h
    -- whether a node acts by itself depends on what stands inside, hence the induction
    have hacts : ∀ n ∈ g.nodes, ∀ n', n.Renames ρ n' →
        n'.acts writes input g' = n.acts writes input g := by
      intro n hn n' hnn'
      unfold Node.acts
      rcases hnn'.kind.cases with ⟨_, hk⟩ | ⟨s, s', hk, hk', hs⟩
      · rw [hnn'.id, h.isSome_inputSource? hρ, hk]
      · have hinside := ih s.network ⟨n, hn, s, hk, rfl⟩ hs.network
        rw [hk, hk']
        simp only [hinside, List.isEmpty_map]
    have hfilter : List.Forall₂ (fun n n' => n.Renames ρ n' ∧ n ∈ g.nodes ∧ n' ∈ g'.nodes)
        (g.nodes.filter (Node.acts writes input g))
        (g'.nodes.filter (Node.acts writes input g')) := by
      refine List.rel_filter (fun n n' hnn' => ?_) (forall₂_mem h.nodes)
      show n.acts writes input g = true ↔ n'.acts writes input g' = true
      rw [hacts n hnn'.2.1 n' hnn'.1]
    rw [Graph.sideRoots_eq, Graph.sideRoots_eq, List.map_map, ← List.forall₂_eq_eq_eq,
      List.forall₂_map_left_iff, List.forall₂_map_right_iff]
    exact hfilter.flip.imp fun n' n hnn' => hnn'.1.id

/-- A node and its renamed self, in networks where no input is fed twice. -/
structure Graph.Reidentified (ρ : NodeId → NodeId) (g : Graph) (n : Node) (g' : Graph)
    (n' : Node) : Prop where
  graph : g.Renames ρ g'
  fedOnce : g.Everywhere Graph.FedOnce
  mem : n ∈ g.nodes
  node : n.Renames ρ n'

/-- An identity and its new one stand for a node and its renamed self. -/
theorem Graph.Renames.found (hρ : Function.Injective ρ) (h : g.Renames ρ g')
    (hfed : g.Everywhere Graph.FedOnce) (id : NodeId) :
    Found ρ (Graph.Reidentified ρ) g g' id (ρ id) := by
  refine ⟨rfl, ?_⟩
  have hnode := h.node? hρ id
  generalize g.node? id = found at hnode
  generalize g'.node? (ρ id) = found' at hnode
  cases hnode with
  | none => exact .none
  | some hn => exact .some ⟨h, hfed, hn.2.1, hn.1⟩

theorem Graph.Renames.forall₂_sideRoots (hρ : Function.Injective ρ) (h : g.Renames ρ g')
    (hfed : g.Everywhere Graph.FedOnce) (writes : Kind → Bool) (input : String) :
    List.Forall₂ (Found ρ (Graph.Reidentified ρ) g g') (g.sideRoots writes input)
      (g'.sideRoots writes input) := by
  rw [Graph.Renames.sideRoots_eq hρ writes input h, List.forall₂_map_right_iff]
  exact List.forall₂_same.mpr fun id _ => h.found hρ hfed id

/-- **Nodes and their renamed selves match**: what feeds one feeds the other. -/
theorem Graph.pairing_renamed (hρ : Function.Injective ρ) :
    Pairing ρ (Graph.Reidentified ρ) where
  injective := hρ
  id := fun h => h.node.id
  name := fun h => h.node.name
  kind := by
    intro g n g' n' h
    rcases h.node.kind.cases with ⟨hleaf, heq⟩ | ⟨s, s', hk, hk', hs⟩
    · rw [heq]
      exact .leaf hleaf
    · have hinside : s.network.Everywhere Graph.FedOnce :=
        h.fedOnce.inside ⟨n, h.mem, s, hk, rfl⟩
      rw [hk, hk']
      refine .subnet ⟨hs.inputs, hs.outputs, hs.block, ?_, ?_, ?_⟩
      · -- the first node that collects outputs stands in the same place in both networks
        have houtput : Option.Rel (fun n n' => n.Renames ρ n' ∧ n ∈ s.network.nodes ∧
            n' ∈ s'.network.nodes) s.outputNode? s'.outputNode? := by
          refine rel_find? (fun n n' hn => ?_) (forall₂_mem hs.network.nodes)
          rcases hn.1.kind.cases with ⟨_, heq⟩ | ⟨_, _, hk, hk', _⟩
          · rw [heq]
          · rw [hk, hk']
            rfl
        generalize s.outputNode? = found at houtput
        generalize s'.outputNode? = found' at houtput
        cases houtput with
        | none => exact .none
        | some hn =>
          have hid := hs.network.found hρ hinside
          refine .some ⟨⟨hs.network, hinside, hn.2.1, hn.1⟩, ?_⟩
          rw [hn.1.id]
          exact hid _
      · exact hs.network.forall₂_sideRoots hρ hinside
      · exact hs.network.isSome_inputSource? hρ
  feed := by
    intro g n g' n' h input _
    have hsource := h.graph.inputSource? hρ h.fedOnce.here n.id input
    rw [h.node.id]
    generalize g.inputSource? n.id input = source at hsource
    generalize g'.inputSource? (ρ n.id) input = source' at hsource
    cases hsource with
    | none => exact .none
    | @some c c' hc =>
      refine .some ⟨congrArg Link.output hc, ?_⟩
      have hid : c'.source = ρ c.source := congrArg Link.source hc
      rw [hid]
      exact h.graph.found hρ h.fedOnce c.source

/-! ## §4. Whole graphs -/

theorem Node.Renames.ref {n n' : Node} (h : n.Renames ρ n') (path : String) :
    NodeRef.of path n' = (NodeRef.of path n).rename ρ := by
  unfold NodeRef.of NodeRef.rename
  rw [h.id, h.name]

theorem Kind.Renames.outputs_eq {k k' : Kind} (h : k.Renames ρ k') : k'.outputs = k.outputs := by
  rcases h.cases with ⟨_, rfl⟩ | ⟨s, s', rfl, rfl, hs⟩
  · rfl
  · rw [Kind.outputs, Kind.outputs, hs.outputs]

/-- A node and its renamed self need the same variables. -/
theorem Node.Renames.variables_eq {n n' : Node} (h : n.Renames ρ n') (scope : Scope) :
    n'.variables scope = n.variables scope := by
  have houtputs : n'.outputs = n.outputs := h.kind.outputs_eq
  unfold Node.variables
  rw [houtputs, h.name]
  rcases h.kind.cases with ⟨_, hk⟩ | ⟨s, s', hk, hk', hs⟩
  · rw [hk]
  · rw [hk, hk']
    simp only [hs.inputs]

/-- They take them alike, or clash alike with what has them. -/
theorem concurs_reserve {n n' : Node} (h : n.Renames ρ n') (scope : Scope) :
    ∀ (names : List String) (taken : Table String String),
      Concurs ρ Eq (reserve scope n taken names) (reserve scope n' taken names)
  | [], _ => .ok rfl
  | name :: names, taken => by
    rw [reserve, reserve]
    cases holder? taken name with
    | none =>
      simp only [h.name]
      exact concurs_reserve h scope names _
    | some other =>
      simp only [h.ref]
      exact .error (.duplicateVariable _ name other)

mutual

/-- **The variables of a hierarchy are taken alike.** -/
theorem Graph.Renames.concurs_reserveVariables (scope : Scope) (taken : Table String String) :
    ∀ {g g' : Graph}, g.Renames ρ g' →
      Concurs ρ Eq (g.reserveVariables scope taken) (g'.reserveVariables scope taken)
  | { name, nodes, connections, version, error }, { nodes := nodes', .. }, h => by
    rw [Graph.reserveVariables, Graph.reserveVariables]
    rw [Graph.Renames] at h
    exact Node.concurs_reserveAll scope taken h.2.1

theorem Node.concurs_reserveAll (scope : Scope) (taken : Table String String) :
    ∀ {ns ns' : List Node}, Node.RenamesAll ρ ns ns' →
      Concurs ρ Eq (Node.reserveAll scope taken ns) (Node.reserveAll scope taken ns')
  | [], [], _ => by
    rw [Node.reserveAll]
    exact .ok rfl
  | { id, name, kind, dirty, error } :: ns,
      { id := id', name := name', kind := kind', dirty := dirty', error := error' } :: ns', h => by
    rw [Node.RenamesAll] at h
    obtain ⟨⟨hid, hname, hkind⟩, hrest⟩ := h
    have hnode : Node.Renames ρ { id, name, kind, dirty, error }
        { id := id', name := name', kind := kind', dirty := dirty', error := error' } :=
      ⟨hid, hname, hkind⟩
    simp only at hname
    subst hname
    rw [Node.reserveAll, Node.reserveAll]
    refine .bind (R := Eq) ?_ fun taken _ _ _ heq => .bind (R := Eq) ?_ fun taken _ _ _ heq => ?_
    · rw [hnode.variables_eq]
      exact concurs_reserve hnode scope _ _
    · rw [← heq]
      exact Kind.concurs_reserveVariables (scope.enter name') _ hkind
    · rw [← heq]
      exact Node.concurs_reserveAll scope _ hrest
  | [], _ :: _, h => by simp [Node.RenamesAll] at h
  | _ :: _, [], h => by simp [Node.RenamesAll] at h

theorem Kind.concurs_reserveVariables (inner : Scope) (taken : Table String String) :
    ∀ {k k' : Kind}, k.Renames ρ k' →
      Concurs ρ Eq (k.reserveVariables inner taken) (k'.reserveVariables inner taken)
  | .subnet { inputs, outputs, block, network }, .subnet { network := network', .. }, h => by
    rw [Kind.Renames] at h
    rw [Kind.reserveVariables, Kind.reserveVariables]
    exact Graph.Renames.concurs_reserveVariables inner taken h.2.2.2
  | .subnet { inputs, outputs, block, network }, .constant _, h
  | .subnet { inputs, outputs, block, network }, .param .., h
  | .subnet { inputs, outputs, block, network }, .math .., h
  | .subnet { inputs, outputs, block, network }, .globals, h
  | .subnet { inputs, outputs, block, network }, .attribute .., h
  | .subnet { inputs, outputs, block, network }, .varyingWrite .., h
  | .subnet { inputs, outputs, block, network }, .varyingRead .., h
  | .subnet { inputs, outputs, block, network }, .function .., h
  | .subnet { inputs, outputs, block, network }, .output _, h
  | .subnet { inputs, outputs, block, network }, .subnetInput _, h
  | .subnet { inputs, outputs, block, network }, .subnetOutput _, h => by
    simp [Kind.Renames] at h
  | .constant _, _, h | .param .., _, h | .math .., _, h | .globals, _, h | .attribute .., _, h
  | .varyingWrite .., _, h | .varyingRead .., _, h | .function .., _, h | .output _, _, h
  | .subnetInput _, _, h | .subnetOutput _, _, h => by
    obtain ⟨_, rfl⟩ := h.cases.resolve_right fun ⟨_, _, hk, _⟩ => by cases hk
    simp only [Kind.reserveVariables]
    exact .ok rfl

end

namespace Graph.Renames

variable (h : g.Renames ρ g')
include h

/-- The output node is the same. -/
theorem concurs_outputNode (hρ : Function.Injective ρ) (hfed : g.Everywhere Graph.FedOnce)
    (target : Target) :
    Concurs ρ (Found ρ (Graph.Reidentified ρ) g g') (g.outputNode target)
      (g'.outputNode target) := by
  have hoffered : List.Forall₂ (Node.Renames ρ) (g.nodes.filter (Node.isOutputFor target))
      (g'.nodes.filter (Node.isOutputFor target)) := by
    refine List.rel_filter (fun n n' hn => ?_) h.nodes
    show n.isOutputFor target = true ↔ n'.isOutputFor target = true
    unfold Node.isOutputFor
    rcases hn.kind.cases with ⟨_, hk⟩ | ⟨_, _, hk, hk', _⟩
    · rw [hk]
    · rw [hk, hk']
  rw [Graph.outputNode_eq, Graph.outputNode_eq, h.name_eq]
  have hlength := hoffered.length_eq
  generalize g.nodes.filter (Node.isOutputFor target) = offered at hoffered hlength
  generalize g'.nodes.filter (Node.isOutputFor target) = offered' at hoffered hlength
  cases hoffered with
  | nil => exact .error (.missingOutputNode g.name)
  | @cons n n' _ _ hn hrest =>
    cases hrest with
    | nil =>
      have hfound := h.found hρ hfed n.id
      rw [← hn.id] at hfound
      exact .ok hfound
    | cons _ _ =>
      simp only [← hlength]
      exact .error (.multipleOutputNodes g.name _)

/-- A node of a kind that is not known is the same. -/
theorem concurs_checkNodes (b : Backend) (scope : Scope) :
    Concurs ρ Eq (b.checkNodes g scope) (b.checkNodes g' scope) := by
  have hrefused : Option.Rel (Node.Renames ρ) (g.nodes.find? fun n => !b.supports n.kind)
      (g'.nodes.find? fun n => !b.supports n.kind) := by
    refine rel_find? (fun n n' hn => ?_) h.nodes
    rcases hn.kind.cases with ⟨_, hk⟩ | ⟨s, s', hk, hk', _⟩
    · rw [hk]
    · rw [hk, hk']
      cases b <;> rfl
  unfold Backend.checkNodes
  generalize (g.nodes.find? fun n => !b.supports n.kind) = found at hrefused
  generalize (g'.nodes.find? fun n => !b.supports n.kind) = found' at hrefused
  cases hrefused with
  | none => exact .ok rfl
  | some hn =>
    simp only [hn.ref]
    exact .error (.unsupportedNode _ b.target)

end Graph.Renames

/-- They match in all that a pass asks of them. -/
theorem Graph.Renames.matches_self (hρ : Function.Injective ρ) (h : g.Renames ρ g')
    (hfed : g.Everywhere Graph.FedOnce) (b : Backend) (context : Context) :
    g.Matches ρ (Graph.Reidentified ρ) b context g' where
  name := h.name_eq
  output := h.concurs_outputNode hρ hfed b.target
  sideRoots := by
    cases b <;> exact h.forall₂_sideRoots hρ hfed _ _
  kinds := h.concurs_checkNodes b _
  names := (h.concurs_reserveVariables _ []).map fun _ _ _ => rfl
  used := by
    intro s s' _ halike _ output _
    rw [halike.node.node.id]
    exact halike.node.graph.isOutputConnected_eq hρ s.node.id output

/-- **Programs do not depend on identities**, nor on the order in which connections are stored.
    Where no input is fed twice, a graph with other identities at any depth, and with the
    connections of each network in any order, compiles to the same program as before, with the
    same places kept; or it fails for the same reason, which names the same nodes by their new
    identities. -/
theorem Graph.Renames.compiles_alike (hρ : Function.Injective ρ) (h : g.Renames ρ g')
    (hfed : g.Everywhere Graph.FedOnce) (b : Backend) (context : Context) :
    b.compile g' context =
      ((b.compile g context).1, (b.compile g context).2.mapError (CompileError.rename ρ)) := by
  have hP := Graph.pairing_renamed hρ
  refine Backend.compile_of_concurs (fun table _ => ?_) ?_
  · refine Particles.concurs_allocate hP table context h.name_eq
      (h.concurs_outputNode hρ hfed .particles) (h.forall₂_sideRoots hρ hfed _ _) ?_
    intro output output' _ _ v w hvw _ _ _ name _
    rw [hP.id hvw.node]
    exact h.isSome_inputSource? hρ v.node.id name
  · exact (h.matches_self hρ hfed _ context).concurs_pass hP

/-- A subnet that negates a number, after it was loaded again: its nodes have new identities, and
    the connection behind the negation is stored first. -/
def renegation : Subnet :=
  { negation with
    network :=
      { Graph.empty "negation" with
        nodes :=
          [.make ⟨110⟩ "input" (.subnetInput [⟨"x", .float⟩]),
           .make ⟨111⟩ "output" (.subnetOutput [⟨"y", .float⟩]),
           .make ⟨112⟩ "negate" (.math .negate .float)]
        connections :=
          [⟨⟨0⟩, ⟨112⟩, "result", ⟨111⟩, "y"⟩, ⟨⟨1⟩, ⟨110⟩, "x", ⟨112⟩, "x"⟩] } }

/-- Points whose color is a negated constant, after they were loaded again. -/
def reshading : Graph :=
  { Graph.empty "shading" with
    nodes :=
      [.make ⟨101⟩ "level" (.constant (.float .one)),
       .make ⟨102⟩ "flip" (.subnet renegation),
       .make ⟨103⟩ "out" (.output .points)]
    connections :=
      [⟨⟨0⟩, ⟨102⟩, "y", ⟨103⟩, "color"⟩, ⟨⟨1⟩, ⟨101⟩, "value", ⟨102⟩, "x"⟩] }

/-- They compile to the program that they compiled to before. -/
theorem shading_reloaded :
    shading.Renames (fun id => ⟨id.value + 100⟩) reshading ∧
      ∃ program, (Backend.points.compile shading {}).2 = .ok program ∧
        Backend.points.compile reshading {} = (.points, .ok program) := by
  have hρ : Function.Injective fun id : NodeId => (⟨id.value + 100⟩ : NodeId) := by
    rintro ⟨a⟩ ⟨b⟩ hab
    have hvalue : a + 100 = b + 100 := congrArg NodeId.value hab
    rw [Nat.add_right_cancel hvalue]
  have hinner : negation.network.Renames (fun id => ⟨id.value + 100⟩) renegation.network :=
    ⟨rfl, ⟨⟨rfl, rfl, rfl⟩, ⟨rfl, rfl, rfl⟩, ⟨rfl, rfl, rfl⟩, trivial⟩, by decide⟩
  have hrenames : shading.Renames (fun id => ⟨id.value + 100⟩) reshading :=
    ⟨rfl, ⟨⟨rfl, rfl, rfl⟩, ⟨rfl, rfl, rfl, rfl, rfl, hinner⟩, ⟨rfl, rfl, rfl⟩, trivial⟩,
      by decide⟩
  have hfed : shading.Everywhere Graph.FedOnce := by
    refine .intro (by decide) ?_
    rintro inner ⟨n, hn, s, hk, rfl⟩
    simp only [shading, List.mem_cons, List.not_mem_nil, or_false] at hn
    rcases hn with rfl | rfl | rfl <;> cases hk
    refine .intro (by decide) ?_
    rintro inner ⟨n, hn, s, hk, rfl⟩
    simp only [negation, List.mem_cons, List.not_mem_nil, or_false] at hn
    rcases hn with rfl | rfl | rfl <;> cases hk
  obtain ⟨program, hprogram⟩ := shading_compiles
  refine ⟨hrenames, program, hprogram, ?_⟩
  rw [hrenames.compiles_alike hρ hfed, hprogram]
  rfl

end ShaderFlow
