/-
  ShaderFlow.Proofs.Editing — what validated edits keep.

  Nodes are told apart by identity, and every connection joins ports that exist.  Each edit
  keeps that, in the network that it changes and in all others, so it holds of every graph that
  edits lead to.

  Main definitions:
    * `Graph.Sound`          — different nodes, and connections between their ports;
    * `Graph.Built`          — the graphs that validated edits lead to;
    * `Graph.Alters`         — what one edit does to a network.

  Main statements:
    * `Graph.Built.everywhere` — what single edits keep holds at every level;
    * `Graph.Built.sound`    — such graphs are sound at every level;
    * `Graph.Sound.regular`  — a sound network whose subnets are mirrored fits together.
-/

import ShaderFlow.Graph.Edit
import ShaderFlow.Proofs.Basic
import ShaderFlow.Proofs.Wiring

namespace ShaderFlow

open Relation

/-! ## §1. Networks whose connections join ports -/

/-- A network with different nodes, whose connections join ports of them. -/
structure Graph.Sound (g : Graph) : Prop where
  ids : (g.nodes.map (·.id)).Nodup
  joined : ∀ c ∈ g.connections, g.hasPorts c = true

/-- A node with the given identity has the same ports in two networks. -/
def Graph.KeepsPorts (g g' : Graph) (id : NodeId) : Prop :=
  ∀ n, g.node? id = some n →
    ∃ n', g'.node? id = some n' ∧ n'.inputs = n.inputs ∧ n'.outputs = n.outputs

variable {g g' : Graph} {id : NodeId}

/-- A connection whose ends keep their ports still joins ports. -/
theorem Graph.hasPorts_of_keepsPorts {c : Connection} (h : g.hasPorts c = true)
    (hsource : g.KeepsPorts g' c.source) (htarget : g.KeepsPorts g' c.target) :
    g'.hasPorts c = true := by
  unfold Graph.hasPorts at h ⊢
  rw [Bool.and_eq_true, Option.any_eq_true, Option.any_eq_true] at h
  obtain ⟨⟨source, hs, houtput⟩, target, ht, hinput⟩ := h
  obtain ⟨source', hs', _, houtputs⟩ := hsource source hs
  obtain ⟨target', ht', hinputs, _⟩ := htarget target ht
  rw [Node.output?, ← houtputs] at houtput
  rw [Node.input?, ← hinputs] at hinput
  rw [hs', ht', Option.any_some, Option.any_some, Node.output?, Node.input?, houtput, hinput]
  rfl

/-- The ends of a connection of a sound network. -/
theorem Graph.Sound.ends (h : g.Sound) {c : Connection} (hc : c ∈ g.connections) :
    (∃ source, g.node? c.source = some source ∧ c.output ∈ source.outputs.map (·.name)) ∧
      ∃ target, g.node? c.target = some target ∧ c.input ∈ target.inputNames := by
  have hports := h.joined c hc
  unfold Graph.hasPorts at hports
  rw [Bool.and_eq_true, Option.any_eq_true, Option.any_eq_true] at hports
  obtain ⟨⟨source, hs, houtput⟩, target, ht, hinput⟩ := hports
  refine ⟨⟨source, hs, ?_⟩, target, ht, ?_⟩
  · obtain ⟨port, hport⟩ := Option.isSome_iff_exists.mp houtput
    have hname : port.name = c.output := by simpa using List.find?_some hport
    exact List.mem_map.mpr ⟨port, List.mem_of_find?_eq_some hport, hname⟩
  · obtain ⟨port, hport⟩ := Option.isSome_iff_exists.mp hinput
    have hname : port.name = c.input := by simpa using List.find?_some hport
    exact List.mem_map.mpr ⟨port, List.mem_of_find?_eq_some hport, hname⟩

/-- A network all of whose subnets have two sides that agree. -/
def Graph.Mirrored (g : Graph) : Prop := ∀ n ∈ g.nodes, ∀ s, n.kind = .subnet s → s.Mirrored

/-- **A sound network whose subnets are mirrored fits together.** -/
theorem Graph.Sound.regular (h : g.Sound) (hmirrored : g.Mirrored) : g.Regular where
  ids := h.ids
  wired := by
    intro c hc source hsource
    obtain ⟨⟨source', hsource', houtput⟩, _⟩ := h.ends hc
    obtain rfl := Option.some.inj (hsource.symm.trans hsource')
    exact houtput
  mirrored := hmirrored

/-! ## §2. Looking up nodes of changed networks -/

theorem Graph.node?_insertNode {n m : Node} (h : g.node? id = some n) :
    (g.insertNode m).node? id = some n := by
  unfold Graph.node? at h ⊢
  rw [Graph.insertNode, List.find?_append, h, Option.some_or]

theorem Graph.node?_of_filter {nodes : List Node} {removed : NodeId} (hne : id ≠ removed) :
    (nodes.filter (·.id != removed)).find? (·.id == id) = nodes.find? (·.id == id) := by
  rw [List.find?_filter]
  congr 1
  funext n
  by_cases hid : n.id = id
  · subst hid
    simp [hne]
  · simp [hid]

theorem Graph.find?_replaceNode {nodes : List Node} {target : NodeId} {f : Node → Node}
    (hf : ∀ n, (f n).id = n.id) :
    (Graph.replaceNode nodes target f).find? (·.id == id) =
      (nodes.find? (·.id == id)).map fun n => if n.id == target then f n else n := by
  rw [Graph.replaceNode, List.find?_map]
  congr 2
  funext n
  show ((if n.id == target then f n else n).id == id) = (n.id == id)
  split
  · rw [hf]
  · rfl

/-- What a replacement leaves as it is, it leaves so for the whole list. -/
theorem Graph.map_replaceNode {α : Type} {key : Node → α} {nodes : List Node} {target : NodeId}
    {f : Node → Node} (hf : ∀ n, key (f n) = key n) :
    (Graph.replaceNode nodes target f).map key = nodes.map key := by
  rw [Graph.replaceNode, List.map_map]
  refine List.map_congr_left fun n _ => ?_
  show key (if n.id == target then f n else n) = key n
  split
  · exact hf n
  · rfl

/-- Nodes keep their ports where a node is added. -/
theorem Graph.keepsPorts_insertNode (n : Node) (id : NodeId) :
    g.KeepsPorts (g.insertNode n) id :=
  fun m hm => ⟨m, Graph.node?_insertNode hm, rfl, rfl⟩

/-- The other nodes are still found where a node is removed. -/
theorem Graph.node?_remove {removed : NodeId} (hne : id ≠ removed) :
    (g.remove removed).2.node? id = g.node? id := by
  unfold Graph.remove
  split
  · rfl
  · exact Graph.node?_of_filter hne

/-- They keep their ports. -/
theorem Graph.keepsPorts_remove {removed : NodeId} (hne : id ≠ removed) :
    g.KeepsPorts (g.remove removed).2 id :=
  fun m hm => ⟨m, (Graph.node?_remove hne).trans hm, rfl, rfl⟩

/-- The connections that are left where a node is removed. -/
theorem Graph.mem_connections_remove {c : Connection} :
    c ∈ (g.remove id).2.connections ↔ c ∈ g.connections ∧ c.source ≠ id ∧ c.target ≠ id := by
  unfold Graph.remove
  split <;> simp [Connection.involves]

theorem Graph.nodes_remove_subset (g : Graph) (id : NodeId) : (g.remove id).2.nodes ⊆ g.nodes := by
  unfold Graph.remove
  split
  · exact fun _ hn => hn
  · exact List.filter_subset_self _

theorem Graph.nodes_disconnect (g : Graph) (id : ConnectionId) :
    (g.disconnect id).2.nodes = g.nodes := by
  unfold Graph.disconnect
  split <;> rfl

/-- Ports of nodes given by name are connected like any others. -/
theorem Graph.connect_of_connectNames {id : ConnectionId} {source output target input : String}
    (h : g.connectNames id source output target input = .ok g') :
    ∃ s t, g.connect id s output t input = .ok g' := by
  unfold Graph.connectNames at h
  split at h
  · cases h
  · cases h
  · exact ⟨_, _, h⟩

/-- Nodes keep their ports where one is replaced by a node with the same ports. -/
theorem Graph.keepsPorts_replaceNode {target : NodeId} {f : Node → Node} {version : Nat}
    (hf : ∀ n, (f n).id = n.id)
    (hports : ∀ n, g.node? target = some n → (f n).inputs = n.inputs ∧ (f n).outputs = n.outputs) :
    g.KeepsPorts { g with nodes := Graph.replaceNode g.nodes target f, version } id := by
  intro n hn
  have hfound : (Graph.replaceNode g.nodes target f).find? (·.id == id) =
      some (if n.id == target then f n else n) := by
    rw [Graph.find?_replaceNode hf, show g.nodes.find? (·.id == id) = some n from hn,
      Option.map_some]
  refine ⟨_, hfound, ?_⟩
  split
  next heq =>
    have hid : id = target := by
      rw [← Graph.id_of_node? hn]
      simpa using heq
    subst hid
    exact hports n hn
  next => exact ⟨rfl, rfl⟩

/-! ## §3. One edit -/

namespace Graph.Sound

theorem empty (name : String) : (Graph.empty name).Sound := ⟨List.nodup_nil, nofun⟩

theorem insertNode (h : g.Sound) {n : Node} (hfresh : ∀ m ∈ g.nodes, m.id ≠ n.id) :
    (g.insertNode n).Sound where
  ids := by
    rw [Graph.insertNode, List.map_append, List.map_singleton, List.nodup_append]
    refine ⟨h.ids, List.nodup_singleton _, ?_⟩
    intro id hid id' hid' heq
    obtain ⟨m, hm, rfl⟩ := List.mem_map.mp hid
    rw [List.mem_singleton.mp hid'] at heq
    exact hfresh m hm heq
  joined := fun c hc => Graph.hasPorts_of_keepsPorts (h.joined c hc)
    (Graph.keepsPorts_insertNode n _) (Graph.keepsPorts_insertNode n _)

theorem remove (h : g.Sound) (id : NodeId) : (g.remove id).2.Sound where
  ids := by
    unfold Graph.remove
    split
    · exact h.ids
    · exact h.ids.sublist (List.filter_sublist.map _)
  joined := by
    intro c hc
    obtain ⟨hmem, hsource, htarget⟩ := Graph.mem_connections_remove.mp hc
    exact Graph.hasPorts_of_keepsPorts (h.joined c hmem) (Graph.keepsPorts_remove hsource)
      (Graph.keepsPorts_remove htarget)

/-- A node that is replaced by one with the same ports. -/
theorem replaceNode (h : g.Sound) {id : NodeId} {f : Node → Node} {version : Nat}
    (hf : ∀ n, (f n).id = n.id)
    (hports : ∀ n, g.node? id = some n → (f n).inputs = n.inputs ∧ (f n).outputs = n.outputs) :
    Graph.Sound { g with nodes := Graph.replaceNode g.nodes id f, version } where
  ids := by
    rw [Graph.map_replaceNode hf]
    exact h.ids
  joined := fun c hc => Graph.hasPorts_of_keepsPorts (h.joined c hc)
    (Graph.keepsPorts_replaceNode hf hports) (Graph.keepsPorts_replaceNode hf hports)

theorem editKind (h : g.Sound) {edit : Kind → Kind} (hg' : g.editKind id edit = .ok g') :
    g'.Sound := by
  unfold Graph.editKind at hg'
  split at hg'
  next => cases hg'
  next n hn =>
    simp only at hg'
    split at hg'
    next hsame =>
      cases hg'
      rw [Bool.and_eq_true, beq_iff_eq, beq_iff_eq] at hsame
      refine h.replaceNode (fun _ => rfl) fun m hm => ?_
      obtain rfl := Option.some.inj (hn.symm.trans hm)
      exact hsame
    next =>
      cases hg'
      refine ⟨?_, fun c hc => ?_⟩
      · have hids : (Graph.replaceNode g.nodes id fun m =>
            { m with kind := edit n.kind, dirty := true }).map (·.id) = g.nodes.map (·.id) :=
          Graph.map_replaceNode fun _ => rfl
        exact (congrArg List.Nodup hids).mpr h.ids
      · exact (List.mem_filter.mp hc).2

theorem appendConnection (h : g.Sound) {c : Connection} (hports : g.hasPorts c = true) :
    (g.appendConnection c).Sound where
  ids := h.ids
  joined := by
    intro c' hc'
    rcases List.mem_append.mp hc' with hc' | hc'
    · exact h.joined c' hc'
    · rw [List.mem_singleton.mp hc']
      exact hports

theorem disconnect (h : g.Sound) (id : ConnectionId) : (g.disconnect id).2.Sound := by
  unfold Graph.disconnect
  split
  · exact h
  · exact ⟨h.ids, fun c hc => h.joined c (List.mem_filter.mp hc).1⟩

end Graph.Sound

/-- **When a connection may be made**: there are both ports, their types agree, nothing feeds the
    input yet, and the source does not depend on the target. -/
theorem Graph.checkConnection_eq_ok {source target : NodeId} {output input : String} :
    g.checkConnection source output target input = .ok () ↔
      (∃ s t, g.node? source = some s ∧ g.node? target = some t ∧
        ∃ o i, s.output? output = some o ∧ t.input? input = some i ∧ o.canConnect i = true) ∧
      g.inputSource? target input = none ∧ source ≠ target ∧
        g.dependsOn source target = false := by
  unfold Graph.checkConnection
  constructor
  · intro h
    split at h
    next => cases h
    next => cases h
    next s t hs ht =>
      split at h
      next => cases h
      next => cases h
      next o i ho hi =>
        -- the four checks that are left come one after the other
        obtain ⟨hagree, h⟩ := guard_eq_ok.mp h
        obtain ⟨hfree, h⟩ := guard_eq_ok.mp h
        obtain ⟨hne, h⟩ := guard_eq_ok.mp h
        obtain ⟨hapart, _⟩ := guard_eq_ok.mp h
        refine ⟨⟨s, t, hs, ht, o, i, ho, hi, by simpa using hagree⟩, ?_, ?_, hapart⟩
        · simpa using hfree
        · simpa using hne
  · rintro ⟨⟨s, t, hs, ht, o, i, ho, hi, hagree⟩, hfree, hne, hapart⟩
    simp [hs, ht, ho, hi, hagree, hfree, hne, hapart]

/-- A connection that may be made joins ports. -/
theorem Graph.hasPorts_of_checkConnection {source target : NodeId} {output input : String}
    (h : g.checkConnection source output target input = .ok ()) (id : ConnectionId) :
    g.hasPorts { id, source, output, target, input } = true := by
  obtain ⟨⟨s, t, hs, ht, o, i, ho, hi, _⟩, _⟩ := Graph.checkConnection_eq_ok.mp h
  simp [Graph.hasPorts, hs, ht, ho, hi]

/-! ## §4. Graphs that edits lead to -/

/-- The graphs that validated edits lead to.  The networks of the subnets that nodes bring, and
    those that are reached into, are such graphs, too. -/
inductive Graph.Built : Graph → Prop where
  | empty (name : String) : Built (.empty name)
  | add {g : Graph} {id : NodeId} {name : String} {kind : Kind} (hg : Built g)
      (hfresh : ∀ m ∈ g.nodes, m.id ≠ id)
      (hinner : ∀ s, kind = .subnet s → Built s.network) : Built (g.add id name kind)
  | addNode {g g' : Graph} {n : Node} (hg : Built g)
      (hinner : ∀ s, n.kind = .subnet s → Built s.network) (h : g.addNode n = .ok g') : Built g'
  | remove {g : Graph} (hg : Built g) (id : NodeId) : Built (g.remove id).2
  | editKind {g g' : Graph} {id : NodeId} {edit : Kind → Kind} (hg : Built g)
      (hinner : ∀ n s, g.node? id = some n → edit n.kind = .subnet s → Built s.network)
      (h : g.editKind id edit = .ok g') : Built g'
  | connect {g g' : Graph} {id : ConnectionId} {source target : NodeId} {output input : String}
      (hg : Built g) (h : g.connect id source output target input = .ok g') : Built g'
  | disconnect {g : Graph} (hg : Built g) (id : ConnectionId) : Built (g.disconnect id).2
  | editSubnet {g g' : Graph} {id : NodeId} {α : Type} {edit : Graph → α × Graph} {result : α}
      (hg : Built g)
      (hinner : ∀ n s, g.node? id = some n → n.kind = .subnet s → Built (edit s.network).2)
      (h : g.editSubnet id edit = some (result, g')) : Built g'

theorem Graph.Built.connectNames {id : ConnectionId} {source output target input : String}
    (hg : g.Built) (h : g.connectNames id source output target input = .ok g') : g'.Built := by
  obtain ⟨s, t, h⟩ := Graph.connect_of_connectNames h
  exact .connect hg h

/-- What holds of a network and of the networks in it, once that network was changed. -/
theorem Graph.Everywhere.changed {P : Graph → Prop} (h : g.Everywhere P) (hhere : P g')
    (hkinds : ∀ n ∈ g'.nodes, ∀ s, n.kind = .subnet s →
      (∃ m ∈ g.nodes, m.kind = .subnet s) ∨ s.network.Everywhere P) : g'.Everywhere P := by
  refine .intro hhere ?_
  rintro inner ⟨n, hn, s, hk, rfl⟩
  rcases hkinds n hn s hk with ⟨m, hm, hkind⟩ | hnew
  · exact h.inside ⟨m, hm, s, hkind, rfl⟩
  · exact hnew

theorem Graph.everywhere_empty {P : Graph → Prop} {name : String} (h : P (.empty name)) :
    (Graph.empty name).Everywhere P := by
  refine .intro h ?_
  rintro inner ⟨n, hn, _⟩
  cases hn

theorem Graph.mem_insertNode {n m : Node} (h : m ∈ (g.insertNode n).nodes) :
    m ∈ g.nodes ∨ m.kind = n.kind := by
  rcases List.mem_append.mp h with h | h
  · exact .inl h
  · rw [List.mem_singleton.mp h]
    exact .inr rfl

theorem Graph.mem_replaceNode {nodes : List Node} {f : Node → Node} {m : Node}
    (h : m ∈ Graph.replaceNode nodes id f) : m ∈ nodes ∨ ∃ n ∈ nodes, n.id = id ∧ m = f n := by
  obtain ⟨n, hn, rfl⟩ := List.mem_map.mp h
  split
  next heq => exact .inr ⟨n, hn, by simpa using heq, rfl⟩
  next => exact .inl hn

/-- What a change of kind does to the nodes. -/
theorem Graph.nodes_editKind {edit : Kind → Kind} (h : g.editKind id edit = .ok g') :
    ∃ n, g.node? id = some n ∧ g'.nodes = Graph.replaceNode g.nodes id fun m =>
      { m with kind := edit n.kind, dirty := true } := by
  unfold Graph.editKind at h
  split at h
  next => cases h
  next n hn =>
    refine ⟨n, hn, ?_⟩
    simp only at h
    split at h <;> cases h <;> rfl

theorem Graph.mem_editKind {edit : Kind → Kind} (h : g.editKind id edit = .ok g') {m : Node}
    (hm : m ∈ g'.nodes) : m ∈ g.nodes ∨ ∃ n, g.node? id = some n ∧ m.kind = edit n.kind := by
  obtain ⟨n, hn, hnodes⟩ := Graph.nodes_editKind h
  rw [hnodes] at hm
  refine (Graph.mem_replaceNode hm).imp_right ?_
  rintro ⟨_, _, _, rfl⟩
  exact ⟨n, hn, rfl⟩

/-- A kind is refused only for a node that is not there. -/
theorem Graph.node?_of_editKind_error {edit : Kind → Kind} {e : EditError}
    (h : g.editKind id edit = .error e) : g.node? id = none := by
  unfold Graph.editKind at h
  split at h
  next hnone => exact hnone
  next =>
    simp only at h
    split at h <;> cases h

/-- The nodes of a network in which a node got another kind. -/
theorem Graph.node?_editKind {edit : Kind → Kind} (h : g.editKind id edit = .ok g') :
    ∃ n, g.node? id = some n ∧
      g'.node? id = some { n with kind := edit n.kind, dirty := true } ∧
      ∀ other, other ≠ id → g'.node? other = g.node? other := by
  obtain ⟨n, hn, hnodes⟩ := Graph.nodes_editKind h
  have hfind : ∀ other, g'.node? other = (g.node? other).map fun m =>
      if m.id == id then { m with kind := edit n.kind, dirty := true } else m := by
    intro other
    rw [Graph.node?, hnodes]
    exact Graph.find?_replaceNode fun _ => rfl
  refine ⟨n, hn, ?_, fun other hne => ?_⟩
  · rw [hfind, hn, Option.map_some, if_pos (by simpa using Graph.id_of_node? hn)]
  · rw [hfind]
    cases hother : g.node? other with
    | none => rfl
    | some m =>
      have hid : m.id ≠ id := by
        rw [Graph.id_of_node? hother]
        exact hne
      rw [Option.map_some, if_neg (by simpa using hid)]

/-- What reaching into a subnet comes to. -/
theorem Graph.editSubnet_eq_some {α : Type} {edit : Graph → α × Graph} {result : α}
    (h : g.editSubnet id edit = some (result, g')) :
    ∃ n s, g.node? id = some n ∧ n.kind = .subnet s ∧ g' = { g with
      nodes := Graph.replaceNode g.nodes id fun m =>
        { m with kind := .subnet { s with network := (edit s.network).2 } }
      version := g.version + 1 } := by
  unfold Graph.editSubnet at h
  split at h
  next _ _ s _ _ hn =>
    cases h
    exact ⟨_, s, hn, rfl, rfl⟩
  next => cases h

theorem Graph.Sound.editSubnet {α : Type} {edit : Graph → α × Graph} {result : α} (h : g.Sound)
    (hg' : g.editSubnet id edit = some (result, g')) : g'.Sound := by
  obtain ⟨n, s, hn, hk, rfl⟩ := Graph.editSubnet_eq_some hg'
  refine h.replaceNode (fun _ => rfl) fun m hm => ?_
  obtain rfl := Option.some.inj (hn.symm.trans hm)
  simp only [Node.inputs, Node.outputs, hk]
  exact ⟨rfl, rfl⟩

/-- What one edit that is not refused does to a network, whatever becomes of the networks in
    it. -/
inductive Graph.Alters : Graph → Graph → Prop where
  | insertNode {g : Graph} {n : Node} (hfresh : ∀ m ∈ g.nodes, m.id ≠ n.id) :
      Alters g (g.insertNode n)
  | remove (g : Graph) (id : NodeId) : Alters g (g.remove id).2
  | editKind {g g' : Graph} {id : NodeId} {edit : Kind → Kind} (h : g.editKind id edit = .ok g') :
      Alters g g'
  | connect {g g' : Graph} {id : ConnectionId} {source target : NodeId} {output input : String}
      (h : g.connect id source output target input = .ok g') : Alters g g'
  | disconnect (g : Graph) (id : ConnectionId) : Alters g (g.disconnect id).2
  | editSubnet {g g' : Graph} {id : NodeId} {α : Type} {edit : Graph → α × Graph} {result : α}
      (h : g.editSubnet id edit = some (result, g')) : Alters g g'

/-- The networks of subnets are such graphs, too. -/
theorem Graph.Built.network (h : g.Built) :
    ∀ n ∈ g.nodes, ∀ s, n.kind = .subnet s → s.network.Built := by
  -- a call changes one node at most, and what it brings had to be built beforehand
  induction h with
  | empty name => exact fun n hn => absurd hn List.not_mem_nil
  | add _ _ hinner ih =>
    intro m hm s hk
    rcases Graph.mem_insertNode hm with hm | hkind
    · exact ih m hm s hk
    · exact hinner s (hkind.symm.trans hk)
  | addNode _ hinner h ih =>
    unfold Graph.addNode at h
    split at h <;> cases h
    intro m hm s hk
    rcases Graph.mem_insertNode hm with hm | hkind
    · exact ih m hm s hk
    · exact hinner s (hkind.symm.trans hk)
  | remove _ id ih => exact fun m hm => ih m (Graph.nodes_remove_subset _ id hm)
  | editKind _ hinner h ih =>
    intro m hm s hk
    rcases Graph.mem_editKind h hm with hm | ⟨n, hn, hkind⟩
    · exact ih m hm s hk
    · exact hinner n s hn (hkind.symm.trans hk)
  | connect _ h ih =>
    obtain ⟨_, _, rfl⟩ := map_eq_ok.mp h
    exact ih
  | disconnect _ id ih =>
    rw [Graph.nodes_disconnect]
    exact ih
  | editSubnet _ hinner h ih =>
    obtain ⟨n, s', hn, hkind, rfl⟩ := Graph.editSubnet_eq_some h
    intro m hm s hk
    rcases Graph.mem_replaceNode hm with hm | ⟨_, _, _, rfl⟩
    · exact ih m hm s hk
    · cases hk
      exact hinner n s' hn hkind

/-- What single edits keep holds of the graphs that edits lead to. -/
theorem Graph.Built.here {P : Graph → Prop} (hempty : ∀ name, P (.empty name))
    (hstep : ∀ {g g'}, P g → g.Alters g' → P g') (h : g.Built) : P g := by
  induction h with
  | empty name => exact hempty name
  | add _ hfresh _ ih => exact hstep ih (.insertNode hfresh)
  | addNode _ _ h ih =>
    unfold Graph.addNode at h
    split at h
    next => cases h
    next hfresh =>
      cases h
      exact hstep ih (.insertNode (by simpa using hfresh))
  | remove _ id ih => exact hstep ih (.remove _ id)
  | editKind _ _ h ih => exact hstep ih (.editKind h)
  | connect _ h ih => exact hstep ih (.connect h)
  | disconnect _ id ih => exact hstep ih (.disconnect _ id)
  | editSubnet _ _ h ih => exact hstep ih (.editSubnet h)

/-- **What single edits keep holds at every level** of the graphs that edits lead to. -/
theorem Graph.Built.everywhere {P : Graph → Prop} (hempty : ∀ name, P (.empty name))
    (hstep : ∀ {g g'}, P g → g.Alters g' → P g') (h : g.Built) : g.Everywhere P := by
  intro inner hinner
  have hbuilt : inner.Built := by
    induction hinner using ReflTransGen.head_induction_on with
    | refl => exact h
    | head hnests _ ih =>
      obtain ⟨n, hn, s, hk, rfl⟩ := hnests
      exact ih.network n hn s hk
  exact hbuilt.here hempty hstep

/-- A single edit keeps a network sound. -/
theorem Graph.Sound.alters (h : g.Sound) (hg' : g.Alters g') : g'.Sound := by
  cases hg' with
  | insertNode hfresh => exact h.insertNode hfresh
  | remove id => exact h.remove id
  | editKind hg' => exact h.editKind hg'
  | connect hg' =>
    obtain ⟨_, hcheck, rfl⟩ := map_eq_ok.mp hg'
    exact h.appendConnection (Graph.hasPorts_of_checkConnection hcheck _)
  | disconnect id => exact h.disconnect id
  | editSubnet hg' => exact h.editSubnet hg'

/-- **Graphs that edits lead to are sound**, at every level. -/
theorem Graph.Built.sound (h : g.Built) : g.Everywhere Graph.Sound :=
  h.everywhere Graph.Sound.empty Graph.Sound.alters

/-! ## §5. Many edits -/

/-- The graph of the given nodes and connections, if edits can make it. -/
def Graph.assemble (name : String) (nodes : List Node) (connections : List Connection) :
    Except EditError Graph := do
  let g ← nodes.foldlM Graph.addNode (Graph.empty name)
  connections.foldlM (fun g c => g.connect c.id c.source c.output c.target c.input) g

theorem Graph.Built.addNodes :
    ∀ {nodes : List Node} {g g' : Graph}, g.Built →
      (∀ n ∈ nodes, ∀ s, n.kind = .subnet s → s.network.Built) →
      nodes.foldlM Graph.addNode g = .ok g' → g'.Built
  | [], g, g', hg, _, h => by
    rw [List.foldlM_nil, pure_eq_ok] at h
    exact h ▸ hg
  | n :: nodes, g, g', hg, hinner, h => by
    rw [List.foldlM_cons] at h
    obtain ⟨middle, hn, hrest⟩ := bind_eq_ok.mp h
    exact addNodes (.addNode hg (hinner n List.mem_cons_self) hn)
      (fun m hm => hinner m (List.mem_cons_of_mem n hm)) hrest

theorem Graph.Built.connectAll :
    ∀ {connections : List Connection} {g g' : Graph}, g.Built →
      connections.foldlM (fun g c => g.connect c.id c.source c.output c.target c.input) g =
        .ok g' → g'.Built
  | [], g, g', hg, h => by
    rw [List.foldlM_nil, pure_eq_ok] at h
    exact h ▸ hg
  | c :: connections, g, g', hg, h => by
    rw [List.foldlM_cons] at h
    obtain ⟨middle, hc, hrest⟩ := bind_eq_ok.mp h
    exact connectAll (.connect hg hc) hrest

/-- What edits assemble is such a graph. -/
theorem Graph.Built.assemble {name : String} {nodes : List Node} {connections : List Connection}
    (hinner : ∀ n ∈ nodes, ∀ s, n.kind = .subnet s → s.network.Built)
    (h : Graph.assemble name nodes connections = .ok g) : g.Built := by
  obtain ⟨middle, hnodes, hconnections⟩ := bind_eq_ok.mp h
  exact .connectAll (.addNodes (.empty name) hinner hnodes) hconnections

/-! ## §6. New subnets -/

/-- What holds of empty graphs, and still holds once a node without a network was added, holds of
    the network of a new subnet. -/
theorem Subnet.network_make {P : Graph → Prop} (hempty : ∀ name, P (.empty name))
    (hadd : ∀ {g id name kind}, P g → (∀ m ∈ g.nodes, m.id ≠ id) → (∀ s, kind ≠ .subnet s) →
      P (g.add id name kind))
    (name : String) (inputs outputs : List PortSpec) (block : Block) (supply : Supply) :
    P (Subnet.make name inputs outputs block supply).1.network := by
  refine hadd (hadd (hempty name) nofun nofun) ?_ nofun
  intro m hm heq
  have hid : m.id = ⟨supply.next⟩ := by
    rw [Graph.add, Graph.insertNode] at hm
    rw [List.mem_singleton.mp hm]
    rfl
  rw [hid] at heq
  have hnext : supply.next = supply.next + 1 := congrArg NodeId.value heq
  omega

/-- The network of a new subnet is such a graph. -/
theorem Subnet.built_make (name : String) (inputs outputs : List PortSpec) (block : Block)
    (supply : Supply) : (Subnet.make name inputs outputs block supply).1.network.Built :=
  Subnet.network_make Graph.Built.empty
    (fun hg hfresh hleaf => .add hg hfresh fun s hk => absurd hk (hleaf s)) name inputs outputs block
    supply

theorem Subnet.kind_make {name : String} {inputs outputs : List PortSpec} {block : Block}
    {supply : Supply} {n : Node}
    (hn : n ∈ (Subnet.make name inputs outputs block supply).1.network.nodes) :
    n.kind = .subnetInput inputs ∨ n.kind = .subnetOutput outputs := by
  rcases Graph.mem_insertNode hn with hn | hk
  · rcases Graph.mem_insertNode hn with hn | hk
    · cases hn
    · exact .inl hk
  · exact .inr hk

/-- A new subnet is mirrored, if its condition is one of its inputs. -/
theorem Subnet.mirrored_make {name : String} {inputs outputs : List PortSpec} {block : Block}
    {supply : Supply}
    (hcondition : ∀ condition, block = .conditional condition →
      condition ∈ inputs.map (·.name)) :
    (Subnet.make name inputs outputs block supply).1.Mirrored where
  inputs := by
    intro n hn ports hk
    rcases Subnet.kind_make hn with hkind | hkind
    · cases hk.symm.trans hkind
      rfl
    · cases hk.symm.trans hkind
  outputs := by
    intro n hn ports hk
    rcases Subnet.kind_make hn with hkind | hkind
    · cases hk.symm.trans hkind
    · cases hk.symm.trans hkind
      rfl
  condition := hcondition

end ShaderFlow
