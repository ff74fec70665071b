/-
  ShaderFlow.Proofs.Marks — marks are not content.

  Taking the changes and the errors off a graph goes through all levels.  So does putting an
  error on: it goes to one node, the one that has the identity, and changes nothing else.

  Main definitions:
    * `Graph.bare`    — a graph without marks;
    * `Graph.errors`  — the errors on a graph and on its nodes, at all levels.

  Main statements:
    * `Graph.bare_attachError`, `Graph.isDirty_attachError` — what an error does not touch;
    * `Graph.errors_attachError` — the one place where it is then.
-/

import ShaderFlow.Graph.Marks
import ShaderFlow.Proofs.Hierarchy

namespace ShaderFlow

variable {g g' : Graph} {id : NodeId} {text : String}

/-! ## §1. Going through levels -/

/-- A kind with its network changed, if it has one. -/
def Kind.mapNetwork (f : Graph → Graph) : Kind → Kind
  | .subnet s => .subnet { s with network := f s.network }
  | k => k

theorem Kind.mapNetwork_mapNetwork (f f' : Graph → Graph) (k : Kind) :
    (k.mapNetwork f).mapNetwork f' = k.mapNetwork fun network => f' (f network) := by
  cases k <;> rfl

/-- Changes of the network that come to the same. -/
theorem Kind.mapNetwork_congr {f f' : Graph → Graph} {k : Kind}
    (h : ∀ s, k = .subnet s → f s.network = f' s.network) : k.mapNetwork f = k.mapNetwork f' := by
  cases k with
  | subnet s => rw [mapNetwork, mapNetwork, h s rfl]
  | _ => rfl

theorem Kind.mapNetwork_eq_subnet {f : Graph → Graph} {k : Kind} {s : Subnet}
    (h : k.mapNetwork f = .subnet s) :
    ∃ own, k = .subnet own ∧ s = { own with network := f own.network } := by
  cases k with
  | subnet own => exact ⟨own, rfl, (Kind.subnet.inj h).symm⟩
  | _ => cases h

/-- A kind without a trace of changes. -/
theorem Kind.clean_eq (k : Kind) : k.clean = k.mapNetwork Graph.clean := by
  cases k with
  | subnet s => cases s; rw [Kind.clean, Kind.mapNetwork]
  | _ => simp [Kind.clean, Kind.mapNetwork]

/-- A graph without a trace of changes, node by node. -/
theorem Graph.clean_eq (g : Graph) : g.clean = { g with
    nodes := g.nodes.map fun n => { n with kind := n.kind.mapNetwork Graph.clean, dirty := false } } := by
  have hnodes : ∀ ns : List Node, Node.cleanAll ns = ns.map fun n =>
      { n with kind := n.kind.mapNetwork Graph.clean, dirty := false } := by
    intro ns
    induction ns with
    | nil => rw [Node.cleanAll, List.map_nil]
    | cons n ns ih =>
      cases n
      rw [Node.cleanAll, List.map_cons, ih, Kind.clean_eq]
  cases g
  rw [Graph.clean, hnodes]

/-- A graph without errors, node by node. -/
theorem Graph.clearErrors_eq (g : Graph) : g.clearErrors = { g with
    nodes := g.nodes.map fun n =>
      { n with kind := n.kind.mapNetwork Graph.clearErrors, error := none }
    error := none } := by
  have hkind : ∀ k : Kind, k.clearErrors = k.mapNetwork Graph.clearErrors := by
    intro k
    cases k with
    | subnet s => cases s; rw [Kind.clearErrors, Kind.mapNetwork]
    | _ => simp [Kind.clearErrors, Kind.mapNetwork]
  have hnodes : ∀ ns : List Node, Node.clearAll ns = ns.map fun n =>
      { n with kind := n.kind.mapNetwork Graph.clearErrors, error := none } := by
    intro ns
    induction ns with
    | nil => rw [Node.clearAll, List.map_nil]
    | cons n ns ih =>
      cases n
      rw [Node.clearAll, List.map_cons, ih, hkind]
  cases g
  rw [Graph.clearErrors, hnodes]

/-! ## §2. Content -/

/-- A graph without marks: what it is made of. -/
def Graph.bare (g : Graph) : Graph := g.clearErrors.clean

/-- A graph without marks, node by node. -/
theorem Graph.bare_eq (g : Graph) : g.bare = { g with
    nodes := g.nodes.map fun n =>
      { n with kind := n.kind.mapNetwork Graph.bare, dirty := false, error := none }
    error := none } := by
  rw [Graph.bare, Graph.clean_eq, Graph.clearErrors_eq, List.map_map]
  simp only [Function.comp_def, Kind.mapNetwork_mapNetwork]
  rfl

theorem Graph.bare_bare (g : Graph) : g.bare.bare = g.bare := by
  induction g using Graph.network_induction with
  | step g ih =>
    rw [Graph.bare_eq g, Graph.bare_eq, List.map_map]
    congr 1
    refine List.map_congr_left fun n hn => ?_
    have hkind : (n.kind.mapNetwork Graph.bare).mapNetwork Graph.bare =
        n.kind.mapNetwork Graph.bare := by
      rw [Kind.mapNetwork_mapNetwork]
      exact Kind.mapNetwork_congr fun s hk => ih s.network ⟨n, hn, s, hk, rfl⟩
    simp only [Function.comp_apply, hkind]

theorem Graph.version_bare (g : Graph) : g.bare.version = g.version := by rw [Graph.bare_eq]

theorem Graph.map_id_bare (g : Graph) : g.bare.nodes.map (·.id) = g.nodes.map (·.id) := by
  rw [Graph.bare_eq, List.map_map]
  rfl

/-- Identities are content. -/
theorem Graph.ids_bare (g : Graph) : g.bare.ids = g.ids := by
  induction g using Graph.network_induction with
  | step g ih =>
    rw [Graph.bare_eq, Graph.ids_eq, Graph.ids_eq, List.flatMap_map]
    refine List.flatMap_congr fun n hn => ?_
    congr 1
    cases hk : n.kind with
    | subnet s =>
      rw [Kind.mapNetwork, Kind.ids_subnet, Kind.ids_subnet]
      exact ih s.network ⟨n, hn, s, hk, rfl⟩
    | _ => rfl

/-! ## §3. Changes -/

/-- **Whether a graph is dirty**: one of its nodes changed, or one in a network of them did. -/
theorem Graph.isDirty_iff : g.isDirty = true ↔ ∃ n ∈ g.nodes, n.dirty = true ∨
    ∃ s, n.kind = .subnet s ∧ s.network.isDirty = true := by
  have hnodes : ∀ ns : List Node, Node.anyDirty ns = true ↔ ∃ n ∈ ns, n.dirty = true ∨
      ∃ s, n.kind = .subnet s ∧ s.network.isDirty = true := by
    intro ns
    induction ns with
    | nil => simp [Node.anyDirty]
    | cons n ns ih =>
      obtain ⟨id, name, kind, dirty, error⟩ := n
      cases kind with
      | subnet s =>
        cases s
        simp [Node.anyDirty, ih, or_assoc]
      | _ => simp [Node.anyDirty, ih]
  cases g
  rw [Graph.isDirty, hnodes]

/-- Nothing is dirty once changes were taken. -/
theorem Graph.isDirty_clean (g : Graph) : g.clean.isDirty = false := by
  induction g using Graph.network_induction with
  | step g ih =>
    rw [Bool.eq_false_iff, Ne, Graph.isDirty_iff, Graph.clean_eq]
    rintro ⟨_, hm, hdirty⟩
    obtain ⟨n, hn, rfl⟩ := List.mem_map.mp hm
    rcases hdirty with hdirty | ⟨s, hk, hdirty⟩
    · cases hdirty
    · obtain ⟨own, hown, rfl⟩ := Kind.mapNetwork_eq_subnet hk
      rw [ih own.network ⟨n, hn, own, hown, rfl⟩] at hdirty
      cases hdirty

/-- Nothing is dirty without marks. -/
theorem Graph.isDirty_bare (g : Graph) : g.bare.isDirty = false := g.clearErrors.isDirty_clean

/-- Changes are taken once. -/
theorem Graph.clean_clean (g : Graph) : g.clean.clean = g.clean := by
  induction g using Graph.network_induction with
  | step g ih =>
    rw [Graph.clean_eq g, Graph.clean_eq, List.map_map]
    congr 1
    refine List.map_congr_left fun n hn => ?_
    have hkind : (n.kind.mapNetwork Graph.clean).mapNetwork Graph.clean =
        n.kind.mapNetwork Graph.clean := by
      rw [Kind.mapNetwork_mapNetwork]
      exact Kind.mapNetwork_congr fun s hk => ih s.network ⟨n, hn, s, hk, rfl⟩
    simp only [Function.comp_apply, hkind]

/-- A node is found as it is without a trace of changes. -/
theorem Graph.node?_clean (g : Graph) (id : NodeId) :
    g.clean.node? id = (g.node? id).map fun n =>
      { n with kind := n.kind.mapNetwork Graph.clean, dirty := false } := by
  rw [Graph.clean_eq, Graph.node?, Graph.node?, List.find?_map]
  rfl

/-! ## §4. Where an error goes -/

theorem Kind.setError?_eq_some {k k' : Kind} (h : k.setError? id text = some k') :
    ∃ s network, k = .subnet s ∧ s.network.setError? id text = some network ∧
      k' = .subnet { s with network } := by
  cases k with
  | subnet s =>
    obtain ⟨inputs, outputs, block, network⟩ := s
    rw [Kind.setError?, Option.map_eq_some_iff] at h
    obtain ⟨network', hnetwork, rfl⟩ := h
    exact ⟨_, network', rfl, hnetwork, rfl⟩
  | _ => simp [Kind.setError?] at h

/-- One of the nodes is marked inside. -/
theorem Node.setNested?_eq_some {ns ns' : List Node} (h : Node.setNested? id text ns = some ns') :
    ∃ before n after k, ns = before ++ n :: after ∧ n.kind.setError? id text = some k ∧
      ns' = before ++ { n with kind := k } :: after := by
  induction ns generalizing ns' with
  | nil => simp [Node.setNested?] at h
  | cons n ns ih =>
    obtain ⟨own, name, kind, dirty, error⟩ := n
    rw [Node.setNested?] at h
    split at h
    next k hk =>
      cases h
      exact ⟨[], _, ns, k, rfl, hk, rfl⟩
    next =>
      obtain ⟨rest, hrest, rfl⟩ := Option.map_eq_some_iff.mp h
      obtain ⟨before, n, after, k, rfl, hk, rfl⟩ := ih hrest
      exact ⟨_ :: before, n, after, k, rfl, hk, rfl⟩

theorem Node.exists_setNested? {ns : List Node}
    (h : ∃ n ∈ ns, ∃ k, n.kind.setError? id text = some k) :
    ∃ ns', Node.setNested? id text ns = some ns' := by
  obtain ⟨m, hm, k, hk⟩ := h
  induction ns with
  | nil => cases hm
  | cons n ns ih =>
    cases n
    rw [Node.setNested?]
    split
    next => exact ⟨_, rfl⟩
    next hfirst =>
      rcases List.mem_cons.mp hm with rfl | hm
      · rw [hfirst] at hk
        cases hk
      · obtain ⟨rest, hrest⟩ := ih hm
        rw [hrest]
        exact ⟨_, rfl⟩

/-- **What putting an error on a node comes to**: the node is one of the network, or it is
    somewhere in the network of one of the subnets. -/
theorem Graph.setError?_eq_some (h : g.setError? id text = some g') :
    (id ∈ g.nodes.map (·.id) ∧ g' = { g with
      nodes := g.nodes.map fun n => if n.id == id then { n with error := some text } else n }) ∨
    ∃ before n after s network, g.nodes = before ++ n :: after ∧ n.kind = .subnet s ∧
      s.network.setError? id text = some network ∧
      g' = { g with nodes := before ++ { n with kind := .subnet { s with network } } :: after } := by
  obtain ⟨name, nodes, connections, version, error⟩ := g
  rw [Graph.setError?] at h
  split at h
  next hany =>
    cases h
    obtain ⟨n, hn, hid⟩ := List.any_eq_true.mp hany
    exact .inl ⟨List.mem_map.mpr ⟨n, hn, by simpa using hid⟩, rfl⟩
  next =>
    obtain ⟨nodes', hnodes, rfl⟩ := Option.map_eq_some_iff.mp h
    obtain ⟨before, n, after, k, hsplit, hk, rfl⟩ := Node.setNested?_eq_some hnodes
    obtain ⟨s, network, hs, hnetwork, rfl⟩ := Kind.setError?_eq_some hk
    exact .inr ⟨before, n, after, s, network, hsplit, hs, hnetwork, rfl⟩

/-- A node of the hierarchy is found. -/
theorem Graph.exists_setError? (h : id ∈ g.ids) : ∃ g', g.setError? id text = some g' := by
  induction g using Graph.network_induction with
  | step g ih =>
    rw [Graph.ids_eq, List.mem_flatMap] at h
    obtain ⟨n, hn, hid⟩ := h
    obtain ⟨name, nodes, connections, version, error⟩ := g
    rw [Graph.setError?]
    split
    next => exact ⟨_, rfl⟩
    next hany =>
      rcases List.mem_cons.mp hid with rfl | hid
      · exact absurd (List.any_eq_true.mpr ⟨n, hn, by simp⟩) hany
      · -- the node stands in the network of a subnet, where it is found
        cases hk : n.kind with
        | subnet s =>
          rw [hk, Kind.ids_subnet] at hid
          obtain ⟨network, hnetwork⟩ := ih s.network ⟨n, hn, s, hk, rfl⟩ hid
          have hfound : n.kind.setError? id text = some (.subnet { s with network }) := by
            rw [hk]
            cases s
            rw [Kind.setError?, hnetwork, Option.map_some]
          obtain ⟨nodes', hnodes⟩ := Node.exists_setNested? ⟨n, hn, _, hfound⟩
          rw [hnodes]
          exact ⟨_, rfl⟩
        | _ => simp [hk, Kind.ids] at hid

theorem Graph.bare_setError? (h : g.setError? id text = some g') : g'.bare = g.bare := by
  induction g using Graph.network_induction generalizing g' with
  | step g ih =>
    rw [Graph.bare_eq g, Graph.bare_eq]
    rcases Graph.setError?_eq_some h with
      ⟨_, rfl⟩ | ⟨before, n, after, s, network, hsplit, hk, hnetwork, rfl⟩
    · rw [List.map_map]
      congr 1
      refine List.map_congr_left fun n _ => ?_
      simp only [Function.comp_apply]
      split <;> rfl
    · have hinner := ih s.network ⟨n, by simp [hsplit], s, hk, rfl⟩ hnetwork
      simp [hsplit, hk, Kind.mapNetwork, hinner]

theorem Graph.isDirty_setError? (h : g.setError? id text = some g') : g'.isDirty = g.isDirty := by
  induction g using Graph.network_induction generalizing g' with
  | step g ih =>
    rw [Bool.eq_iff_iff, Graph.isDirty_iff, Graph.isDirty_iff]
    rcases Graph.setError?_eq_some h with
      ⟨_, rfl⟩ | ⟨before, n, after, s, network, hsplit, hk, hnetwork, rfl⟩
    · simp only [List.mem_map, exists_exists_and_eq_and]
      refine exists_congr fun n => and_congr_right fun _ => ?_
      split <;> rfl
    · have hinner := ih s.network ⟨n, by simp [hsplit], s, hk, rfl⟩ hnetwork
      simp [hsplit, hk, hinner, or_and_right, exists_or]

/-! ## §5. Errors -/

mutual

/-- The errors on a graph and on its nodes, at all levels: each with the node it is on, or with
    none where it is on a graph. -/
def Graph.errors : Graph → List (Option NodeId × String)
  | { nodes, error, .. } => error.toList.map (none, ·) ++ Node.errorsAmong nodes

/-- The errors on nodes of a list and in their networks. -/
def Node.errorsAmong : List Node → List (Option NodeId × String)
  | [] => []
  | { id, kind, error, .. } :: ns =>
    error.toList.map (some id, ·) ++ kind.errors ++ Node.errorsAmong ns

/-- The errors in the network of a subnet. -/
def Kind.errors : Kind → List (Option NodeId × String)
  | .subnet { network, .. } => network.errors
  | _ => []

end

/-- The errors on a node and in its network. -/
def Node.errors (n : Node) : List (Option NodeId × String) :=
  n.error.toList.map (some n.id, ·) ++ n.kind.errors

/-- The errors on a graph, node by node. -/
theorem Graph.errors_eq (g : Graph) :
    g.errors = g.error.toList.map (none, ·) ++ g.nodes.flatMap Node.errors := by
  have hnodes : ∀ ns : List Node, Node.errorsAmong ns = ns.flatMap Node.errors := by
    intro ns
    induction ns with
    | nil => rw [Node.errorsAmong, List.flatMap_nil]
    | cons n ns ih =>
      cases n
      rw [Node.errorsAmong, List.flatMap_cons, ih, Node.errors]
  cases g
  rw [Graph.errors, hnodes]

theorem Kind.errors_subnet (s : Subnet) : (Kind.subnet s).errors = s.network.errors := by
  cases s
  rw [Kind.errors]

/-- There are no errors without marks. -/
theorem Graph.errors_bare (g : Graph) : g.bare.errors = [] := by
  induction g using Graph.network_induction with
  | step g ih =>
    rw [Graph.errors_eq, Graph.bare_eq, List.flatMap_map]
    simp only [Option.toList_none, List.map_nil, List.nil_append, List.flatMap_eq_nil_iff,
      Node.errors]
    intro n hn
    cases hk : n.kind with
    | subnet s =>
      rw [Kind.mapNetwork, Kind.errors_subnet]
      exact ih s.network ⟨n, hn, s, hk, rfl⟩
    | _ => simp [Kind.mapNetwork, Kind.errors]

/-- The errors of nodes of which only one has any. -/
theorem Node.flatMap_errors {before after : List Node} {n : Node}
    (hothers : ∀ m ∈ before ++ after, m.errors = []) :
    (before ++ n :: after).flatMap Node.errors = n.errors := by
  have hbefore : before.flatMap Node.errors = [] :=
    List.flatMap_eq_nil_iff.mpr fun m hm => hothers m (List.mem_append_left _ hm)
  have hafter : after.flatMap Node.errors = [] :=
    List.flatMap_eq_nil_iff.mpr fun m hm => hothers m (List.mem_append_right _ hm)
  rw [List.flatMap_append, List.flatMap_cons, hbefore, hafter, List.append_nil, List.nil_append]

/-- A node that a network has once is marked where it stands. -/
theorem Graph.map_mark {before after : List Node} {n : Node} {f : Node → Node}
    (hids : ((before ++ n :: after).map (·.id)).Nodup) :
    (before ++ n :: after).map (fun m => if m.id == n.id then f m else m) =
      before ++ f n :: after := by
  rw [List.map_append, List.map_cons, List.nodup_middle, List.nodup_cons, ← List.map_append]
    at hids
  have hsame : ∀ ms : List Node, ms ⊆ before ++ after →
      ms.map (fun m => if m.id == n.id then f m else m) = ms := by
    intro ms hms
    refine List.map_congr_left (fun m hm => ?_) |>.trans (List.map_id ms)
    have hne : m.id ≠ n.id := fun heq => hids.1 (heq ▸ List.mem_map_of_mem (hms hm))
    simp [hne]
  rw [List.map_append, List.map_cons, hsame before (List.subset_append_left _ _),
    hsame after (List.subset_append_right _ _)]
  simp

/-- **An error is in one place**, where no two nodes share an identity and there was none
    before. -/
theorem Graph.errors_setError? (hids : g.ids.Nodup) (hnone : g.errors = [])
    (h : g.setError? id text = some g') : g'.errors = [(some id, text)] := by
  induction g using Graph.network_induction generalizing g' with
  | step g ih =>
    rw [Graph.errors_eq, List.append_eq_nil_iff, List.flatMap_eq_nil_iff] at hnone
    obtain ⟨herror, hnodes⟩ := hnone
    have herror : g.error = none := by simpa using herror
    have hothers : ∀ {before n after}, g.nodes = before ++ n :: after →
        ∀ m ∈ before ++ after, m.errors = [] := by
      intro before n after hsplit m hm
      refine hnodes m ?_
      rw [hsplit, List.mem_append, List.mem_cons]
      rcases List.mem_append.mp hm with hm | hm
      · exact .inl hm
      · exact .inr (.inr hm)
    -- the mark is here or inside; in both cases all other nodes stay without errors
    rcases Graph.setError?_eq_some h with
      ⟨hid, rfl⟩ | ⟨before, n, after, s, network, hsplit, hk, hnetwork, rfl⟩
    · obtain ⟨n, hn, rfl⟩ := List.mem_map.mp hid
      obtain ⟨before, after, hsplit⟩ := List.append_of_mem hn
      have hnodup := Graph.nodup_of_ids hids
      have hself := (List.append_eq_nil_iff.mp (hnodes n hn)).2
      rw [hsplit] at hnodup
      rw [Graph.errors_eq, herror, hsplit, Graph.map_mark hnodup,
        Node.flatMap_errors (hothers hsplit), Node.errors, hself]
      rfl
    · have hself := hnodes n (by simp [hsplit])
      rw [Node.errors, hk, Kind.errors_subnet, List.append_eq_nil_iff] at hself
      have hnests : s.network.Nests g := ⟨n, by simp [hsplit], s, hk, rfl⟩
      have hinner := ih s.network hnests (Graph.nodup_ids_of_nests hnests hids) hself.2 hnetwork
      rw [Graph.errors_eq, herror, Node.flatMap_errors (hothers hsplit), Node.errors, hself.1,
        Kind.errors_subnet, hinner]
      rfl

/-! ## §6. Errors of a compilation -/

section Attach

variable {origin : Option NodeId}

/-- An error is put on the graph, or where its node is. -/
theorem Graph.attachError_cases (g : Graph) (origin : Option NodeId) (text : String) :
    g.attachError origin text = { g with error := some text } ∨
      ∃ id, g.setError? id text = some (g.attachError origin text) := by
  unfold Graph.attachError
  cases h : origin.bind fun id => g.setError? id text with
  | none => exact .inl rfl
  | some g' =>
    obtain ⟨id, _, hg'⟩ := Option.bind_eq_some_iff.mp h
    exact .inr ⟨id, hg'⟩

/-- An error is not content. -/
theorem Graph.bare_attachError : (g.attachError origin text).bare = g.bare := by
  rcases g.attachError_cases origin text with heq | ⟨id, hg'⟩
  · rw [heq, Graph.bare_eq, Graph.bare_eq]
  · exact Graph.bare_setError? hg'

/-- An error is not a change. -/
theorem Graph.isDirty_attachError : (g.attachError origin text).isDirty = g.isDirty := by
  rcases g.attachError_cases origin text with heq | ⟨id, hg'⟩
  · rw [heq, Bool.eq_iff_iff, Graph.isDirty_iff, Graph.isDirty_iff]
  · exact Graph.isDirty_setError? hg'

/-- **An error is in one place**: on the node it came from, or on the graph if it came from
    none. -/
theorem Graph.errors_attachError (hids : g.ids.Nodup) (hnone : g.errors = [])
    (horigin : ∀ id ∈ origin, id ∈ g.ids) :
    (g.attachError origin text).errors = [(origin, text)] ∧
      (origin = none → (g.attachError origin text).error = some text) := by
  cases origin with
  | none =>
    refine ⟨?_, fun _ => rfl⟩
    rw [Graph.errors_eq, List.append_eq_nil_iff] at hnone
    rw [show g.attachError none text = { g with error := some text } from rfl, Graph.errors_eq,
      hnone.2]
    rfl
  | some id =>
    obtain ⟨g', hg'⟩ : ∃ g', g.setError? id text = some g' :=
      Graph.exists_setError? (horigin id rfl)
    have heq : g.attachError (some id) text = g' := by
      rw [Graph.attachError, Option.bind_some, hg', Option.getD_some]
    rw [heq]
    exact ⟨Graph.errors_setError? hids hnone hg', nofun⟩

end Attach

end ShaderFlow
