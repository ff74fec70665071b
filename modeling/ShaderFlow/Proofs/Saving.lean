/-
  ShaderFlow.Proofs.Saving — graphs that are saved and loaded again.

  A graph is saved as its document, with the networks of its subnets saved in the same way.  When
  the document is loaded, those networks are loaded first.  What comes back has other identities
  and no marks, but it says the same at every depth.  It comes back exactly if every endpoint is
  cut where it was joined, in every network.

  Main definitions:
    * `Graph.Repeats` — a graph that says the same as another one;
    * `Graph.reload`  — a graph saved and loaded again, with its networks;
    * `Graph.Orderly` — a network whose names and connections are in order;
    * `Graph.Loaded`  — the graphs that documents load to.

  Main statements:
    * `Graph.repeats_of_reload`    — what comes back says the same;
    * `Graph.exists_reload_iff`    — when something comes back;
    * `Document.loads_faithfully`  — a document and the graph that it loads to.
-/

import ShaderFlow.Proofs.Loading
import ShaderFlow.Proofs.Marks

namespace ShaderFlow

variable {g g' : Graph}

/-! ## §1. Saying the same -/

mutual

/-- **Whether a graph says the same as another one**, at every depth: networks have the same
    names, nodes the same names and kinds, numbers to the bit, and connections the same endpoints,
    all in one order.  Identities, versions and marks do not count. -/
def Graph.Repeats : Graph → Graph → Prop
  | { name, nodes, connections, version, error }, g' =>
    g'.name = name ∧ Node.RepeatsAll nodes g'.nodes ∧
      g'.endpoints = Graph.endpoints { name, nodes, connections, version, error }

/-- Whether nodes say the same as others. -/
def Node.RepeatsAll : List Node → List Node → Prop
  | [], [] => True
  | { name, kind, .. } :: ns, n' :: ns' =>
    (name = n'.name ∧ kind.Repeats n'.kind) ∧ Node.RepeatsAll ns ns'
  | _, _ => False

/-- Whether a kind says the same as another one. -/
def Kind.Repeats : Kind → Kind → Prop
  | .subnet { inputs, outputs, block, network }, .subnet s' =>
    s'.inputs = inputs ∧ s'.outputs = outputs ∧ s'.block = block ∧ network.Repeats s'.network
  | k, k' => k' = k

end

theorem Node.repeatsAll_iff :
    ∀ {ns ns' : List Node}, Node.RepeatsAll ns ns' ↔
      List.Forall₂ (fun n n' => n.name = n'.name ∧ n.kind.Repeats n'.kind) ns ns'
  | [], [] => by simp [Node.RepeatsAll]
  | { id, name, kind, dirty, error } :: ns, n' :: ns' => by
    rw [Node.RepeatsAll, List.forall₂_cons, Node.repeatsAll_iff]
  | [], _ :: _ => by simp [Node.RepeatsAll]
  | _ :: _, [] => by simp [Node.RepeatsAll]

theorem Graph.repeats_iff :
    g.Repeats g' ↔ g'.name = g.name ∧
      List.Forall₂ (fun n n' => n.name = n'.name ∧ n.kind.Repeats n'.kind) g.nodes g'.nodes ∧
      g'.endpoints = g.endpoints := by
  cases g
  rw [Graph.Repeats, Node.repeatsAll_iff]

namespace Kind

variable {k k' : Kind}

theorem repeats_of_leaf (hleaf : ∀ s, k ≠ .subnet s) : k.Repeats k := by
  cases k with
  | subnet s => exact absurd rfl (hleaf s)
  | _ => simp [Kind.Repeats]

theorem repeats_subnet {s : Subnet} {network : Graph} (h : s.network.Repeats network) :
    (Kind.subnet s).Repeats (.subnet { s with network }) := by
  cases s
  rw [Kind.Repeats]
  exact ⟨rfl, rfl, rfl, h⟩

/-- Kinds that say the same differ in their networks at most. -/
theorem Repeats.cases (h : k.Repeats k') :
    ((∀ s, k ≠ .subnet s) ∧ k' = k) ∨
      ∃ s network, k = .subnet s ∧ k' = .subnet { s with network } ∧ s.network.Repeats network := by
  cases k with
  | subnet s =>
    obtain ⟨inputs, outputs, block, network⟩ := s
    cases k' with
    | subnet s' =>
      rw [Kind.Repeats] at h
      obtain ⟨hinputs, houtputs, hblock, hnetwork⟩ := h
      cases s'
      cases hinputs
      cases houtputs
      cases hblock
      exact .inr ⟨_, _, rfl, rfl, hnetwork⟩
    | _ => simp [Kind.Repeats] at h
  | _ =>
    left
    refine ⟨nofun, ?_⟩
    rw [Kind.Repeats] at h
    · exact h
    · simp

theorem Repeats.inputs_eq (h : k.Repeats k') : k.inputs = k'.inputs := by
  rcases h.cases with ⟨_, rfl⟩ | ⟨s, network, rfl, rfl, _⟩ <;> rfl

theorem Repeats.outputs_eq (h : k.Repeats k') : k.outputs = k'.outputs := by
  rcases h.cases with ⟨_, rfl⟩ | ⟨s, network, rfl, rfl, _⟩ <;> rfl

end Kind

/-! ## §2. Marks -/

theorem Graph.endpoints_clean (g : Graph) : g.clean.endpoints = g.endpoints := by
  have hends : g.clean.endpointsOf = g.endpointsOf := by
    funext c
    simp only [Graph.endpointsOf, Graph.node?_clean, Option.map_map, Function.comp_def]
  rw [Graph.endpoints, Graph.endpoints, hends, Graph.clean_eq]

/-- What a kind says does not depend on marks in its network. -/
theorem Kind.Repeats.mapNetwork_clean {k k' : Kind} (h : k.Repeats k')
    (hinside : ∀ s, k = .subnet s → ∀ network, s.network.Repeats network →
      s.network.Repeats network.clean) : k.Repeats (k'.mapNetwork Graph.clean) := by
  rcases h.cases with ⟨hleaf, rfl⟩ | ⟨s, network, rfl, rfl, hnetwork⟩
  · cases k' with
    | subnet s => exact absurd rfl (hleaf s)
    | _ => exact h
  · exact Kind.repeats_subnet (hinside s rfl network hnetwork)

/-- Marks do not count. -/
theorem Graph.Repeats.clean : ∀ {g g' : Graph}, g.Repeats g' → g.Repeats g'.clean := by
  intro g
  induction g using Graph.network_induction with
  | step g ih =>
    intro g' h
    obtain ⟨hname, hnodes, hends⟩ := Graph.repeats_iff.mp h
    refine Graph.repeats_iff.mpr ⟨?_, ?_, (Graph.endpoints_clean g').trans hends⟩
    · rw [Graph.clean_eq]
      exact hname
    · rw [Graph.clean_eq, List.forall₂_map_right_iff]
      refine (forall₂_mem hnodes).imp ?_
      rintro n n' ⟨⟨hsame, hkind⟩, hn, _⟩
      exact ⟨hsame, hkind.mapNetwork_clean fun s hk _ => ih s.network ⟨n, hn, s, hk, rfl⟩⟩

/-- A kind says what it says, if its network does. -/
theorem Kind.repeats_self {k : Kind} (hinside : ∀ s, k = .subnet s → s.network.Repeats s.network) :
    k.Repeats k := by
  cases k with
  | subnet s =>
    cases s
    exact Kind.repeats_subnet (hinside _ rfl)
  | _ => exact Kind.repeats_of_leaf nofun

/-- A graph says what it says. -/
theorem Graph.repeats_refl (g : Graph) : g.Repeats g := by
  induction g using Graph.network_induction with
  | step g ih =>
    refine Graph.repeats_iff.mpr ⟨rfl, List.forall₂_same.mpr fun n hn => ⟨rfl, ?_⟩, rfl⟩
    exact Kind.repeats_self fun s hk => ih s.network ⟨n, hn, s, hk, rfl⟩

/-! ## §3. Saving and loading -/

mutual

/-- A graph saved and loaded again: the networks of its subnets first, then the document that has
    them. -/
def Graph.reload : Graph → Supply → Except DocumentError (Graph × Supply)
  | { name, nodes, connections, version, error }, supply => do
    let g : Graph := { name, nodes, connections, version, error }
    let (entries, supply) ← Node.reloadAll nodes supply
    Document.load { name, nodes := entries, wires := g.toDocument.wires } supply

/-- The entries of nodes, with the networks of subnets saved and loaded again. -/
def Node.reloadAll : List Node → Supply → Except DocumentError (List (String × Kind) × Supply)
  | [], supply => pure ([], supply)
  | { name, kind, .. } :: ns, supply => do
    let (kind, supply) ← kind.reload supply
    let (entries, supply) ← Node.reloadAll ns supply
    pure ((name, kind) :: entries, supply)

/-- A kind with its network saved and loaded again. -/
def Kind.reload : Kind → Supply → Except DocumentError (Kind × Supply)
  | .subnet { inputs, outputs, block, network }, supply => do
    let (network, supply) ← network.reload supply
    pure (.subnet { inputs, outputs, block, network }, supply)
  | kind, supply => pure (kind, supply)

end

section Reloading

variable {supply rest : Supply} {entries : List (String × Kind)}

/-- The document that is loaded in place of a graph, from the entries of its nodes. -/
def Graph.documentOf (g : Graph) (entries : List (String × Kind)) : Document :=
  { g.toDocument with nodes := entries }

theorem Graph.reload_eq_ok :
    g.reload supply = .ok (g', rest) ↔ ∃ entries middle,
      Node.reloadAll g.nodes supply = .ok (entries, middle) ∧
        (g.documentOf entries).load middle = .ok (g', rest) := by
  cases g
  rw [Graph.reload, bind_eq_ok]
  constructor
  · rintro ⟨⟨entries, middle⟩, hentries, hload⟩
    exact ⟨entries, middle, hentries, hload⟩
  · rintro ⟨entries, middle, hentries, hload⟩
    exact ⟨(entries, middle), hentries, hload⟩

theorem Kind.reload_of_leaf {k : Kind} (hleaf : ∀ s, k ≠ .subnet s) (supply : Supply) :
    k.reload supply = .ok (k, supply) := by
  cases k with
  | subnet s => exact absurd rfl (hleaf s)
  | _ => simp [Kind.reload, pure, Except.pure]

theorem Kind.reload_subnet_eq_ok {s : Subnet} {k : Kind} :
    (Kind.subnet s).reload supply = .ok (k, rest) ↔
      ∃ network, s.network.reload supply = .ok (network, rest) ∧ k = .subnet { s with network } := by
  cases s
  rw [Kind.reload, bind_eq_ok]
  constructor
  · rintro ⟨⟨network, middle⟩, hnetwork, h⟩
    cases pure_eq_ok.mp h
    exact ⟨network, hnetwork, rfl⟩
  · rintro ⟨network, hnetwork, rfl⟩
    exact ⟨(network, rest), hnetwork, rfl⟩

/-- What comes back of nodes says the same if what comes back of their networks does. -/
theorem Node.repeats_of_reloadAll :
    ∀ {ns : List Node} {supply rest : Supply} {entries : List (String × Kind)},
      (∀ n ∈ ns, ∀ s, n.kind = .subnet s → ∀ supply network rest,
        s.network.reload supply = .ok (network, rest) → s.network.Repeats network) →
      Node.reloadAll ns supply = .ok (entries, rest) →
        List.Forall₂ (fun n e => n.name = e.1 ∧ n.kind.Repeats e.2) ns entries
  | [], supply, rest, entries, _, h => by
    rw [Node.reloadAll] at h
    cases pure_eq_ok.mp h
    exact .nil
  | { id, name, kind, dirty, error } :: ns, supply, rest, entries, hinside, h => by
    obtain ⟨hfirst, hothers⟩ := List.forall_mem_cons.mp hinside
    rw [Node.reloadAll] at h
    obtain ⟨⟨k, middle⟩, hkind, h⟩ := bind_eq_ok.mp h
    obtain ⟨⟨entries', last⟩, hentries, h⟩ := bind_eq_ok.mp h
    cases pure_eq_ok.mp h
    refine .cons ⟨rfl, ?_⟩ (Node.repeats_of_reloadAll hothers hentries)
    -- only the network of a subnet is loaded anew
    by_cases hleaf : ∀ s, kind ≠ .subnet s
    · rw [Kind.reload_of_leaf hleaf] at hkind
      cases hkind
      exact Kind.repeats_of_leaf hleaf
    · simp only [ne_eq, not_forall, not_not] at hleaf
      obtain ⟨s, rfl⟩ := hleaf
      obtain ⟨network, hnetwork, rfl⟩ := Kind.reload_subnet_eq_ok.mp hkind
      exact Kind.repeats_subnet (hfirst s rfl supply network middle hnetwork)

/-- A kind comes back exactly if its network does. -/
theorem Kind.exists_reload_iff {P : Graph → Prop} {k : Kind} (supply : Supply)
    (hinside : ∀ s, k = .subnet s → ∀ supply,
      (∃ network rest, s.network.reload supply = .ok (network, rest)) ↔ P s.network) :
    (∃ k' rest, k.reload supply = .ok (k', rest)) ↔ ∀ s, k = .subnet s → P s.network := by
  constructor
  · rintro ⟨k', rest, h⟩ s rfl
    obtain ⟨network, hnetwork, _⟩ := Kind.reload_subnet_eq_ok.mp h
    exact (hinside s rfl supply).mp ⟨network, rest, hnetwork⟩
  · intro hall
    cases k with
    | subnet s =>
      obtain ⟨network, rest, hnetwork⟩ := (hinside s rfl supply).mpr (hall s rfl)
      exact ⟨_, rest, Kind.reload_subnet_eq_ok.mpr ⟨network, hnetwork, rfl⟩⟩
    | _ =>
      refine ⟨_, _, Kind.reload_of_leaf ?_ supply⟩
      nofun

/-- All nodes come back exactly if all their networks do. -/
theorem Node.exists_reloadAll_iff {P : Graph → Prop} :
    ∀ {ns : List Node} (supply : Supply),
      (∀ n ∈ ns, ∀ s, n.kind = .subnet s → ∀ supply,
        (∃ network rest, s.network.reload supply = .ok (network, rest)) ↔ P s.network) →
      ((∃ entries rest, Node.reloadAll ns supply = .ok (entries, rest)) ↔
        ∀ n ∈ ns, ∀ s, n.kind = .subnet s → P s.network)
  | [], supply, _ => by
    rw [Node.reloadAll]
    exact iff_of_true ⟨[], supply, rfl⟩ nofun
  | { id, name, kind, dirty, error } :: ns, supply, hinside => by
    obtain ⟨hfirst, hothers⟩ := List.forall_mem_cons.mp hinside
    have hkind := Kind.exists_reload_iff supply hfirst
    have hrest := fun middle => Node.exists_reloadAll_iff middle hothers
    rw [Node.reloadAll, List.forall_mem_cons]
    constructor
    · rintro ⟨entries, rest, h⟩
      obtain ⟨⟨k, middle⟩, hk, h⟩ := bind_eq_ok.mp h
      obtain ⟨⟨entries', last⟩, hentries, _⟩ := bind_eq_ok.mp h
      exact ⟨hkind.mp ⟨k, middle, hk⟩, (hrest middle).mp ⟨entries', last, hentries⟩⟩
    · rintro ⟨hall, hallRest⟩
      obtain ⟨k, middle, hk⟩ := hkind.mpr hall
      obtain ⟨entries, last, hentries⟩ := (hrest middle).mpr hallRest
      exact ⟨_, _, bind_eq_ok.mpr ⟨_, hk, bind_eq_ok.mpr ⟨_, hentries, rfl⟩⟩⟩

end Reloading

/-! ## §4. What comes back -/

/-- A network whose names and connections are in order. -/
structure Graph.Orderly (g : Graph) : Prop extends g.Named, g.Coherent

/-- Whether the names of all ports at the ends of connections are plain. -/
def Graph.Plainly (g : Graph) : Prop := ∀ c ∈ g.connections, Plain c.output ∧ Plain c.input

/-- The endpoints of a connection whose ends are there. -/
theorem Graph.Agrees.endpointsOf_eq {c : Connection} (h : g.Agrees c) :
    g.endpointsOf c =
      ⟨some (g.nameOf c.source), c.output, some (g.nameOf c.target), c.input⟩ := by
  obtain ⟨s, t, hs, ht, _⟩ := h
  rw [Graph.endpointsOf, hs, ht, Graph.nameOf_eq hs, Graph.nameOf_eq ht]
  rfl

/-- Lists that agree under one map agree under any other that the first one decides. -/
theorem map_eq_map_of {α α' β γ : Type} {f : α → β} {f' : α' → β} {k : α → γ} {k' : α' → γ} :
    ∀ {xs : List α} {xs' : List α'}, xs.map f = xs'.map f' →
      (∀ x ∈ xs, ∀ x' ∈ xs', f x = f' x' → k x = k' x') → xs.map k = xs'.map k'
  | [], [], _, _ => rfl
  | [], _ :: _, h, _ => by cases h
  | _ :: _, [], h, _ => by cases h
  | x :: xs, x' :: xs', h, hdecides => by
    rw [List.map_cons, List.map_cons, List.cons.injEq] at h
    have hfirst := hdecides x List.mem_cons_self x' List.mem_cons_self h.1
    have hrest := map_eq_map_of h.2 fun y hy y' hy' =>
      hdecides y (List.mem_cons_of_mem x hy) y' (List.mem_cons_of_mem x' hy')
    rw [List.map_cons, List.map_cons, hfirst, hrest]

namespace Graph.Orderly

/-- Connections of two networks that are shown by the same wires have the same endpoints. -/
theorem endpoints_eq (h : g.Orderly) (h' : g'.Orderly)
    (hwires : g.connections.map g.wireOf = g'.connections.map g'.wireOf) :
    g.endpoints = g'.endpoints := by
  refine map_eq_map_of hwires fun c hc c' hc' hwire => ?_
  obtain ⟨hsource, htarget⟩ := Wire.mk.inj hwire
  have hends := (endpoint_inj (h.dot_not_mem_nameOf _) (h'.dot_not_mem_nameOf _)).mp hsource
  have hends' := (endpoint_inj (h.dot_not_mem_nameOf _) (h'.dot_not_mem_nameOf _)).mp htarget
  rw [(h.typed c hc).endpointsOf_eq, (h'.typed c' hc').endpointsOf_eq, hends.1, hends.2, hends'.1,
    hends'.2]

/-- All connections are shown in the document. -/
theorem wires_toDocument (h : g.Orderly) : g.toDocument.wires = g.connections.map g.wireOf := by
  show g.connections.filterMap g.wire? = _
  rw [← List.filterMap_eq_map]
  exact List.filterMap_congr fun c hc => (h.typed c hc).wire?_eq

/-- Marks on a network leave its names and connections as they are. -/
theorem clean (h : g.Orderly) : g.clean.Orderly := by
  have hids : g.clean.nodes.map (·.id) = g.nodes.map (·.id) := by
    rw [Graph.clean_eq, List.map_map]
    rfl
  have hnames : g.clean.nodes.map (·.name) = g.nodes.map (·.name) := by
    rw [Graph.clean_eq, List.map_map]
    rfl
  have hconnections : g.clean.connections = g.connections := by rw [Graph.clean_eq]
  have hkeeps : ∀ id, g.KeepsPorts g.clean id := by
    intro id n hn
    refine ⟨_, by rw [Graph.node?_clean, hn, Option.map_some], ?_⟩
    cases hk : n.kind <;> simp only [Node.inputs, Node.outputs, hk] <;> exact ⟨rfl, rfl⟩
  refine { ids := hids ▸ h.ids, names := hnames ▸ h.names, fit := hnames ▸ h.fit, typed := ?_,
           fedOnce := hconnections ▸ h.fedOnce, acyclic := h.acyclic.mono ?_ }
  · intro c hc
    rw [hconnections] at hc
    exact (h.typed c hc).of_keepsPorts (hkeeps _) (hkeeps _)
  · rw [hconnections]
    exact fun _ hc => hc

end Graph.Orderly

/-- Marks do not show in wires. -/
theorem Graph.wireOf_clean (g : Graph) : g.clean.wireOf = g.wireOf := by
  have hname : g.clean.nameOf = g.nameOf := by
    funext id
    simp only [Graph.nameOf, Graph.node?_clean, Option.map_map, Function.comp_def]
  funext c
  rw [Graph.wireOf, Graph.wireOf, hname]

/-- What a document loads to, before marks are taken off: a graph in order with the nodes and the
    wires of the document. -/
theorem Document.exists_of_load {d : Document} {supply rest : Supply}
    (h : d.load supply = .ok (g, rest)) :
    ∃ made : Graph, g = made.clean ∧ made.Orderly ∧ made.Plainly ∧ made.name = d.name ∧
      made.nodes.map (fun n => (n.name, n.kind)) = d.nodes ∧
      d.wires = made.connections.map made.wireOf := by
  obtain ⟨⟨hfit, hnodup⟩, cs, hcs, hco, rfl, _⟩ := load_eq_ok.mp h
  rw [(listedBy_frame hcs).names_eq] at hfit hnodup
  refine ⟨_, rfl, ⟨⟨nodup_id_place supply d.nodes, hnodup, hfit⟩, hco⟩, hcs.plain, rfl, ?_,
    hcs.wires⟩
  show (place supply d.nodes).map (fun n => (n.name, n.kind)) = d.nodes
  rw [← List.forall₂_eq_eq_eq, List.forall₂_map_left_iff]
  exact (forall₂_place supply d.nodes).imp fun _ _ hmatch => Prod.ext hmatch.1 hmatch.2

/-- The document of which a graph comes back lists the graph. -/
theorem Graph.Orderly.listedBy_documentOf (h : g.Orderly) {entries : List (String × Kind)}
    (hentries : List.Forall₂ (fun n e => n.name = e.1 ∧ n.kind.Repeats e.2) g.nodes entries) :
    g.ListedBy (g.documentOf entries) where
  nodes := hentries.imp fun _ _ hmatch => ⟨hmatch.1, hmatch.2.inputs_eq, hmatch.2.outputs_eq⟩
  wires := h.wires_toDocument

/-- Of a graph in order, the document with entries that say the same loads exactly if all names of
    connected ports are plain. -/
theorem Graph.Orderly.exists_load_iff (h : g.Orderly) {entries : List (String × Kind)}
    (hentries : List.Forall₂ (fun n e => n.name = e.1 ∧ n.kind.Repeats e.2) g.nodes entries)
    (supply : Supply) :
    (∃ g' rest, (g.documentOf entries).load supply = .ok (g', rest)) ↔ g.Plainly := by
  rw [Document.exists_load_iff, (h.listedBy_documentOf hentries).valid_iff h.ids]
  exact ⟨fun hvalid => hvalid.2.2, fun hplain => ⟨h.toNamed, h.toCoherent, hplain⟩⟩

/-- What it loads to says the same. -/
theorem Graph.Orderly.repeats_of_load (h : g.Orderly) {entries : List (String × Kind)}
    (hentries : List.Forall₂ (fun n e => n.name = e.1 ∧ n.kind.Repeats e.2) g.nodes entries)
    {supply rest : Supply} (hload : (g.documentOf entries).load supply = .ok (g', rest)) :
    g.Repeats g' := by
  obtain ⟨made, rfl, hmade, _, hname, hnodes, hwires⟩ := Document.exists_of_load hload
  rw [(h.listedBy_documentOf hentries).wires] at hwires
  refine Graph.Repeats.clean (Graph.repeats_iff.mpr ⟨hname, ?_, (h.endpoints_eq hmade hwires).symm⟩)
  have hnodes : made.nodes.map (fun n => (n.name, n.kind)) = entries := hnodes
  rw [← hnodes, List.forall₂_map_right_iff] at hentries
  exact hentries

/-- **What comes back of a graph says the same**, at every depth. -/
theorem Graph.repeats_of_reload :
    ∀ {g : Graph}, g.Everywhere Graph.Orderly → ∀ {supply g' rest},
      g.reload supply = .ok (g', rest) → g.Repeats g' := by
  intro g
  induction g using Graph.network_induction with
  | step g ih =>
    intro h supply g' rest hreload
    obtain ⟨entries, middle, hentries, hload⟩ := Graph.reload_eq_ok.mp hreload
    refine h.here.repeats_of_load (Node.repeats_of_reloadAll ?_ hentries) hload
    intro n hn s hk supply network rest hnetwork
    have hinner : s.network.Nests g := ⟨n, hn, s, hk, rfl⟩
    exact ih s.network hinner (h.inside hinner) hnetwork

/-- **When something comes back of a graph**: exactly if all names of connected ports are plain, in
    every network. -/
theorem Graph.exists_reload_iff :
    ∀ {g : Graph}, g.Everywhere Graph.Orderly → ∀ supply : Supply,
      (∃ g' rest, g.reload supply = .ok (g', rest)) ↔ g.Everywhere Graph.Plainly := by
  intro g
  induction g using Graph.network_induction with
  | step g ih =>
    intro h supply
    -- what was reloaded repeats the nodes, so it loads under the same conditions
    have hentries : ∀ {entries supply rest}, Node.reloadAll g.nodes supply = .ok (entries, rest) →
        List.Forall₂ (fun n e => n.name = e.1 ∧ n.kind.Repeats e.2) g.nodes entries := by
      refine Node.repeats_of_reloadAll fun n hn s hk supply network rest hnetwork => ?_
      exact Graph.repeats_of_reload (h.inside ⟨n, hn, s, hk, rfl⟩) hnetwork
    have hnodes : ∀ supply, (∃ entries rest, Node.reloadAll g.nodes supply = .ok (entries, rest)) ↔
        ∀ n ∈ g.nodes, ∀ s, n.kind = .subnet s → s.network.Everywhere Graph.Plainly := by
      intro supply
      refine Node.exists_reloadAll_iff (P := fun network => network.Everywhere Graph.Plainly)
        supply fun n hn s hk supply => ?_
      have hinner : s.network.Nests g := ⟨n, hn, s, hk, rfl⟩
      exact ih s.network hinner (h.inside hinner) supply
    constructor
    · rintro ⟨g', rest, hreload⟩
      obtain ⟨entries, middle, hall, hload⟩ := Graph.reload_eq_ok.mp hreload
      refine .intro ((h.here.exists_load_iff (hentries hall) middle).mp ⟨g', rest, hload⟩) ?_
      rintro inner ⟨n, hn, s, hk, rfl⟩
      exact (hnodes supply).mp ⟨entries, middle, hall⟩ n hn s hk
    · intro hplain
      obtain ⟨entries, middle, hall⟩ := (hnodes supply).mpr fun n hn s hk =>
        hplain.inside ⟨n, hn, s, hk, rfl⟩
      obtain ⟨g', rest, hload⟩ := (h.here.exists_load_iff (hentries hall) middle).mpr hplain.here
      exact ⟨g', rest, Graph.reload_eq_ok.mpr ⟨entries, middle, hall, hload⟩⟩

/-! ## §5. Graphs that documents load to -/

/-- The graphs that documents load to, if the networks of subnets are such graphs. -/
inductive Graph.Loaded : Graph → Prop where
  | intro {d : Document} {supply rest : Supply} {g : Graph}
      (hinner : ∀ name s, (name, Kind.subnet s) ∈ d.nodes → Loaded s.network)
      (h : d.load supply = .ok (g, rest)) : Loaded g

/-- No changes are to be taken of such a graph. -/
theorem Graph.Loaded.clean_eq (h : g.Loaded) : g.clean = g := by
  obtain ⟨_, hload⟩ := h
  obtain ⟨made, rfl, _⟩ := Document.exists_of_load hload
  exact made.clean_clean

theorem Graph.Loaded.everywhere (h : g.Loaded) :
    g.Everywhere Graph.Orderly ∧ g.Everywhere Graph.Plainly := by
  induction h with
  | @intro d supply rest g hinner hload ih =>
    obtain ⟨made, rfl, hmade, hplain, _, hnodes, _⟩ := Document.exists_of_load hload
    have hinside : ∀ inner : Graph, inner.Nests made.clean →
        inner.Everywhere Graph.Orderly ∧ inner.Everywhere Graph.Plainly := by
      rintro inner ⟨n, hn, s, hk, rfl⟩
      rw [Graph.clean_eq] at hn
      obtain ⟨m, hm, rfl⟩ := List.mem_map.mp hn
      obtain ⟨own, hown, rfl⟩ := Kind.mapNetwork_eq_subnet hk
      have hentry : (m.name, Kind.subnet own) ∈ d.nodes := by
        rw [← hnodes, ← hown]
        exact List.mem_map_of_mem (f := fun n : Node => (n.name, n.kind)) hm
      show own.network.clean.Everywhere _ ∧ own.network.clean.Everywhere _
      rw [(hinner m.name own hentry).clean_eq]
      exact ih m.name own hentry
    have hconnections : made.clean.connections = made.connections := by rw [Graph.clean_eq]
    refine ⟨.intro hmade.clean fun inner h => (hinside inner h).1, .intro ?_ fun inner h =>
      (hinside inner h).2⟩
    intro c hc
    exact hplain c (hconnections ▸ hc)

namespace Document

variable {d : Document} {supply rest : Supply}

/-- A document without a trace of changes in the networks of its subnets. -/
def clean (d : Document) : Document :=
  { d with nodes := d.nodes.map fun (name, kind) => (name, kind.clean) }

/-- Whether the networks of the subnets of a document are graphs that documents load to. -/
def Settled (d : Document) : Prop :=
  ∀ name s, (name, Kind.subnet s) ∈ d.nodes → s.network.Loaded

theorem Settled.clean_eq (h : d.Settled) : d.clean = d := by
  have hkinds : ∀ e ∈ d.nodes, (e.1, e.2.clean) = e := by
    rintro ⟨name, kind⟩ he
    refine Prod.ext rfl ?_
    cases kind with
    | subnet s =>
      show (Kind.subnet s).clean = .subnet s
      rw [Kind.clean_eq, Kind.mapNetwork, (h name s he).clean_eq]
      cases s
      rfl
    | _ => simp [Kind.clean]
  rw [clean, (List.map_congr_left hkinds).trans (List.map_id _)]

/-- What a document loads to has that document. -/
theorem toDocument_of_load (h : d.load supply = .ok (g, rest)) : g.toDocument = d.clean := by
  obtain ⟨made, rfl, hmade, _, hname, hnodes, hwires⟩ := exists_of_load h
  have hnodesClean : made.clean.toDocument.nodes = d.clean.nodes := by
    show made.clean.nodes.map (fun n => (n.name, n.kind)) = _
    rw [clean, ← hnodes, Graph.clean_eq, List.map_map, List.map_map]
    exact List.map_congr_left fun n _ => Prod.ext rfl n.kind.clean_eq.symm
  have hwiresClean : made.clean.toDocument.wires = d.clean.wires := by
    rw [hmade.clean.wires_toDocument, Graph.wireOf_clean, Graph.clean_eq]
    exact hwires.symm
  have hnameClean : made.clean.toDocument.name = d.clean.name := by
    show made.clean.name = d.name
    rw [Graph.clean_eq, ← hname]
  calc made.clean.toDocument
      = ⟨made.clean.toDocument.name, made.clean.toDocument.nodes, made.clean.toDocument.wires⟩ := rfl
    _ = d.clean := by rw [hnameClean, hnodesClean, hwiresClean]

/-- **Loading is faithful.**  What a document loads to has that document, up to the marks on the
    networks of subnets, which have none if they were loaded themselves.  No node of it is dirty,
    and its document loads again, as it is or with its networks loaded first, to a graph that says
    the same. -/
theorem loads_faithfully (h : d.load supply = .ok (g, rest)) :
    g.toDocument = d.clean ∧ g.isDirty = false ∧
      (∀ again, ∃ g' rest', g.toDocument.load again = .ok (g', rest') ∧ g.Repeats g') ∧
      (d.Settled → g.toDocument = d ∧
        ∀ again, ∃ g' rest', g.reload again = .ok (g', rest') ∧ g.Repeats g') := by
  have hdocument := toDocument_of_load h
  obtain ⟨made, hg, hmade, hplain, _⟩ := exists_of_load h
  have horderly : g.Orderly := hg ▸ hmade.clean
  have hconnections : g.connections = made.connections := by rw [hg, Graph.clean_eq]
  have hentries : List.Forall₂ (fun n e => n.name = e.1 ∧ n.kind.Repeats e.2) g.nodes
      g.toDocument.nodes := by
    show List.Forall₂ _ g.nodes (g.nodes.map fun n => (n.name, n.kind))
    rw [List.forall₂_map_right_iff, List.forall₂_same]
    exact fun n _ => ⟨rfl, Kind.repeats_self fun s _ => s.network.repeats_refl⟩
  refine ⟨hdocument, hg ▸ made.isDirty_clean, fun again => ?_, fun hsettled => ⟨?_, fun again => ?_⟩⟩
  · have hloads := (horderly.exists_load_iff hentries again).mpr fun c hc =>
      hplain c (hconnections ▸ hc)
    obtain ⟨g', rest', hload⟩ := hloads
    exact ⟨g', rest', hload, horderly.repeats_of_load hentries hload⟩
  · rw [hdocument, hsettled.clean_eq]
  · obtain ⟨hall, hallPlain⟩ := (Graph.Loaded.intro hsettled h).everywhere
    obtain ⟨g', rest', hreload⟩ := (Graph.exists_reload_iff hall again).mpr hallPlain
    exact ⟨g', rest', hreload, Graph.repeats_of_reload hall hreload⟩

/-- The graph of a document, empty if it has none. -/
def loaded (d : Document) : Graph := ((d.load {}).toOption.map Prod.fst).getD (.empty d.name)

theorem load_eq_loaded (h : (d.load {}).toBool = true) : ∃ rest, d.load {} = .ok (d.loaded, rest) := by
  unfold loaded
  cases hload : d.load {} with
  | ok result => exact ⟨result.2, rfl⟩
  | error e =>
    rw [hload] at h
    cases h

/-- The network of a subnet that takes the half of a number. -/
def halving : Document where
  name := "halving"
  nodes :=
    [("subnet_input", .subnetInput [⟨"x", .float⟩]), ("half", .constant (.float .half)),
     ("product", .math .multiply .float), ("subnet_output", .subnetOutput [⟨"y", .float⟩])]
  wires :=
    [⟨"subnet_input.x", "product.a"⟩, ⟨"half.value", "product.b"⟩,
     ⟨"product.result", "subnet_output.y"⟩]

/-- A subnet fed with what is not a number. -/
def nesting : Document where
  name := "nesting"
  nodes :=
    [("k", .constant (.float (Binary32.ofBits 0x7fc00000))),
     ("halve", .subnet ⟨[⟨"x", .float⟩], [⟨"y", .float⟩], .always, halving.loaded⟩),
     ("turn", .math .sin .float)]
  wires := [⟨"k.value", "halve.x"⟩, ⟨"halve.y", "turn.x"⟩]

theorem nesting_loads_faithfully :
    ∃ rest, nesting.load {} = .ok (nesting.loaded, rest) ∧ nesting.Settled ∧
      nesting.loaded.toDocument = nesting ∧
      ∃ g' rest', nesting.loaded.reload rest = .ok (g', rest') ∧ nesting.loaded.Repeats g' := by
  obtain ⟨rest, hload⟩ := load_eq_loaded (d := nesting) (by decide +kernel)
  have hinner : halving.loaded.Loaded := by
    obtain ⟨rest, hhalving⟩ := load_eq_loaded (d := halving) (by decide +kernel)
    refine .intro (fun name s hs => ?_) hhalving
    simp [halving] at hs
  have hsettled : nesting.Settled := by
    intro name s hs
    simp only [nesting, List.mem_cons, Prod.mk.injEq, Kind.subnet.injEq, reduceCtorEq, and_false,
      false_or, List.not_mem_nil, or_false] at hs
    rw [hs.2]
    exact hinner
  obtain ⟨hdocument, hreload⟩ := (loads_faithfully hload).2.2.2 hsettled
  exact ⟨rest, hload, hsettled, hdocument, hreload rest⟩

end Document

end ShaderFlow
