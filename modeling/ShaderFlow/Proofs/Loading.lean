/-
  ShaderFlow.Proofs.Loading — which documents are documents of graphs.

  Loading takes the wires of a document one after the other and looks, for each, at what is there
  already: whether the input is free and whether the target leads back to the source.  A network
  that passed so far passes with one more connection exactly if the network with that connection
  has no input that is fed twice and no cycle.  So the order in which wires stand does not
  matter, and a document loads exactly if its names and its wires, taken together, are in order.

  Main definitions:
    * `Graph.Coherent`  — connections that can stand together in a network;
    * `Document.Makes`  — the connections that wires stand for;
    * `Graph.ListedBy`  — a document with the nodes and connections of a graph;
    * `Document.Valid`  — names and wires in order, said of the document alone.

  Main statements:
    * `Graph.Coherent.appendConnection_iff` — one connection more;
    * `Document.load_eq_ok`     — what loading comes to;
    * `Graph.ListedBy.valid_iff` — the document of a graph is valid as far as the graph is coherent;
    * `Document.loads_iff_valid` — a document loads exactly if it is valid.
-/

import ShaderFlow.Proofs.Endpoints

namespace ShaderFlow

open Relation

variable {g g' : Graph}

/-! ## §1. Connections that stand together -/

/-- Connections that can stand together in a network: their types agree, no input is fed twice,
    and no value depends on itself. -/
structure Graph.Coherent (g : Graph) : Prop where
  typed : g.Typed
  fedOnce : g.connections.Pairwise fun c d => c.target = d.target → c.input ≠ d.input
  acyclic : g.Acyclic

theorem Graph.coherent_of_connections_eq_nil (h : g.connections = []) : g.Coherent where
  typed := by
    intro c hc
    rw [h] at hc
    cases hc
  fedOnce := by
    rw [h]
    exact .nil
  acyclic := Graph.acyclic_of_connections_eq_nil h

/-- Fewer connections can stand together, too. -/
theorem Graph.Coherent.mono (h : g.Coherent) (hnodes : g'.nodes = g.nodes)
    (hsub : g'.connections.Sublist g.connections) : g'.Coherent where
  typed := by
    intro c hc
    have hagrees := h.typed c (hsub.subset hc)
    unfold Graph.Agrees Graph.node? at hagrees ⊢
    rw [hnodes]
    exact hagrees
  fedOnce := h.fedOnce.sublist hsub
  acyclic := h.acyclic.mono hsub.subset

/-- **One connection more.**  Where connections stand together, the checks let another one through
    exactly if it can stand with them. -/
theorem Graph.Coherent.appendConnection_iff (h : g.Coherent) {c : Connection} :
    (g.appendConnection c).Coherent ↔
      g.checkConnection c.source c.output c.target c.input = .ok () := by
  have hlast : c ∈ (g.appendConnection c).connections :=
    List.mem_append_right _ (List.mem_singleton_self c)
  constructor
  · intro hnew
    rw [Graph.checkConnection_eq_ok]
    refine ⟨hnew.typed c hlast, ?_, hnew.acyclic.ne hlast, ?_⟩
    · rw [Graph.inputSource?, List.find?_eq_none]
      intro d hd heq
      rw [Bool.and_eq_true, beq_iff_eq, beq_iff_eq] at heq
      have hapart := (List.pairwise_append.mp hnew.fedOnce).2.2 d hd c (List.mem_singleton_self c)
      exact hapart heq.1 heq.2
    · by_contra hdepends
      rw [Bool.not_eq_false, Graph.dependsOn_iff] at hdepends
      -- the way from the target back to the source is closed by the connection
      have hback : ReflTransGen (g.appendConnection c).Feeds c.target c.source :=
        ReflTransGen.mono (fun _ _ => Graph.Feeds.mono (List.subset_append_left _ _)) _ _ hdepends
      exact hnew.acyclic c.source (.head' ⟨c, hlast, rfl, rfl⟩ hback)
  · intro hcheck
    refine ⟨?_, ?_, ?_⟩
    · have hconnect : g.connect c.id c.source c.output c.target c.input =
          .ok (g.appendConnection c) := map_eq_ok.mpr ⟨(), hcheck, rfl⟩
      exact h.typed.connect hconnect
    · refine List.pairwise_append.mpr ⟨h.fedOnce, List.pairwise_singleton _ _, ?_⟩
      intro d hd c' hc' htarget
      rw [List.mem_singleton.mp hc'] at htarget ⊢
      exact Graph.unfed_of_checkConnection hcheck hd htarget
    · exact h.acyclic.appendConnection (Graph.checkConnection_eq_ok.mp hcheck).2.2.2

/-- A graph with more connections, one after the other. -/
def Graph.withConnections (g : Graph) (cs : List Connection) : Graph :=
  { g with connections := g.connections ++ cs, version := g.version + cs.length }

theorem Graph.withConnections_nil (g : Graph) : g.withConnections [] = g := by
  cases g
  rw [withConnections, List.append_nil]
  rfl

theorem Graph.withConnections_cons (g : Graph) (c : Connection) (cs : List Connection) :
    g.withConnections (c :: cs) = (g.appendConnection c).withConnections cs := by
  simp only [withConnections, appendConnection, List.append_assoc, List.singleton_append,
    List.length_cons]
  congr 1
  omega

/-- Of connections that stand together the first can stand alone. -/
theorem Graph.Coherent.first {c : Connection} {cs : List Connection}
    (h : (g.withConnections (c :: cs)).Coherent) : (g.appendConnection c).Coherent := by
  refine h.mono rfl ?_
  show (g.connections ++ [c]).Sublist (g.connections ++ c :: cs)
  exact (List.Sublist.cons_cons c (List.nil_sublist cs)).append_left _

/-! ## §2. Wires one after the other -/

namespace Document

/-- The connections that wires stand for among the nodes of a graph, with identities in a row. -/
inductive Makes (g : Graph) : Supply → List Wire → List Connection → Prop where
  | nil (supply : Supply) : Makes g supply [] []
  | cons {supply : Supply} {c : Connection} {ws : List Wire} {cs : List Connection}
      (hid : c.id = supply.connection.1) (hplain : Plain c.output ∧ Plain c.input)
      (hrest : Makes g supply.connection.2 ws cs) : Makes g supply (g.wireOf c :: ws) (c :: cs)

variable {supply rest : Supply} {ws : List Wire} {cs : List Connection}

theorem Makes.wires (h : Makes g supply ws cs) : ws = cs.map g.wireOf := by
  induction h with
  | nil => rfl
  | cons _ _ _ ih => rw [ih, List.map_cons]

/-- A connection changes no node, so what wires stand for stays the same when one is made. -/
theorem makes_appendConnection_iff {c : Connection} :
    Makes (g.appendConnection c) supply ws cs ↔ Makes g supply ws cs := by
  constructor <;> intro h <;> induction h with
  | nil => exact .nil _
  | cons hid hplain _ ih => exact .cons hid hplain ih

theorem Makes.plain (h : Makes g supply ws cs) : ∀ c ∈ cs, Plain c.output ∧ Plain c.input := by
  induction h with
  | nil => nofun
  | cons _ hplain _ ih => exact List.forall_mem_cons.mpr ⟨hplain, ih⟩

/-- Wires that each stand for a connection stand for connections with identities in a row. -/
theorem exists_makes :
    ∀ (supply : Supply) {ws : List Wire},
      (∀ w ∈ ws, ∃ c, w = g.wireOf c ∧ Plain c.output ∧ Plain c.input) → ∃ cs, Makes g supply ws cs
  | supply, [], _ => ⟨[], .nil supply⟩
  | supply, w :: ws, h => by
    obtain ⟨⟨c, rfl, hplain⟩, htail⟩ := List.forall_mem_cons.mp h
    obtain ⟨cs, hcs⟩ := exists_makes supply.connection.2 htail
    exact ⟨_, .cons (c := { c with id := supply.connection.1 }) rfl hplain hcs⟩

/-- **What the wires of a document come to**: the connections that they stand for, provided these
    can stand together. -/
theorem loadWires_eq_ok :
    ∀ {ws : List Wire} {g g' : Graph} {supply rest : Supply}, g.Named → g.Coherent →
      (loadWires g supply ws = .ok (g', rest) ↔
        ∃ cs, Makes g supply ws cs ∧ (g.withConnections cs).Coherent ∧
          g' = g.withConnections cs ∧ rest = ⟨supply.next + ws.length⟩)
  | [], g, g', supply, rest, _, hco => by
    rw [loadWires, Except.ok.injEq, Prod.mk.injEq]
    constructor
    · rintro ⟨rfl, rfl⟩
      refine ⟨[], .nil supply, ?_, (g.withConnections_nil).symm, rfl⟩
      rw [Graph.withConnections_nil]
      exact hco
    · rintro ⟨cs, ⟨⟩, _, rfl, rfl⟩
      exact ⟨g.withConnections_nil.symm, rfl⟩
  | w :: ws, g, g', supply, rest, hnamed, hco => by
    -- the network is sound after each wire, so what the check of a wire says is what the end says
    have hcount : ∀ n : Nat, (⟨supply.next + 1 + n⟩ : Supply) = ⟨supply.next + (n + 1)⟩ := by
      intro n
      congr 1
      omega
    rw [loadWires]
    constructor
    · intro h
      obtain ⟨middle, hwire, h⟩ := bind_eq_ok.mp h
      obtain ⟨c, hid, rfl, hplain, hcheck, rfl⟩ := (loadWire_eq_ok hnamed).mp hwire
      have hmiddle := hco.appendConnection_iff.mpr hcheck
      obtain ⟨cs, hcs, hall, rfl, rfl⟩ :=
        (loadWires_eq_ok (hnamed.appendConnection c) hmiddle).mp h
      rw [← Graph.withConnections_cons] at hall ⊢
      exact ⟨c :: cs, .cons hid hplain (makes_appendConnection_iff.mp hcs), hall, rfl, hcount _⟩
    · rintro ⟨_, hcs, hall, rfl, rfl⟩
      cases hcs with
      | @cons _ c _ cs hid hplain hcs =>
        have hmiddle := hall.first
        have hwire : loadWire g supply.connection.1 (g.wireOf c) = .ok (g.appendConnection c) :=
          (loadWire_eq_ok hnamed).mpr
            ⟨c, hid, rfl, hplain, hco.appendConnection_iff.mp hmiddle, rfl⟩
        refine bind_eq_ok.mpr ⟨_, hwire, ?_⟩
        rw [Graph.withConnections_cons] at hall ⊢
        exact (loadWires_eq_ok (hnamed.appendConnection c) hmiddle).mpr
          ⟨cs, makes_appendConnection_iff.mpr hcs, hall, rfl, (hcount _).symm⟩

/-! ## §3. Nodes one after the other -/

/-- The nodes of a document, with identities in a row. -/
def place (supply : Supply) : List (String × Kind) → List Node
  | [] => []
  | (name, kind) :: entries => .make supply.node.1 name kind :: place supply.node.2 entries

theorem map_name_place :
    ∀ (supply : Supply) (entries : List (String × Kind)),
      (place supply entries).map (·.name) = entries.map Prod.fst
  | _, [] => rfl
  | supply, (name, kind) :: entries => by
    rw [place, List.map_cons, List.map_cons, map_name_place]
    rfl

theorem map_id_place :
    ∀ (supply : Supply) (entries : List (String × Kind)),
      (place supply entries).map (·.id) =
        (List.range' supply.next entries.length).map NodeId.mk
  | _, [] => rfl
  | supply, (name, kind) :: entries => by
    rw [place, List.map_cons, map_id_place, List.length_cons, List.range'_succ, List.map_cons]
    rfl

theorem nodup_id_place (supply : Supply) (entries : List (String × Kind)) :
    ((place supply entries).map (·.id)).Nodup := by
  rw [map_id_place]
  exact List.Nodup.map (fun _ _ h => NodeId.mk.inj h) List.nodup_range'

/-- Nodes and the entries that they were made of. -/
theorem forall₂_place :
    ∀ (supply : Supply) (entries : List (String × Kind)),
      List.Forall₂ (fun n e => n.name = e.1 ∧ n.kind = e.2) (place supply entries) entries
  | _, [] => .nil
  | supply, (_, _) :: entries => .cons ⟨rfl, rfl⟩ (forall₂_place supply.node.2 entries)

/-- A node is added under its own name if that is fit for code and free. -/
theorem loadNode_eq_ok {id : NodeId} {name : String} {kind : Kind} :
    loadNode g id name kind = .ok g' ↔ (FitForCode name ∧ name ∉ g.nodes.map (·.name)) ∧
      g' = { g with nodes := g.nodes ++ [.make id name kind], version := g.version + 1 } := by
  unfold loadNode
  rw [← Graph.hasName_iff, guard_eq_ok, Bool.not_eq_true]
  constructor
  · rintro ⟨hfree, h⟩
    split at h
    next hname =>
      cases h
      rw [beq_iff_eq] at hname
      refine ⟨⟨hname ▸ g.fitForCode_freeName name, hfree⟩, ?_⟩
      simp only [Graph.add, Graph.insertNode, Node.make, hname]
    next => cases h
  · rintro ⟨⟨hfit, hfree⟩, rfl⟩
    have hname : g.freeName name = name := by
      unfold Graph.freeName
      rw [hfit.cleanName_eq]
      simp [hfree]
    refine ⟨hfree, ?_⟩
    rw [if_pos (by simpa using hname)]
    simp only [Graph.add, Graph.insertNode, Node.make, hname]

/-- **What the nodes of a document come to.** -/
theorem loadNodes_eq_ok :
    ∀ {entries : List (String × Kind)} {g g' : Graph} {supply rest : Supply},
      loadNodes g supply entries = .ok (g', rest) ↔
        ((∀ name ∈ entries.map Prod.fst, FitForCode name ∧ name ∉ g.nodes.map (·.name)) ∧
          (entries.map Prod.fst).Nodup) ∧
        g' = { g with nodes := g.nodes ++ place supply entries
                      version := g.version + entries.length } ∧
        rest = ⟨supply.next + entries.length⟩
  | [], ⟨_, _, _, _, _⟩, g', supply, rest => by
    rw [loadNodes, Except.ok.injEq, Prod.mk.injEq, place, List.append_nil]
    constructor
    · rintro ⟨rfl, rfl⟩
      exact ⟨⟨nofun, List.nodup_nil⟩, rfl, rfl⟩
    · rintro ⟨_, rfl, rfl⟩
      exact ⟨rfl, rfl⟩
  | (name, kind) :: entries, g, g', supply, rest => by
    have hcount : supply.next + 1 + entries.length = supply.next + (entries.length + 1) := by omega
    have hversion : g.version + 1 + entries.length = g.version + (entries.length + 1) := by omega
    rw [loadNodes, bind_eq_ok, List.map_cons, List.forall_mem_cons, List.nodup_cons, place,
      List.length_cons, ← hcount, ← hversion]
    constructor
    · rintro ⟨middle, hnode, h⟩
      obtain ⟨hname, rfl⟩ := loadNode_eq_ok.mp hnode
      -- the names behind this one are checked against the network that has it already
      obtain ⟨⟨hrest, hnodup⟩, rfl, rfl⟩ := loadNodes_eq_ok.mp h
      simp only [List.map_append, List.map_singleton, List.mem_append, List.mem_singleton,
        not_or] at hrest
      refine ⟨⟨⟨hname, fun other hother => ?_⟩, fun hmem => ?_, hnodup⟩, ?_, rfl⟩
      · exact ⟨(hrest other hother).1, (hrest other hother).2.1⟩
      · exact (hrest name hmem).2.2 rfl
      · simp only [List.append_assoc, List.singleton_append]
    · rintro ⟨⟨⟨hname, hrest⟩, hnew, hnodup⟩, rfl, rfl⟩
      refine ⟨_, loadNode_eq_ok.mpr ⟨hname, rfl⟩, loadNodes_eq_ok.mpr ⟨⟨?_, hnodup⟩, ?_, rfl⟩⟩
      · intro other hother
        simp only [List.map_append, List.map_singleton, List.mem_append, List.mem_singleton, not_or]
        refine ⟨(hrest other hother).1, (hrest other hother).2, ?_⟩
        rintro rfl
        exact hnew hother
      · simp only [List.append_assoc, List.singleton_append]

/-! ## §4. What loading comes to -/

/-- The nodes of a document as a graph without connections. -/
def frame (d : Document) (supply : Supply) : Graph :=
  { name := d.name, nodes := place supply d.nodes, connections := [], version := d.nodes.length,
    error := none }

/-- The names of the nodes of a document. -/
def names (d : Document) : List String := d.nodes.map Prod.fst

/-- **What loading comes to**: the nodes of the document and the connections that its wires stand
    for, provided the names are fit and different and the connections can stand together. -/
theorem load_eq_ok {d : Document} :
    d.load supply = .ok (g, rest) ↔
      ((∀ name ∈ d.names, FitForCode name) ∧ d.names.Nodup) ∧
      ∃ cs, Makes (d.frame supply) ⟨supply.next + d.nodes.length⟩ d.wires cs ∧
        ((d.frame supply).withConnections cs).Coherent ∧
        g = ((d.frame supply).withConnections cs).clean ∧
        rest = ⟨supply.next + d.nodes.length + d.wires.length⟩ := by
  have hframe : d.frame supply = { Graph.empty d.name with
      nodes := (Graph.empty d.name).nodes ++ place supply d.nodes
      version := (Graph.empty d.name).version + d.nodes.length } := by
    simp [frame, Graph.empty]
  have hnamed : (∀ name ∈ d.names, FitForCode name) → d.names.Nodup → (d.frame supply).Named := by
    intro hfit hnodup
    refine ⟨nodup_id_place supply d.nodes, ?_, ?_⟩
    · exact (map_name_place supply d.nodes).symm ▸ hnodup
    · exact (map_name_place supply d.nodes).symm ▸ hfit
  -- nodes come first: the frame has them all, and no connections
  have hbare : (d.frame supply).Coherent := Graph.coherent_of_connections_eq_nil rfl
  unfold load
  constructor
  · intro h
    obtain ⟨⟨middle, supply'⟩, hnodes, h⟩ := bind_eq_ok.mp h
    obtain ⟨⟨last, rest'⟩, hwires, h⟩ := bind_eq_ok.mp h
    cases pure_eq_ok.mp h
    obtain ⟨⟨hfit, hnodup⟩, rfl, rfl⟩ := loadNodes_eq_ok.mp hnodes
    have hfit : ∀ name ∈ d.names, FitForCode name := fun name hname => (hfit name hname).1
    rw [← hframe] at hwires
    obtain ⟨cs, hcs, hall, rfl, rfl⟩ := (loadWires_eq_ok (hnamed hfit hnodup) hbare).mp hwires
    exact ⟨⟨hfit, hnodup⟩, cs, hcs, hall, rfl, rfl⟩
  · rintro ⟨⟨hfit, hnodup⟩, cs, hcs, hall, rfl, rfl⟩
    have hnodes : loadNodes (.empty d.name) supply d.nodes =
        .ok (d.frame supply, ⟨supply.next + d.nodes.length⟩) :=
      loadNodes_eq_ok.mpr ⟨⟨fun name hname => ⟨hfit name hname, nofun⟩, hnodup⟩, hframe, rfl⟩
    have hwires := (loadWires_eq_ok (hnamed hfit hnodup) hbare).mpr ⟨cs, hcs, hall, rfl, rfl⟩
    exact bind_eq_ok.mpr ⟨_, hnodes, bind_eq_ok.mpr ⟨_, hwires, rfl⟩⟩

/-! ## §5. Valid documents -/

/-- Whether a wire leads from an output of a node of a document to an input of one, whose types
    agree.  Of ports of one name the first is meant. -/
def Joins (d : Document) (w : Wire) : Prop :=
  ∃ source output target input, CutsInto w.source source output ∧ CutsInto w.target target input ∧
    ∃ k k', (source, k) ∈ d.nodes ∧ (target, k') ∈ d.nodes ∧
      ∃ o i, k.outputs.find? (·.name == output) = some o ∧
        k'.inputs.find? (·.name == input) = some i ∧ o.type.connectsTo i.type = true

/-- Whether a wire leads from one node to another, by their names. -/
def Feeds (d : Document) (source target : String) : Prop :=
  ∃ w ∈ d.wires, ∃ output input, CutsInto w.source source output ∧ CutsInto w.target target input

/-- A document that is in order. -/
structure Valid (d : Document) : Prop where
  /-- Names are of ASCII letters, digits and underscores. -/
  fit : ∀ name ∈ d.names, FitForCode name
  distinct : d.names.Nodup
  joined : ∀ w ∈ d.wires, d.Joins w
  /-- No two wires lead to one input. -/
  fedOnce : (d.wires.map (·.target)).Nodup
  acyclic : ∀ name, ¬TransGen d.Feeds name name

end Document

/-- The inputs of a kind are inputs. -/
theorem Kind.direction_of_mem_inputs {k : Kind} {port : Port} (h : port ∈ k.inputs) :
    port.direction = .input := by
  cases k with
  | math op type =>
    obtain ⟨_, _, rfl⟩ := List.mem_map.mp h
    rfl
  | function name specs type =>
    obtain ⟨_, _, rfl⟩ := List.mem_map.mp h
    rfl
  | subnet s =>
    obtain ⟨_, _, rfl⟩ := List.mem_map.mp h
    rfl
  | subnetOutput ports =>
    obtain ⟨_, _, rfl⟩ := List.mem_map.mp h
    rfl
  | output target =>
    have hall : ∀ port ∈ target.inputs, port.direction = .input := by cases target <;> decide
    exact hall port h
  | constant value | param name type value | globals | varyingRead name type | subnetInput ports =>
    cases h
  | _ =>
    rw [List.mem_singleton.mp h]
    rfl

/-- The outputs of a kind are outputs. -/
theorem Kind.direction_of_mem_outputs {k : Kind} {port : Port} (h : port ∈ k.outputs) :
    port.direction = .output := by
  cases k with
  | subnet s =>
    obtain ⟨_, _, rfl⟩ := List.mem_map.mp h
    rfl
  | subnetInput ports =>
    obtain ⟨_, _, rfl⟩ := List.mem_map.mp h
    rfl
  | globals =>
    have hall : ∀ port ∈ globalOutputs, port.direction = .output := by decide
    exact hall port h
  | varyingWrite name type | output target | subnetOutput ports => cases h
  | _ =>
    rw [List.mem_singleton.mp h]
    rfl

/-- Between an output and an input only the types count. -/
theorem Kind.canConnect_eq {k k' : Kind} {o i : Port} (ho : o ∈ k.outputs) (hi : i ∈ k'.inputs) :
    o.canConnect i = o.type.connectsTo i.type := by
  rw [Port.canConnect, direction_of_mem_outputs ho, direction_of_mem_inputs hi]

/-- A document that lists the nodes of a graph, under kinds with the same ports, and its
    connections. -/
structure Graph.ListedBy (g : Graph) (d : Document) : Prop where
  nodes : List.Forall₂
    (fun n e => n.name = e.1 ∧ n.inputs = e.2.inputs ∧ n.outputs = e.2.outputs) g.nodes d.nodes
  wires : d.wires = g.connections.map g.wireOf

/-- Ways through labelled places are ways by other labels, if the first labels tell the places
    apart. -/
theorem transGen_relabel {ν α β : Type} {P : ν → Prop} {f : ν → α} {f' : ν → β}
    {r : α → α → Prop} {r' : β → β → Prop} (hinj : ∀ s t, P s → P t → f s = f t → s = t)
    (hstep : ∀ a b, r a b → ∃ s t, (P s ∧ f s = a) ∧ (P t ∧ f t = b) ∧ r' (f' s) (f' t))
    {a b : α} (h : TransGen r a b) :
    ∃ s t, (P s ∧ f s = a) ∧ (P t ∧ f t = b) ∧ TransGen r' (f' s) (f' t) := by
  induction h with
  | single hab =>
    obtain ⟨s, t, hs, ht, hst⟩ := hstep _ _ hab
    exact ⟨s, t, hs, ht, .single hst⟩
  | tail _ hbc ih =>
    obtain ⟨s, t, hs, ht, hpath⟩ := ih
    obtain ⟨t', u, ht', hu, hedge⟩ := hstep _ _ hbc
    obtain rfl := hinj t t' ht.1 ht'.1 (ht.2.trans ht'.2.symm)
    exact ⟨s, u, hs, hu, hpath.tail hedge⟩

namespace Graph.ListedBy

variable {d : Document} {c : Connection}

theorem names_eq (h : g.ListedBy d) : d.names = g.nodes.map (·.name) := by
  unfold Document.names
  rw [← List.forall₂_eq_eq_eq, List.forall₂_map_left_iff, List.forall₂_map_right_iff]
  exact h.nodes.flip.imp fun _ _ hmatch => hmatch.1.symm

/-- The entry of a node. -/
theorem exists_entry (h : g.ListedBy d) {n : Node} (hn : n ∈ g.nodes) :
    ∃ k, (n.name, k) ∈ d.nodes ∧ n.inputs = k.inputs ∧ n.outputs = k.outputs := by
  obtain ⟨⟨_, k⟩, hk, rfl, hports⟩ := exists_mem_of_forall₂ h.nodes n hn
  exact ⟨k, hk, hports⟩

/-- The node of an entry. -/
theorem exists_node (h : g.ListedBy d) {name : String} {k : Kind} (hk : (name, k) ∈ d.nodes) :
    ∃ n ∈ g.nodes, n.name = name ∧ n.inputs = k.inputs ∧ n.outputs = k.outputs :=
  exists_mem_of_forall₂ h.nodes.flip (name, k) hk

/-- **A wire is in order exactly if the connection that it shows is**, and the names of its ports
    are plain. -/
theorem joins_iff (h : g.ListedBy d) (hg : g.Named) :
    d.Joins (g.wireOf c) ↔ g.Agrees c ∧ Plain c.output ∧ Plain c.input := by
  constructor
  · rintro ⟨_, _, _, _, hsource, htarget, k, k', hk, hk', o, i, ho, hi, htypes⟩
    obtain ⟨s, hs, rfl, _, houtputs⟩ := h.exists_node hk
    obtain ⟨t, ht, rfl, hinputs, _⟩ := h.exists_node hk'
    obtain ⟨hs, rfl, houtput⟩ := (hg.cutsInto_iff hs).mp hsource
    obtain ⟨ht, rfl, hinput⟩ := (hg.cutsInto_iff ht).mp htarget
    refine ⟨⟨s, t, hs, ht, o, i, ?_, ?_, ?_⟩, houtput, hinput⟩
    · rw [Node.output?, houtputs]
      exact ho
    · rw [Node.input?, hinputs]
      exact hi
    · rw [Kind.canConnect_eq (List.mem_of_find?_eq_some ho) (List.mem_of_find?_eq_some hi)]
      exact htypes
  · rintro ⟨⟨s, t, hs, ht, o, i, ho, hi, hagree⟩, houtput, hinput⟩
    have hsmem := Graph.mem_of_node? hs
    have htmem := Graph.mem_of_node? ht
    obtain ⟨k, hk, _, houtputs⟩ := h.exists_entry hsmem
    obtain ⟨k', hk', hinputs, _⟩ := h.exists_entry htmem
    rw [Node.output?, houtputs] at ho
    rw [Node.input?, hinputs] at hi
    rw [Kind.canConnect_eq (List.mem_of_find?_eq_some ho) (List.mem_of_find?_eq_some hi)] at hagree
    exact ⟨s.name, c.output, t.name, c.input, (hg.cutsInto_iff hsmem).mpr ⟨hs, rfl, houtput⟩,
      (hg.cutsInto_iff htmem).mpr ⟨ht, rfl, hinput⟩, k, k', hk, hk', o, i, ho, hi, hagree⟩

/-- Where the ends of connections are nodes, wires lead to one input if and only if connections
    do. -/
theorem target_wireOf_eq_iff (hg : g.Named) {c d : Connection} (hc : g.Agrees c) (hd : g.Agrees d) :
    (g.wireOf c).target = (g.wireOf d).target ↔ c.target = d.target ∧ c.input = d.input := by
  obtain ⟨_, t, _, ht, _⟩ := hc
  obtain ⟨_, u, _, hu, _⟩ := hd
  show g.nameOf c.target ++ "." ++ c.input = g.nameOf d.target ++ "." ++ d.input ↔ _
  rw [endpoint_inj (hg.dot_not_mem_nameOf _) (hg.dot_not_mem_nameOf _), Graph.nameOf_eq hu,
    hg.nameOf_eq_iff (Graph.mem_of_node? hu), and_congr_left_iff]
  rintro -
  constructor
  · intro hsame
    rw [← Graph.id_of_node? hu, ← Graph.id_of_node? hsame]
  · intro hsame
    rw [hsame]
    exact hu

/-- The nodes at the ends of a connection whose wire is in order, by the names in that wire. -/
theorem cutsInto_wireOf (hg : g.Named)
    (hc : g.Agrees c ∧ Plain c.output ∧ Plain c.input) {source target output input : String}
    (hsource : CutsInto (g.wireOf c).source source output)
    (htarget : CutsInto (g.wireOf c).target target input) :
    ∃ s t, (s ∈ g.nodes ∧ s.name = source) ∧ (t ∈ g.nodes ∧ t.name = target) ∧
      c.source = s.id ∧ c.target = t.id := by
  obtain ⟨⟨s, t, hs, ht, _⟩, houtput, hinput⟩ := hc
  have hsmem := Graph.mem_of_node? hs
  have htmem := Graph.mem_of_node? ht
  obtain ⟨rfl, _⟩ := hsource.unique ((hg.cutsInto_iff hsmem).mpr ⟨hs, rfl, houtput⟩)
  obtain ⟨rfl, _⟩ := htarget.unique ((hg.cutsInto_iff htmem).mpr ⟨ht, rfl, hinput⟩)
  exact ⟨s, t, ⟨hsmem, rfl⟩, ⟨htmem, rfl⟩, (Graph.id_of_node? hs).symm, (Graph.id_of_node? ht).symm⟩

/-- Wires that lead round and round show connections that do, and the other way round. -/
theorem acyclic_iff (h : g.ListedBy d) (hg : g.Named)
    (hall : ∀ c ∈ g.connections, g.Agrees c ∧ Plain c.output ∧ Plain c.input) :
    (∀ name, ¬TransGen d.Feeds name name) ↔ g.Acyclic := by
  constructor
  -- names and identities tell the nodes apart alike, so a cycle of one is a cycle of the other
  · intro hwires id hcycle
    have hstep : ∀ a b, g.Feeds a b → ∃ s t, (s ∈ g.nodes ∧ s.id = a) ∧ (t ∈ g.nodes ∧ t.id = b) ∧
        d.Feeds s.name t.name := by
      rintro _ _ ⟨c, hc, rfl, rfl⟩
      obtain ⟨⟨s, t, hs, ht, _⟩, houtput, hinput⟩ := hall c hc
      have hsmem := Graph.mem_of_node? hs
      have htmem := Graph.mem_of_node? ht
      refine ⟨s, t, ⟨hsmem, Graph.id_of_node? hs⟩, ⟨htmem, Graph.id_of_node? ht⟩, g.wireOf c, ?_,
        c.output, c.input, (hg.cutsInto_iff hsmem).mpr ⟨hs, rfl, houtput⟩,
        (hg.cutsInto_iff htmem).mpr ⟨ht, rfl, hinput⟩⟩
      rw [h.wires]
      exact List.mem_map_of_mem hc
    have hinj : ∀ s t, s ∈ g.nodes → t ∈ g.nodes → s.id = t.id → s = t :=
      fun s t hs ht heq => List.inj_on_of_nodup_map hg.ids hs ht heq
    obtain ⟨s, t, hs, ht, hpath⟩ := transGen_relabel hinj hstep hcycle
    rw [hinj s t hs.1 ht.1 (hs.2.trans ht.2.symm)] at hpath
    exact hwires t.name hpath
  · intro hacyclic name hcycle
    have hstep : ∀ a b, d.Feeds a b → ∃ s t, (s ∈ g.nodes ∧ s.name = a) ∧
        (t ∈ g.nodes ∧ t.name = b) ∧ g.Feeds s.id t.id := by
      rintro a b ⟨w, hw, output, input, hsource, htarget⟩
      rw [h.wires] at hw
      obtain ⟨c, hc, rfl⟩ := List.mem_map.mp hw
      obtain ⟨s, t, hs, ht, hends⟩ := cutsInto_wireOf hg (hall c hc) hsource htarget
      exact ⟨s, t, hs, ht, c, hc, hends⟩
    have hinj : ∀ s t, s ∈ g.nodes → t ∈ g.nodes → s.name = t.name → s = t :=
      fun s t hs ht heq => hg.eq_of_name hs ht heq
    obtain ⟨s, t, hs, ht, hpath⟩ := transGen_relabel hinj hstep hcycle
    rw [hinj s t hs.1 ht.1 (hs.2.trans ht.2.symm)] at hpath
    exact hacyclic t.id hpath

/-- **The document of a graph is valid** as far as its nodes are told apart by fit names, its
    connections can stand together, and the names of their ports are plain. -/
theorem valid_iff (h : g.ListedBy d) (hids : (g.nodes.map (·.id)).Nodup) :
    d.Valid ↔ g.Named ∧ g.Coherent ∧ ∀ c ∈ g.connections, Plain c.output ∧ Plain c.input := by
  have hjoins : g.Named → ((∀ w ∈ d.wires, d.Joins w) ↔
      ∀ c ∈ g.connections, g.Agrees c ∧ Plain c.output ∧ Plain c.input) := by
    intro hg
    rw [h.wires, List.forall_mem_map]
    exact forall₂_congr fun c _ => h.joins_iff hg
  -- targets are compared as texts in the document and as ends in the network
  have hfed : g.Named → g.Typed → ((d.wires.map (·.target)).Nodup ↔
      g.connections.Pairwise fun c d => c.target = d.target → c.input ≠ d.input) := by
    intro hg htyped
    rw [h.wires, List.map_map, List.Nodup, List.pairwise_map]
    refine List.Pairwise.iff_of_mem fun {c e} hc he => ?_
    rw [Function.comp_apply, Function.comp_apply, Ne,
      target_wireOf_eq_iff hg (htyped c hc) (htyped e he), not_and]
  constructor
  · intro hvalid
    have hg : g.Named := ⟨hids, h.names_eq ▸ hvalid.distinct, h.names_eq ▸ hvalid.fit⟩
    have hall := (hjoins hg).mp hvalid.joined
    have htyped : g.Typed := fun c hc => (hall c hc).1
    exact ⟨hg, ⟨htyped, (hfed hg htyped).mp hvalid.fedOnce,
      (h.acyclic_iff hg hall).mp hvalid.acyclic⟩, fun c hc => (hall c hc).2⟩
  · rintro ⟨hg, hco, hplain⟩
    have hall : ∀ c ∈ g.connections, g.Agrees c ∧ Plain c.output ∧ Plain c.input :=
      fun c hc => ⟨hco.typed c hc, hplain c hc⟩
    exact {
      fit := h.names_eq ▸ hg.fit
      distinct := h.names_eq ▸ hg.names
      joined := (hjoins hg).mpr hall
      fedOnce := (hfed hg hco.typed).mpr hco.fedOnce
      acyclic := (h.acyclic_iff hg hall).mpr hco.acyclic }

end Graph.ListedBy

/-! ## §6. Documents that load -/

namespace Document

variable {d : Document} {supply rest : Supply} {cs : List Connection}

/-- A document lists the nodes that loading places and the connections that its wires stand for. -/
theorem listedBy_frame (h : Makes (d.frame supply) rest d.wires cs) :
    ((d.frame supply).withConnections cs).ListedBy d where
  nodes := by
    refine (forall₂_place supply d.nodes).imp fun n e hmatch => ?_
    rw [Node.inputs, Node.outputs, hmatch.2]
    exact ⟨hmatch.1, rfl, rfl⟩
  wires := h.wires

/-- A wire that is in order shows a connection between nodes that loading places. -/
theorem Joins.exists_wireOf {w : Wire} (h : d.Joins w) (supply : Supply) :
    ∃ c, w = (d.frame supply).wireOf c ∧ Plain c.output ∧ Plain c.input := by
  have hnode : ∀ {name k}, (name, k) ∈ d.nodes → ∃ id, (d.frame supply).nameOf id = name := by
    intro name k hk
    obtain ⟨n, hn, hname, _⟩ := exists_mem_of_forall₂ (forall₂_place supply d.nodes).flip (name, k) hk
    have hids := nodup_id_place supply d.nodes
    exact ⟨n.id, (Graph.nameOf_eq (Graph.node?_of_mem hids hn)).trans hname⟩
  obtain ⟨source, output, target, input, ⟨hsource, _, houtput⟩, ⟨htarget, _, hinput⟩, k, k', hk, hk',
    _⟩ := h
  obtain ⟨s, rfl⟩ := hnode hk
  obtain ⟨t, rfl⟩ := hnode hk'
  refine ⟨{ id := supply.connection.1, source := s, output, target := t, input }, ?_, houtput, hinput⟩
  rw [Graph.wireOf, ← hsource, ← htarget]

/-- **A document loads exactly if it is valid.** -/
theorem exists_load_iff (d : Document) (supply : Supply) :
    (∃ g rest, d.load supply = .ok (g, rest)) ↔ d.Valid := by
  constructor
  · rintro ⟨g, rest, h⟩
    obtain ⟨⟨hfit, hnodup⟩, cs, hcs, hco, _⟩ := load_eq_ok.mp h
    have hlisted := listedBy_frame hcs
    have hids := nodup_id_place supply d.nodes
    rw [hlisted.names_eq] at hfit hnodup
    exact (hlisted.valid_iff hids).mpr ⟨⟨hids, hnodup, hfit⟩, hco, hcs.plain⟩
  · intro hvalid
    obtain ⟨cs, hcs⟩ := exists_makes ⟨supply.next + d.nodes.length⟩ fun w hw =>
      (hvalid.joined w hw).exists_wireOf supply
    obtain ⟨_, hco, _⟩ :=
      ((listedBy_frame hcs).valid_iff (nodup_id_place supply d.nodes)).mp hvalid
    exact ⟨_, _, load_eq_ok.mpr ⟨⟨hvalid.fit, hvalid.distinct⟩, cs, hcs, hco, rfl, rfl⟩⟩

/-- Whether a document is valid does not depend on the order of its wires. -/
theorem Valid.perm (h : d.Valid) {wires : List Wire} (hperm : wires.Perm d.wires) :
    { d with wires }.Valid where
  fit := h.fit
  distinct := h.distinct
  joined := fun w hw => h.joined w (hperm.subset hw)
  fedOnce := (hperm.map _).nodup_iff.mpr h.fedOnce
  acyclic := by
    have hfeeds : Feeds { d with wires } = d.Feeds := by
      funext source target
      simp only [Feeds, hperm.mem_iff]
    rw [hfeeds]
    exact h.acyclic

/-- **Which documents load**: those whose nodes have different names that are fit for code, and
    whose wires lead from outputs to inputs of them with types that agree, no two to one input and
    none round and round.  So it does not matter in which order the wires stand. -/
theorem loads_iff_valid (d : Document) (supply : Supply) :
    ((∃ g rest, d.load supply = .ok (g, rest)) ↔ d.Valid) ∧
      ∀ wires, wires.Perm d.wires →
        ((∃ g rest, load { d with wires } supply = .ok (g, rest)) ↔
          ∃ g rest, d.load supply = .ok (g, rest)) := by
  refine ⟨d.exists_load_iff supply, fun wires hperm => ?_⟩
  rw [exists_load_iff, exists_load_iff]
  exact ⟨fun h => h.perm hperm.symm, fun h => h.perm hperm⟩

/-- A number that is added to its own sine. -/
def waving : Document where
  name := "waving"
  nodes := [("k", .constant (.float .one)), ("turn", .math .sin .float), ("sum", .math .add .float)]
  wires := [⟨"k.value", "turn.x"⟩, ⟨"turn.result", "sum.a"⟩, ⟨"k.value", "sum.b"⟩]

theorem waving_loads_reversed :
    waving.wires.reverse.Perm waving.wires ∧
      ∃ g rest, load { waving with wires := waving.wires.reverse } {} = .ok (g, rest) := by
  have hperm := List.reverse_perm waving.wires
  have hloads : ∃ g rest, waving.load {} = .ok (g, rest) := by
    cases h : waving.load {} with
    | ok result => exact ⟨result.1, result.2, rfl⟩
    | error e =>
      have hok : (waving.load {}).toBool = true := by decide +kernel
      rw [h] at hok
      cases hok
  exact ⟨hperm, ((loads_iff_valid waving {}).2 _ hperm).mpr hloads⟩

end Document

end ShaderFlow
