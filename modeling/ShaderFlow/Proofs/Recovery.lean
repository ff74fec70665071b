/-
  ShaderFlow.Proofs.Recovery — edited graphs that come back from their documents.

  A graph that edits make is in order at every depth, as long as no kind is changed under the
  connections of its node.  Its document says all there is to say: no other such graph that says
  something else has the same one.  But the names of ports are free texts, and a connected port
  whose name is empty or has a dot is not read back from the endpoint that it is written in.

  Main definitions:
    * `Graph.Drawn` — the graphs that edits other than changes of kind make.

  Main statements:
    * `Graph.Drawn.orderly`  — such graphs are in order at every depth;
    * `Graph.Drawn.recovers` — when they come back, and what comes back.
-/

import ShaderFlow.Proofs.Saving

namespace ShaderFlow

variable {g g' : Graph}

/-! ## §1. Graphs that are drawn -/

/-- The graphs that validated edits other than changes of kind lead to, if the networks of the
    subnets that nodes bring, and those that are reached into, are such graphs, too. -/
inductive Graph.Drawn : Graph → Prop where
  | empty (name : String) : Drawn (.empty name)
  | add {g : Graph} {id : NodeId} {name : String} {kind : Kind} (hg : Drawn g)
      (hfresh : ∀ m ∈ g.nodes, m.id ≠ id)
      (hinner : ∀ s, kind = .subnet s → Drawn s.network) : Drawn (g.add id name kind)
  | addNode {g g' : Graph} {n : Node} (hg : Drawn g)
      (hinner : ∀ s, n.kind = .subnet s → Drawn s.network) (h : g.addNode n = .ok g') : Drawn g'
  | remove {g : Graph} (hg : Drawn g) (id : NodeId) : Drawn (g.remove id).2
  | connect {g g' : Graph} {id : ConnectionId} {source target : NodeId} {output input : String}
      (hg : Drawn g) (h : g.connect id source output target input = .ok g') : Drawn g'
  | connectNames {g g' : Graph} {id : ConnectionId} {source output target input : String}
      (hg : Drawn g) (h : g.connectNames id source output target input = .ok g') : Drawn g'
  | disconnect {g : Graph} (hg : Drawn g) (id : ConnectionId) : Drawn (g.disconnect id).2
  | editSubnet {g g' : Graph} {id : NodeId} {α : Type} {edit : Graph → α × Graph} {result : α}
      (hg : Drawn g)
      (hinner : ∀ n s, g.node? id = some n → n.kind = .subnet s → Drawn (edit s.network).2)
      (h : g.editSubnet id edit = some (result, g')) : Drawn g'

namespace Graph.Drawn

/-- Such graphs are among those that validated edits build. -/
theorem built (h : g.Drawn) : g.Built := by
  induction h with
  | empty name => exact .empty name
  | add _ hfresh _ ih ihinner => exact .add ih hfresh ihinner
  | addNode _ _ h ih ihinner => exact .addNode ih ihinner h
  | remove _ id ih => exact .remove ih id
  | connect _ h ih => exact .connect ih h
  | connectNames _ h ih => exact .connectNames ih h
  | disconnect _ id ih => exact .disconnect ih id
  | editSubnet _ _ h ih ihinner => exact .editSubnet ih ihinner h

/-- The types at every connection agree as they did when it was made. -/
theorem typed (h : g.Drawn) : g.Everywhere Graph.Typed := by
  -- drawing connects only what agrees, and changes no kinds afterwards
  induction h with
  | empty name => exact Graph.everywhere_empty nofun
  | add _ _ _ ih ihinner => exact (Graph.everywhereTyped_insertNode ih _).mpr ihinner
  | addNode _ _ h ih ihinner =>
    unfold Graph.addNode at h
    split at h <;> cases h
    exact (Graph.everywhereTyped_insertNode ih _).mpr ihinner
  | @remove g _ id ih => exact ih.of_subset (ih.here.remove id) (g.nodes_remove_subset id)
  | connect _ h ih => exact Edit.everywhereTyped_connect ih h
  | connectNames _ h ih =>
    obtain ⟨s, t, h⟩ := Graph.connect_of_connectNames h
    exact Edit.everywhereTyped_connect ih h
  | @disconnect g _ id ih =>
    refine ih.of_subset (ih.here.disconnect id) ?_
    rw [g.nodes_disconnect id]
    exact fun _ hm => hm
  | editSubnet _ _ h ih ihinner =>
    obtain ⟨n, s, hn, hk, heq⟩ := Graph.editSubnet_eq_some h
    refine ih.changed (ih.here.editSubnet h) fun m hm s' hk' => ?_
    rw [heq] at hm
    rcases Graph.mem_replaceNode hm with hm | ⟨_, _, _, rfl⟩
    · exact .inl ⟨m, hm, hk'⟩
    · cases hk'
      exact .inr (ihinner n s hn hk)

/-- **Such graphs are in order at every depth.** -/
theorem orderly (h : g.Drawn) : g.Everywhere Graph.Orderly := by
  intro network hnetwork
  have hformed := h.built.wellFormed network hnetwork
  exact ⟨hformed.named, h.typed network hnetwork, hformed.fedOnce, hformed.acyclic⟩

end Graph.Drawn

/-! ## §2. Coming back -/

/-- The documents of graphs in order are different as far as the graphs say different things. -/
theorem Graph.Orderly.repeats_of_toDocument_eq (h : g.Orderly) (h' : g'.Orderly)
    (heq : g'.toDocument = g.toDocument) : g.Repeats g' := by
  have hname : g'.name = g.name := congrArg Document.name heq
  have hnodes : g'.nodes.map (fun n => (n.name, n.kind)) = g.nodes.map fun n => (n.name, n.kind) :=
    congrArg Document.nodes heq
  have hwires := congrArg Document.wires heq
  rw [h.wires_toDocument, h'.wires_toDocument] at hwires
  refine Graph.repeats_iff.mpr ⟨hname, ?_, h'.endpoints_eq h hwires⟩
  rw [← List.forall₂_eq_eq_eq, List.forall₂_map_left_iff, List.forall₂_map_right_iff] at hnodes
  refine hnodes.flip.imp fun n n' hsame => ?_
  obtain ⟨hname, hkind⟩ := Prod.mk.inj (show (n'.name, n'.kind) = (n.name, n.kind) from hsame)
  rw [hname, hkind]
  exact ⟨rfl, Kind.repeats_self fun s _ => s.network.repeats_refl⟩

/-- **When an edited graph comes back from its document**: exactly if in every network the ports at
    the ends of connections have names that are not empty and have no dot.  What comes back says
    the same at every depth, and in any case the document is that of no graph that says something
    else. -/
theorem Graph.Drawn.recovers (h : g.Drawn) :
    (∀ supply, (∃ g' rest, g.reload supply = .ok (g', rest)) ↔ g.Everywhere Graph.Plainly) ∧
      (∀ supply g' rest, g.reload supply = .ok (g', rest) → g.Repeats g') ∧
      ∀ g' : Graph, g'.Drawn → g'.toDocument = g.toDocument → g.Repeats g' := by
  refine ⟨Graph.exists_reload_iff h.orderly, fun supply g' rest => ?_, fun g' h' => ?_⟩
  · exact Graph.repeats_of_reload h.orderly
  · exact h.orderly.here.repeats_of_toDocument_eq h'.orderly.here

/-- The network of a new subnet is such a graph. -/
theorem Subnet.drawn_make (name : String) (inputs outputs : List PortSpec) (block : Block)
    (supply : Supply) : (Subnet.make name inputs outputs block supply).1.network.Drawn :=
  Subnet.network_make Graph.Drawn.empty
    (fun hg hfresh hleaf => .add hg hfresh fun s hk => absurd hk (hleaf s)) name inputs outputs block
    supply

/-- A number that feeds a new subnet through an input of the given name. -/
def feeding (port : String) : Graph :=
  (((Graph.empty "feeding").add ⟨1⟩ "k" (.constant (.float .one))).add ⟨2⟩ "sub"
    (.subnet (Subnet.make "sub" [⟨port, .float⟩] [] .always {}).1)).insertConnection
      ⟨⟨3⟩, ⟨1⟩, "value", ⟨2⟩, port⟩

/-- No edit is refused whatever the name is. -/
theorem feeding_drawn (port : String) : (feeding port).Drawn := by
  refine .connect (.add (.add (.empty "feeding") ?_ ?_) ?_ ?_)
    (map_eq_ok.mpr ⟨(), Graph.checkConnection_eq_ok.mpr ⟨?_, rfl, by decide, rfl⟩, rfl⟩)
  · exact nofun
  · exact nofun
  · decide
  · intro s hs
    cases hs
    exact Subnet.drawn_make "sub" [⟨port, .float⟩] [] .always {}
  · refine ⟨_, _, rfl, rfl, .output "value" .float, .input port .float, rfl, ?_, rfl⟩
    simp [Node.input?, Node.inputs, Kind.inputs, Node.make, Subnet.make, PortSpec.toInput, Port.input]

theorem feeding_recovered :
    (feeding "x").Drawn ∧ ∃ g' rest, (feeding "x").reload {} = .ok (g', rest) ∧
      (feeding "x").Repeats g' := by
  have hdrawn := feeding_drawn "x"
  have hsub : (Subnet.make "sub" [⟨"x", .float⟩] [] .always {}).1.network.Everywhere
      Graph.Plainly := by
    refine Subnet.network_make (P := fun network => network.Everywhere Graph.Plainly)
      (fun _ => Graph.everywhere_empty nofun) (fun hg _ hleaf => ?_) "sub" _ _ _ _
    refine hg.changed hg.here fun m hm s hk => ?_
    rcases Graph.mem_insertNode hm with hm | hkind
    · exact .inl ⟨m, hm, hk⟩
    · exact absurd (hkind.symm.trans hk) (hleaf s)
  have hplain : (feeding "x").Everywhere Graph.Plainly := by
    refine .intro (by unfold Graph.Plainly; decide) ?_
    rintro inner ⟨n, hn, s, hk, rfl⟩
    rcases List.mem_pair.mp hn with rfl | rfl <;> cases hk
    exact hsub
  obtain ⟨hiff, hsame, _⟩ := hdrawn.recovers
  obtain ⟨g', rest, hreload⟩ := (hiff {}).mpr hplain
  exact ⟨hdrawn, g', rest, hreload, hsame _ _ _ hreload⟩

/-- **A dot in the name of a connected port loses the graph**: the endpoint is read as a port of a
    node that is not there. -/
theorem feeding_dotted_lost :
    (feeding "a.b").Drawn ∧ (feeding "a.b").reload {} =
      .error (.connection ⟨"k.value", "sub.a.b"⟩ (.nameNotFound "sub.a")) := by
  refine ⟨feeding_drawn "a.b", ?_⟩
  rfl

end ShaderFlow
