/-
  ShaderFlow.Proofs.WellFormed — the invariant of a network that is edited.

  Nodes have different names, all of them fit for code.  Connections lead from outputs to inputs
  that exist, no two of them to one input, and none of them closes a cycle.  A new network is
  like that, and each edit that is not refused keeps it so: it changes the names in one of two
  ways and the connections in one of two ways.

  Main definitions:
    * `Graph.WellFormed`       — the invariant.

  Main statements:
    * `Graph.Alters.names`, `Graph.Alters.connections` — what one edit does to either;
    * `Graph.WellFormed.alters` — one edit keeps the invariant;
    * `Edit.keeps_wellFormed`  — every network at every level has it, after any allowed calls.
-/

import ShaderFlow.Proofs.Cycles
import ShaderFlow.Proofs.Edits
import ShaderFlow.Proofs.FreeNames

namespace ShaderFlow

variable {g g' : Graph}

/-! ## §1. The invariant -/

/-- A network as edits leave it: sound, with names that tell nodes apart and may stand in code,
    with ports that are those of the kinds, and with one connection at most for each input and
    none that closes a cycle. -/
structure Graph.WellFormed (g : Graph) : Prop extends g.Sound where
  names : (g.nodes.map (·.name)).Nodup
  fit : ∀ name ∈ g.nodes.map (·.name), FitForCode name
  ports : ∀ n ∈ g.nodes, n.inputs = n.kind.inputs ∧ n.outputs = n.kind.outputs
  fedOnce : g.connections.Pairwise fun c d => c.target = d.target → c.input ≠ d.input
  acyclic : g.Acyclic

theorem Graph.WellFormed.empty (name : String) : (Graph.empty name).WellFormed where
  toSound := .empty name
  names := List.nodup_nil
  fit := nofun
  ports := nofun
  fedOnce := .nil
  acyclic := Graph.acyclic_of_connections_eq_nil rfl

/-! ## §2. What one edit does -/

/-- **One edit and the names**: some of them go, or one that was free is added. -/
theorem Graph.Alters.names (h : g.Alters g') :
    (g'.nodes.map (·.name)).Sublist (g.nodes.map (·.name)) ∨
      ∃ requested, g'.nodes.map (·.name) = g.nodes.map (·.name) ++ [g.freeName requested] := by
  cases h with
  | @insertNode n hfresh => exact .inr ⟨n.name, by simp [Graph.insertNode]⟩
  | remove id =>
    unfold Graph.remove
    split
    · exact .inl (.refl _)
    · exact .inl (List.filter_sublist.map _)
  | editKind hg' =>
    obtain ⟨n, _, hnodes⟩ := Graph.nodes_editKind hg'
    have hnames : g'.nodes.map (·.name) = g.nodes.map (·.name) := by
      rw [hnodes]
      exact Graph.map_replaceNode fun _ => rfl
    exact .inl (hnames ▸ .refl _)
  | connect hg' =>
    obtain ⟨_, _, rfl⟩ := map_eq_ok.mp hg'
    exact .inl (.refl _)
  | disconnect id =>
    unfold Graph.disconnect
    split <;> exact .inl (.refl _)
  | editSubnet hg' =>
    obtain ⟨n, s, _, _, hchanged⟩ := Graph.editSubnet_eq_some hg'
    have hnames : g'.nodes.map (·.name) = g.nodes.map (·.name) := by
      rw [hchanged]
      exact Graph.map_replaceNode fun _ => rfl
    exact .inl (hnames ▸ .refl _)

/-- **One edit and the connections**: some of them go, or one that may be made is added. -/
theorem Graph.Alters.connections (h : g.Alters g') :
    g'.connections.Sublist g.connections ∨
      ∃ c, g.checkConnection c.source c.output c.target c.input = .ok () ∧
        g'.connections = g.connections ++ [c] := by
  cases h with
  | insertNode => exact .inl (.refl _)
  | remove id =>
    unfold Graph.remove
    split <;> exact .inl List.filter_sublist
  | editKind hg' =>
    unfold Graph.editKind at hg'
    split at hg'
    next => cases hg'
    next =>
      simp only at hg'
      split at hg' <;> cases hg'
      · exact .inl (.refl _)
      · exact .inl List.filter_sublist
  | connect hg' =>
    obtain ⟨_, hcheck, rfl⟩ := map_eq_ok.mp hg'
    exact .inr ⟨_, hcheck, rfl⟩
  | disconnect id =>
    unfold Graph.disconnect
    split
    · exact .inl (.refl _)
    · exact .inl List.filter_sublist
  | editSubnet hg' =>
    obtain ⟨n, s, _, _, rfl⟩ := Graph.editSubnet_eq_some hg'
    exact .inl (.refl _)

/-! ## §3. One edit keeps the invariant -/

/-- Nothing feeds the input of a connection that may be made. -/
theorem Graph.unfed_of_checkConnection {c d : Connection}
    (h : g.checkConnection c.source c.output c.target c.input = .ok ()) (hd : d ∈ g.connections)
    (htarget : d.target = c.target) : d.input ≠ c.input := by
  obtain ⟨_, hfree, _⟩ := Graph.checkConnection_eq_ok.mp h
  have hnot := List.find?_eq_none.mp hfree d hd
  intro hinput
  simp [htarget, hinput] at hnot

/-- **A single edit keeps the invariant.** -/
theorem Graph.WellFormed.alters (h : g.WellFormed) (hg' : g.Alters g') : g'.WellFormed where
  toSound := h.toSound.alters hg'
  names := by
    rcases hg'.names with hsub | ⟨requested, hadded⟩
    · exact h.names.sublist hsub
    · rw [hadded, List.nodup_append]
      refine ⟨h.names, List.nodup_singleton _, fun name hname other hother heq => ?_⟩
      rw [List.mem_singleton.mp hother] at heq
      exact g.freeName_not_mem requested (heq ▸ hname)
  fit := by
    intro name hname
    rcases hg'.names with hsub | ⟨requested, hadded⟩
    · exact h.fit name (hsub.subset hname)
    · rw [hadded] at hname
      rcases List.mem_append.mp hname with hname | hname
      · exact h.fit name hname
      · rw [List.mem_singleton.mp hname]
        exact g.fitForCode_freeName requested
  ports := fun _ _ => ⟨rfl, rfl⟩
  fedOnce := by
    rcases hg'.connections with hsub | ⟨c, hcheck, hadded⟩
    · exact h.fedOnce.sublist hsub
    · rw [hadded, List.pairwise_append]
      refine ⟨h.fedOnce, List.pairwise_singleton _ _, fun d hd c' hc' htarget => ?_⟩
      rw [List.mem_singleton.mp hc'] at htarget ⊢
      exact Graph.unfed_of_checkConnection hcheck hd htarget
  acyclic := by
    rcases hg'.connections with hsub | ⟨c, hcheck, hadded⟩
    · exact h.acyclic.mono hsub.subset
    · obtain ⟨_, _, _, hapart⟩ := Graph.checkConnection_eq_ok.mp hcheck
      have hadded : g'.connections = (g.appendConnection c).connections := hadded
      exact (h.acyclic.appendConnection hapart).mono (fun _ hd => hadded ▸ hd)

/-- The graphs that validated edits build have the invariant at every level. -/
theorem Graph.Built.wellFormed (h : g.Built) : g.Everywhere Graph.WellFormed :=
  h.everywhere Graph.WellFormed.empty Graph.WellFormed.alters

/-! ## §4. Calls one after the other -/

/-- **The invariant of edited graphs.**  Start from an empty graph and make any calls that do not
    bypass validation, on the graph and on the networks of its subnets, refused ones among them.
    Then every network at every level is well formed, and a node that is added to it under any
    name gets the name that the search for a free one is to find. -/
theorem Edit.keeps_wellFormed (name : String) (edits : List Edit)
    (h : Edit.AllAllowed edits (.empty name)) :
    (Edit.applyAll edits (.empty name)).Everywhere fun network =>
      network.WellFormed ∧ ∀ id requested kind, ∃ found, network.FreeFor requested found ∧
        (network.add id requested kind).nodes = network.nodes ++ [.make id found kind] := by
  have hbuilt : (Edit.applyAll edits (.empty name)).Built := .applyAll (.empty name) h
  intro network hnetwork
  refine ⟨hbuilt.wellFormed network hnetwork, fun id requested kind => ?_⟩
  exact ⟨network.freeName requested, network.freeFor_freeName requested, rfl⟩

/-- A subnet to be edited: it takes nothing and hands out a number. -/
def knob : Subnet := (Subnet.make "knob" [] [⟨"level", .float⟩] .always ⟨100⟩).1

/-- Calls of all kinds: two nodes ask for one name, a connection is refused, a node is put into
    a subnet and connected there, a kind is changed under a connection, and a node is removed. -/
def knobCalls : List Edit :=
  [.add ⟨1⟩ "tone" (.constant (.float .one)),
   .add ⟨2⟩ "tone" (.math .sin .float),
   .connect ⟨10⟩ ⟨1⟩ "value" ⟨2⟩ "x",
   .connect ⟨11⟩ ⟨2⟩ "result" ⟨2⟩ "x",
   .addNode (.make ⟨3⟩ "knob" (.subnet knob)),
   .inside ⟨3⟩
     [.add ⟨4⟩ "half way" (.constant (.float .one)),
      .connectNames ⟨12⟩ "half_way" "value" "subnet_output" "level"],
   .editKind ⟨2⟩ fun _ => .globals,
   .remove ⟨1⟩]

theorem knobCalls_wellFormed :
    Edit.AllAllowed knobCalls (.empty "g") ∧
      (Edit.applyAll knobCalls (.empty "g")).nodes.map (·.name) = ["tone1", "knob"] ∧
      (Edit.applyAll knobCalls (.empty "g")).WellFormed := by
  have hallowed : Edit.AllAllowed knobCalls (.empty "g") := by
    simp only [knobCalls, Edit.AllAllowed, Edit.Allowed]
    refine ⟨⟨nofun, nofun⟩, ⟨by decide, nofun⟩, trivial, trivial, ?_, ?_, nofun, trivial, trivial⟩
    · intro s hs
      cases hs
      exact Subnet.built_make "knob" [] [⟨"level", .float⟩] .always ⟨100⟩
    · intro n s hn hk
      cases hn
      cases hk
      exact ⟨⟨by decide, nofun⟩, trivial, trivial⟩
  exact ⟨hallowed, by decide +kernel, (Edit.keeps_wellFormed "g" knobCalls hallowed _ .refl).1⟩

end ShaderFlow
