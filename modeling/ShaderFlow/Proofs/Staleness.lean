/-
  ShaderFlow.Proofs.Staleness — whether a host sees that a graph changed.

  A program is out of date when the version of its graph has grown, or when a node changed at
  the same version.  Every call that changes a graph shows in one of the two ways, except one:
  the removal of a node that is not there takes along connections that begin or end at it.

  Main definitions:
    * `Graph.detach`          — a graph without the connections of some nodes;
    * `Graph.ShowsIn`         — what calls that do not show come to;
    * `Edit.removals`         — the nodes that calls remove.

  Main statements:
    * `Edit.showsIn_apply`, `Edit.showsIn_applyAll` — one call, and calls one after the other;
    * `Artifact.bare_eq_detach_of_not_isStale`      — what is missed of the changes since a
      compilation.
-/

import ShaderFlow.Artifact
import ShaderFlow.Proofs.Edits
import ShaderFlow.Proofs.Marks

namespace ShaderFlow

variable {g g' g'' : Graph}

/-! ## §1. Changes that do not show -/

/-- A graph without the connections that begin or end at some nodes. -/
def Graph.detach (g : Graph) (ids : List NodeId) : Graph :=
  { g with connections := g.connections.filter fun c => !ids.any c.involves }

theorem Graph.detach_nil (g : Graph) : g.detach [] = g := by
  cases g
  simp [Graph.detach]

theorem Graph.detach_detach (g : Graph) (first rest : List NodeId) :
    (g.detach first).detach rest = g.detach (first ++ rest) := by
  simp only [Graph.detach, List.filter_filter, List.any_append, Bool.not_or, Bool.and_comm]

/-- Whether a change of a graph shows, in its version or in a changed node, or comes to no more
    than that connections of nodes are lost that are not there. -/
def Graph.ShowsIn (g g' : Graph) (removed : List NodeId) : Prop :=
  g.version < g'.version ∨
  (g'.version = g.version ∧ g'.isDirty = true) ∨
  (g' = g.detach removed ∧ ∀ id ∈ removed, id ∉ g.nodes.map (·.id))

namespace Graph.ShowsIn

variable {removed later : List NodeId}

theorem refl (g : Graph) : g.ShowsIn g [] :=
  .inr (.inr ⟨g.detach_nil.symm, nofun⟩)

theorem version_le (h : g.ShowsIn g' removed) : g.version ≤ g'.version := by
  rcases h with hgrown | ⟨hsame, _⟩ | ⟨rfl, _⟩
  · exact Nat.le_of_lt hgrown
  · exact Nat.le_of_eq hsame.symm
  · exact Nat.le_refl _

/-- What shows goes on showing. -/
theorem trans (h : g.ShowsIn g' removed) (h' : g'.ShowsIn g'' later) :
    g.ShowsIn g'' (removed ++ later) := by
  rcases h with hgrown | ⟨hsame, hdirty⟩ | ⟨rfl, habsent⟩
  · exact .inl (Nat.lt_of_lt_of_le hgrown h'.version_le)
  · rcases h' with hgrown | ⟨hsame', hdirty'⟩ | ⟨rfl, _⟩
    · exact .inl (hsame ▸ hgrown)
    · exact .inr (.inl ⟨hsame'.trans hsame, hdirty'⟩)
    · refine .inr (.inl ⟨hsame, ?_⟩)
      rw [Graph.isDirty_iff] at hdirty ⊢
      exact hdirty
  · rcases h' with hgrown | hdirty | ⟨rfl, habsent'⟩
    · exact .inl hgrown
    · exact .inr (.inl hdirty)
    · refine .inr (.inr ⟨g.detach_detach removed later, fun id hid => ?_⟩)
      rcases List.mem_append.mp hid with hid | hid
      · exact habsent id hid
      · exact habsent' id hid

end Graph.ShowsIn

/-! ## §2. Calls -/

/-- A change of kind shows: in the version where it changes the ports, else in the node. -/
theorem Graph.showsIn_editKind {id : NodeId} {edit : Kind → Kind}
    (h : g.editKind id edit = .ok g') : g.ShowsIn g' [] := by
  obtain ⟨n, -, hself, -⟩ := Graph.node?_editKind h
  have hdirty : g'.isDirty = true :=
    Graph.isDirty_iff.mpr ⟨_, Graph.mem_of_node? hself, .inl rfl⟩
  unfold Graph.editKind at h
  split at h
  next => cases h
  next =>
    simp only at h
    split at h <;> cases h
    · exact .inr (.inl ⟨rfl, hdirty⟩)
    · exact .inl (Nat.lt_succ_self _)

namespace Edit

/-- The node that a call removes from the network that it is made on. -/
def removed? : Edit → Option NodeId
  | .remove id => some id
  | _ => none

/-- The nodes that calls remove from the network that they are made on. -/
def removals (edits : List Edit) : List NodeId := edits.flatMap fun e => e.removed?.toList

/-- **One call shows**, or it is refused, or it removes a node that is not there. -/
theorem showsIn_apply (e : Edit) (g : Graph) : g.ShowsIn (e.apply g) e.removed?.toList := by
  cases e with
  | add id name kind =>
    rw [apply]
    exact .inl (Nat.lt_succ_self _)
  | addNode n =>
    rw [apply, Graph.addNode]
    split
    · exact .refl g
    · exact .inl (Nat.lt_succ_self _)
  | remove id =>
    rw [apply, Graph.remove]
    split
    -- only the connections that name the absent node go, and the version does not tell
    next hnone =>
      refine .inr (.inr ⟨?_, ?_⟩)
      · simp [Graph.detach, removed?]
      · intro other hother hmem
        obtain rfl := List.mem_singleton.mp hother
        obtain ⟨n, hn, hid⟩ := List.mem_map.mp hmem
        exact List.find?_eq_none.mp hnone n hn (by simpa using hid)
    next => exact .inl (Nat.lt_succ_self _)
  | editKind id edit =>
    rw [apply]
    cases h : g.editKind id edit with
    | error e => exact .refl g
    | ok g' => exact Graph.showsIn_editKind h
  | connect id source output target input =>
    rw [apply]
    cases h : g.connect id source output target input with
    | error e => exact .refl g
    | ok g' =>
      obtain ⟨_, _, rfl⟩ := map_eq_ok.mp h
      exact .inl (Nat.lt_succ_self _)
  | connectNames id source output target input =>
    rw [apply]
    cases h : g.connectNames id source output target input with
    | error e => exact .refl g
    | ok g' =>
      obtain ⟨s, t, h⟩ := Graph.connect_of_connectNames h
      obtain ⟨_, _, rfl⟩ := map_eq_ok.mp h
      exact .inl (Nat.lt_succ_self _)
  | disconnect id =>
    rw [apply, Graph.disconnect]
    split
    · exact .refl g
    · exact .inl (Nat.lt_succ_self _)
  | insertConnection c =>
    rw [apply]
    exact .inl (by simp)
  | inside id edits =>
    rcases apply_inside g id edits with h | ⟨_, hsame⟩
    · obtain ⟨_, _, _, _, heq⟩ := Graph.editSubnet_eq_some h
      rw [heq]
      exact .inl (Nat.lt_succ_self _)
    · rw [hsame]
      exact .refl g

/-- **Calls one after the other** show, or they come to no more than that connections of nodes
    are lost that are not there. -/
theorem showsIn_applyAll :
    ∀ (edits : List Edit) (g : Graph), g.ShowsIn (applyAll edits g) (removals edits)
  | [], g => by
    rw [applyAll]
    exact .refl g
  | e :: edits, g => by
    rw [applyAll]
    exact (showsIn_apply e g).trans (showsIn_applyAll edits (e.apply g))

end Edit

/-! ## §3. What a compilation leaves -/

namespace Artifact

/-- A compiled graph: without errors and changes, or with the one error of the compilation. -/
theorem graph_compile (a : Artifact) (g : Graph) (context : Context) :
    (a.compile g context).2.1 = match (a.backend.compile g context).2 with
      | .ok _ => g.bare
      | .error e => g.bare.attachError (e.node?.map (·.id)) e.message := by
  unfold compile
  rcases a.backend.compile g context with ⟨backend, _ | _⟩ <;> rfl

theorem version_compile (a : Artifact) (g : Graph) (context : Context) :
    (a.compile g context).1.version = some g.version := by
  unfold compile
  rcases a.backend.compile g context with ⟨backend, _ | _⟩ <;> rfl

/-- Compiling changes no content. -/
theorem bare_compile (a : Artifact) (g : Graph) (context : Context) :
    (a.compile g context).2.1.bare = g.bare := by
  rw [graph_compile]
  split
  · exact g.bare_bare
  · rw [Graph.bare_attachError, g.bare_bare]

/-- Compiling takes all changes. -/
theorem isDirty_compile (a : Artifact) (g : Graph) (context : Context) :
    (a.compile g context).2.1.isDirty = false := by
  rw [graph_compile]
  split
  · exact g.isDirty_bare
  · rw [Graph.isDirty_attachError, g.isDirty_bare]

end Artifact

/-! ## §4. Changes since a compilation -/

theorem Graph.bare_detach (g : Graph) (ids : List NodeId) :
    (g.detach ids).bare = g.bare.detach ids := by
  rw [Graph.bare_eq, Graph.bare_eq]
  rfl

/-- Nothing is lost exactly if no connection begins or ends at one of the nodes. -/
theorem Graph.detach_eq_self {ids : List NodeId} :
    g.detach ids = g ↔ ∀ c ∈ g.connections, ∀ id ∈ ids, c.involves id = false := by
  constructor
  · intro h c hc id hid
    have hconnections : (g.detach ids).connections = g.connections := by rw [h]
    have hkept := List.filter_eq_self.mp hconnections c hc
    by_contra hinvolves
    rw [List.any_eq_true.mpr ⟨id, hid, by simpa using hinvolves⟩] at hkept
    cases hkept
  · intro h
    have hkept : g.connections.filter (fun c => !ids.any c.involves) = g.connections :=
      List.filter_eq_self.mpr fun c hc => by simpa using fun id hid => h c hc id hid
    cases g
    rw [Graph.detach, hkept]

/-- **What is missed of the changes since a compilation.**  Compile a graph and then make any
    calls, on the graph and on the networks of its subnets, validated or not.  No call ever takes
    a version back.  If the program is not found out of date then, the nodes that the calls
    remove were not there, and the graph has the content that was compiled, less the connections
    that begin or end at them.  So nothing is missed exactly if there are no such connections. -/
theorem Artifact.bare_eq_detach_of_not_isStale (a : Artifact) (g : Graph) (context : Context)
    (edits : List Edit) :
    (∀ network : Graph, network.version ≤ (Edit.applyAll edits network).version) ∧
    ((a.compile g context).1.isStale
        (Edit.applyAll edits (a.compile g context).2.1) = false →
      (∀ id ∈ Edit.removals edits, id ∉ g.nodes.map (·.id)) ∧
      (Edit.applyAll edits (a.compile g context).2.1).bare =
        g.bare.detach (Edit.removals edits) ∧
      ((Edit.applyAll edits (a.compile g context).2.1).bare = g.bare ↔
        ∀ c ∈ g.connections, ∀ id ∈ Edit.removals edits, c.involves id = false)) := by
  refine ⟨fun network => (Edit.showsIn_applyAll edits network).version_le, fun hfresh => ?_⟩
  have hbare := a.bare_compile g context
  have hversion : (a.compile g context).2.1.version = g.version := by
    rw [← Graph.version_bare, hbare, Graph.version_bare]
  have hids : (a.compile g context).2.1.nodes.map (·.id) = g.nodes.map (·.id) := by
    rw [← Graph.map_id_bare, hbare, Graph.map_id_bare]
  rw [Artifact.isStale, Bool.or_eq_false_iff, a.version_compile] at hfresh
  obtain ⟨hsame, hclean⟩ := hfresh
  have hsame : g.version = (Edit.applyAll edits (a.compile g context).2.1).version := by
    simpa using hsame
  rcases Edit.showsIn_applyAll edits (a.compile g context).2.1 with
    hgrown | ⟨_, hdirty⟩ | ⟨hlost, habsent⟩
  · rw [← hsame, hversion] at hgrown
    exact absurd hgrown (Nat.lt_irrefl _)
  · exact absurd (hclean.symm.trans hdirty) Bool.false_ne_true
  · have hleft : (Edit.applyAll edits (a.compile g context).2.1).bare =
        g.bare.detach (Edit.removals edits) := by
      rw [hlost, Graph.bare_detach, hbare]
    refine ⟨fun id hid => hids ▸ habsent id hid, hleft, ?_⟩
    rw [hleft, Graph.detach_eq_self, Graph.bare_eq]

/-- A material whose output is fed from a node that is not there. -/
def dangling : Graph :=
  Edit.applyAll
    [.add ⟨1⟩ "out" (.output .material),
     .insertConnection ⟨⟨2⟩, ⟨77⟩, "value", ⟨1⟩, "alpha"⟩] (.empty "g")

/-- A material, and that graph after it was compiled. -/
def compiledDangling : Artifact × Graph :=
  let (a, g, _) := (Artifact.new .material).compile dangling {}
  (a, g)

/-- Calls that are refused are not seen, nor is there anything to see. -/
theorem dangling_kept :
    compiledDangling.1.isStale (Edit.applyAll
      [.remove ⟨5⟩, .connect ⟨3⟩ ⟨5⟩ "value" ⟨1⟩ "color"] compiledDangling.2) = false ∧
    (Edit.applyAll
      [.remove ⟨5⟩, .connect ⟨3⟩ ⟨5⟩ "value" ⟨1⟩ "color"] compiledDangling.2).bare =
        dangling.bare := by
  have hfresh : compiledDangling.1.isStale (Edit.applyAll
      [.remove ⟨5⟩, .connect ⟨3⟩ ⟨5⟩ "value" ⟨1⟩ "color"] compiledDangling.2) = false := by
    decide +kernel
  have hmissed := (Artifact.bare_eq_detach_of_not_isStale (.new .material) dangling {}
    [.remove ⟨5⟩, .connect ⟨3⟩ ⟨5⟩ "value" ⟨1⟩ "color"]).2 hfresh
  exact ⟨hfresh, hmissed.2.2.mpr (by decide)⟩

/-- The removal of the missing node is not seen, and takes the connection along. -/
theorem dangling_missed :
    compiledDangling.1.isStale (Edit.applyAll [.remove ⟨77⟩] compiledDangling.2) = false ∧
    dangling.connections = [⟨⟨2⟩, ⟨77⟩, "value", ⟨1⟩, "alpha"⟩] ∧
    (Edit.applyAll [.remove ⟨77⟩] compiledDangling.2).connections = [] := by
  decide +kernel

end ShaderFlow
