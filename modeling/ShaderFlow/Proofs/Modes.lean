/-
  ShaderFlow.Proofs.Modes — the two modes of a traversal.

  The modes differ in what they make of subnets and of what stands inside them.  As long as no
  subnet is met, no network is entered and none is left, so a node leads to the same places in
  both modes.  The two searches then go in step: they list the same nodes under the same paths,
  or stop at the same place for the same reason.

  Main definitions:
    * `Visit.OnGround` — a place outside all subnets that is no subnet itself.

  Main statements:
    * `Visit.OnGround.steps_eq` — what such a place leads to, in either mode;
    * `visit_congr`             — visits that take the same steps have the same outcome;
    * `Graph.traverse_modes_eq` — traversals in the two modes.
-/

import ShaderFlow.Proofs.Basic
import ShaderFlow.Proofs.DependencyOrder

namespace ShaderFlow

open Relation

variable {mode mode' : TraversalMode} {filter : Node → InputFilter} {P : Visit → Prop}
  {g : Graph} {path : String} {roots : List NodeId} {v : Visit}

/-! ## §1. Places outside subnets -/

/-- A place that no subnet encloses and whose node is no subnet.  The node may be one that
    offers the inputs of a subnet: there is nothing around it to lead out to. -/
structure Visit.OnGround (v : Visit) : Prop where
  frames_eq : v.frames = []
  kind_ne : ∀ s, v.node.kind ≠ .subnet s

/-- **One step.**  Such a place leads to the same places in both modes. -/
theorem Visit.OnGround.steps_eq (h : v.OnGround) (mode mode' : TraversalMode) :
    v.steps mode filter = v.steps mode' filter := by
  -- of the rules that say what a place leads to, only that of its own sources applies
  have hown : ∀ mode, v.steps mode filter = v.sources (followed filter v.node) := by
    intro mode
    rcases Visit.steps_cases mode filter v with ⟨r, hr, hsteps⟩ | ⟨s, _, hk, _⟩
    · rw [hsteps, hr.unique (.own (.inr ⟨h.kind_ne, fun _ => h.frames_eq⟩))]
    · exact absurd hk (h.kind_ne s)
  rw [hown mode, hown mode']

/-- Where subnets are not entered, the roots lead to nodes of their own network only. -/
theorem Graph.Reaches.network (h : g.Reaches path .shallow filter roots v) :
    v = { graph := g, path, node := v.node } ∧ g.node? v.node.id = some v.node := by
  obtain ⟨u, hu, hpath⟩ := h
  induction hpath with
  | refl => exact Graph.network_of_root hu
  | tail _ hstep ih => exact (g.terrain_network path filter).closed ih hstep

theorem Graph.Reaches.frames_eq (h : g.Reaches path .shallow filter roots v) : v.frames = [] := by
  rw [h.network.1]

/-! ## §2. Searches in step -/

/-- Steps that are taken alike have the same outcome. -/
theorem foldlM_takeStep_congr (f f' : Visit → Traversal → Except CompileError Traversal) :
    ∀ (steps : List (Except CompileError Visit)) (t : Traversal),
      (∀ v, .ok v ∈ steps → ∀ t, f v t = f' v t) →
        steps.foldlM (takeStep f) t = steps.foldlM (takeStep f') t
  | [], _, _ => rfl
  | .error _ :: _, _, _ => rfl
  | .ok v :: rest, t, hf => by
    rw [List.foldlM_cons, List.foldlM_cons]
    show (f v t).bind _ = (f' v t).bind _
    rw [hf v List.mem_cons_self t]
    congr 1
    funext t'
    exact foldlM_takeStep_congr f f' rest t' fun w hw => hf w (List.mem_cons_of_mem _ hw)

/-- **A whole search.**  Where two modes take the same steps, all the way, the visits have the
    same outcome. -/
theorem visit_congr (hclosed : ∀ {v w : Visit}, P v → v.Follows mode filter w → P w)
    (hsteps : ∀ {v : Visit}, P v → v.steps mode filter = v.steps mode' filter) :
    ∀ (bound : Nat) (way : List NodeId) (v : Visit) (t : Traversal), P v →
      visit mode filter bound way v t = visit mode' filter bound way v t
  | 0, _, _, _, _ => rfl
  | bound + 1, way, v, t, hv => by
    -- the steps are followed by the same search with a smaller bound, and stay where `P` holds
    have hinner := foldlM_takeStep_congr (visit mode filter bound (v.node.id :: way))
      (visit mode' filter bound (v.node.id :: way)) (v.steps mode filter) t
      fun w hw t => visit_congr hclosed hsteps bound (v.node.id :: way) w t
        (hclosed hv (Visit.ok_mem_steps.mp hw))
    have hfinish : (fun t => Traversal.finish mode filter t v) =
        fun t => Traversal.finish mode' filter t v := by
      funext t
      rw [Traversal.finish, Traversal.finish, hsteps hv]
    rw [visit_succ, visit_succ, hinner, hsteps hv, hfinish]

/-- **The two modes agree without subnets.**  If the roots lead to no subnet, a traversal that
    treats subnets as nodes and one that enters them have the same outcome: the same error, or the
    same nodes under the same paths in the same order, and the same leaves.  Connections may form
    cycles and lack their sources, and the filter and the roots are any. -/
theorem Graph.traverse_modes_eq
    (h : ∀ v, g.Reaches path .shallow filter roots v → ∀ s, v.node.kind ≠ .subnet s) :
    g.traverse path .shallow filter roots = g.traverse path .deep filter roots := by
  rw [Graph.traverse_eq, Graph.traverse_eq]
  refine foldlM_takeStep_congr _ _ _ _ fun v hv t => ?_
  refine visit_congr (P := g.Reaches path .shallow filter roots) Graph.Reaches.follows ?_ _ _ v t
    ⟨v, hv, .refl⟩
  -- what is reached in the mode that never enters a subnet is on the ground
  intro w hw
  exact Visit.OnGround.steps_eq ⟨hw.frames_eq, h w hw⟩ .shallow .deep

/-- What offers the inputs of a subnet, in a graph that is inside no subnet, and behind it a sum
    that feeds a subnet.  The other input of the subnet has lost its source. -/
def strayInput : Graph where
  name := "g"
  nodes := [.make ⟨0⟩ "subnet_input" (.subnetInput [⟨"a", .float⟩]),
    .make ⟨4⟩ "turn" (.math .sin .float), .make ⟨5⟩ "sum" (.math .add .float),
    .make ⟨6⟩ "s" (.subnet wiredSubnet)]
  connections := [⟨⟨0⟩, ⟨0⟩, "a", ⟨4⟩, "x"⟩, ⟨⟨1⟩, ⟨4⟩, "result", ⟨5⟩, "b"⟩,
    ⟨⟨2⟩, ⟨0⟩, "a", ⟨5⟩, "a"⟩, ⟨⟨3⟩, ⟨77⟩, "value", ⟨6⟩, "a"⟩]
  version := 8
  error := none

/-- The sum leads to the same nodes in both modes. -/
theorem traverse_strayInput :
    (∀ v, strayInput.Reaches "/g" .shallow (fun _ => .all) [⟨5⟩, ⟨4⟩] v →
        ∀ s, v.node.kind ≠ .subnet s) ∧
      ∃ t, strayInput.traverse "/g" .shallow (fun _ => .all) [⟨5⟩, ⟨4⟩] = .ok t ∧
        strayInput.traverse "/g" .deep (fun _ => .all) [⟨5⟩, ⟨4⟩] = .ok t ∧
        t.nodes.map (·.name) = ["subnet_input", "turn", "sum"] := by
  have hnames : (strayInput.traverse "/g" .shallow (fun _ => .all) [⟨5⟩, ⟨4⟩]).map
      (fun t => t.nodes.map (·.name)) = .ok ["subnet_input", "turn", "sum"] := rfl
  obtain ⟨t, ht, htnames⟩ := map_eq_ok.mp hnames
  obtain ⟨visits, hsorts⟩ := Graph.exists_sorts_of_traverse (by decide) ht
  have hground : ∀ v, strayInput.Reaches "/g" .shallow (fun _ => .all) [⟨5⟩, ⟨4⟩] v →
      ∀ s, v.node.kind ≠ .subnet s := by
    intro v hv s hs
    have hlisted : v.node.name ∈ t.nodes.map (·.name) := by
      rw [Traversal.nodes, hsorts.ordered]
      simp only [List.map_map]
      exact List.mem_map_of_mem (f := fun v : Visit => v.node.name) ((hsorts.mem_iff v).mpr hv)
    have hnode : v.node ∈ strayInput.nodes := Graph.mem_of_node? hv.network.2
    rw [htnames] at hlisted
    simp only [strayInput, List.mem_cons, List.not_mem_nil, or_false] at hnode
    rcases hnode with hn | hn | hn | hn <;> rw [hn] at hs hlisted
    · cases hs
    · cases hs
    · cases hs
    · simp [Node.make] at hlisted
  exact ⟨hground, t, ht, (Graph.traverse_modes_eq hground).symm.trans ht, htnames⟩

end ShaderFlow
