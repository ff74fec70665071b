/-
  ShaderFlow.Proofs.Copies — subnets that are used more than once.

  A copy of a subnet holds the network of the original, identities included.  Values that are
  followed into subnets and out of them never come back to the place where they began, as long
  as no network has a cycle of its own.  But a traversal knows places by their identities: where
  one copy feeds another, it takes a node of the second for one that is on the way already and
  complains of a cycle that is not there.

  Main definitions:
    * `Visit.outermost`  — the node of the graph itself that a place is in;
    * `Graph.Unrepeated` — whether no node leads to another one of its identity.

  Main statements:
    * `Graph.Located.not_returns`    — following edges does not lead back to a place;
    * `Graph.unrepeated_of_descends` — copies that do not lead to each other;
    * `Graph.Built.follows_copies`   — what traversals and compilations make of copies;
    * `chained_cyclic`               — one copy behind the other is refused.
-/

import ShaderFlow.Proofs.Origins
import ShaderFlow.Proofs.WellFormed

namespace ShaderFlow

open Relation

variable {mode : TraversalMode} {filter : Node → InputFilter} {g : Graph} {path : String}
  {roots : List NodeId} {v w : Visit} {e : CompileError}

/-! ## §1. Places inside subnets -/

/-- The node of the graph itself that a place is in: its own node, or the outermost subnet
    around it. -/
def Visit.outermost (v : Visit) : Node := (v.frames.getLast?.map (·.subnet)).getD v.node

theorem Visit.outermost_of_nil (hf : v.frames = []) : v.outermost = v.node := by
  rw [Visit.outermost, hf]
  rfl

theorem Visit.outermost_of_append {front : List Frame} {f : Frame}
    (hf : v.frames = front ++ [f]) : v.outermost = f.subnet := by
  rw [Visit.outermost, hf, List.getLast?_concat]
  rfl

/-- A place that no subnet encloses is in the graph itself. -/
theorem Graph.Located.graph_eq (h : g.Located path v) (hf : v.frames = []) : v.graph = g := by
  cases h with
  | top _ => rfl
  | inside _ _ _ => cases hf

/-- The rest of a place is inside the outermost subnet around it. -/
theorem Graph.Located.inner (h : g.Located path v) :
    ∀ {front : List Frame} {f : Frame}, v.frames = front ++ [f] →
      f.graph = g ∧ f.subnet ∈ g.nodes ∧ ∃ s, f.subnet.kind = .subnet s ∧
        s.network.Located (NodeRef.join f.path f.subnet.name) { v with frames := front } := by
  induction h with
  | top _ =>
    intro front f hf
    simp at hf
  | @inside v s n hv hs hn ih =>
    intro front f hf
    cases front with
    | nil =>
      obtain ⟨rfl, hnil⟩ := List.cons.inj hf
      refine ⟨hv.graph_eq hnil, ?_, s, hs, .top hn⟩
      rw [← hv.graph_eq hnil]
      exact hv.within.2
    | cons own front =>
      obtain ⟨rfl, hrest⟩ := List.cons.inj hf
      obtain ⟨hgraph, hmem, t, ht, hinner⟩ := ih hrest
      exact ⟨hgraph, hmem, t, ht, .inside hinner hs hn⟩

/-- Whether two places are in one subnet of the graph, the first one maybe as that subnet itself,
    and `R` holds of what they are inside it. -/
def Visit.Inside (R : Visit → Visit → Prop) (v w : Visit) : Prop :=
  w.outermost = v.outermost ∧ ∃ back f, w.frames = back ++ [f] ∧
    (v.frames = [] ∨ ∃ front, v.frames = front ++ [f] ∧
      R { v with frames := front } { w with frames := back })

theorem Visit.Inside.intro {R : Visit → Visit → Prop} {front back : List Frame} {f : Frame}
    (hv : v.frames = front ++ [f]) (hw : w.frames = back ++ [f])
    (h : R { v with frames := front } { w with frames := back }) : v.Inside R w := by
  refine ⟨?_, back, f, hw, .inr ⟨front, hv, h⟩⟩
  rw [Visit.outermost_of_append hv, Visit.outermost_of_append hw]

/-- What feeds an input that is followed leads along a connection. -/
theorem Visit.FedBy.feeds {c : Connection} {source : Node} (hc : v.FedBy filter c)
    (hs : v.graph.node? c.source = some source) : v.graph.Feeds source.id v.node.id := by
  obtain ⟨input, _, _, hfound⟩ := hc
  exact ⟨c, Graph.mem_of_inputSource? hfound, (Graph.id_of_node? hs).symm,
    (Graph.ends_of_inputSource? hfound).1⟩

/-- **One edge** either leads along a connection of the graph or stays inside a subnet of it. -/
theorem Visit.Follows.climbs (hv : g.Located path v) (h : v.Follows mode filter w) :
    g.Feeds w.outermost.id v.outermost.id ∨ v.Inside (Visit.Follows mode filter) w := by
  cases h with
  | @input r c source hr hc hs =>
    have hfeeds := hc.feeds hs
    cases hr with
    | own hown =>
      rcases List.eq_nil_or_concat' v.frames with hf | ⟨front, f, hf⟩
      · rw [hv.graph_eq hf] at hfeeds
        rw [Visit.outermost_of_nil hf, Visit.outermost_of_nil (v := { v with node := source }) hf]
        exact .inl hfeeds
      · -- what offers the inputs of the subnet would have led out of it
        have hown' : mode = .shallow ∨ (∀ s, v.node.kind ≠ .subnet s) ∧
            (v.node.kind.isSubnetInput = true → front = []) := by
          refine hown.imp_right fun ⟨hsubnet, htop⟩ => ⟨hsubnet, fun hk => ?_⟩
          rw [htop hk] at hf
          simp at hf
        exact .inr (.intro hf hf (.input (.own hown') hc hs))
    | @leave frame outer hmode hk hf =>
      -- leaving a subnet of the outermost network comes back to that network
      rcases List.eq_nil_or_concat' outer with rfl | ⟨front, f, rfl⟩
      · have hgraph : frame.graph = g := (hv.outer hf).graph_eq rfl
        have hfeeds : frame.graph.Feeds source.id frame.subnet.id := hfeeds
        rw [hgraph] at hfeeds
        have hf : v.frames = [] ++ [frame] := hf
        rw [Visit.outermost_of_append hf, Visit.outermost_of_nil rfl]
        exact .inl hfeeds
      · have hf : v.frames = (frame :: front) ++ [f] := hf
        have hleave : Visit.Reads mode { v with frames := frame :: front }
            (Visit.ofFrame frame front) := .leave hmode hk rfl
        exact .inr (.intro hf rfl (.input hleave hc hs))
  | @enter s output hmode hk ho =>
    right
    rcases List.eq_nil_or_concat' v.frames with hf | ⟨front, f, hf⟩
    · have hinside : (v.inside s output).frames =
          [] ++ [{ graph := v.graph, path := v.path, subnet := v.node }] := by
        rw [Visit.inside, hf]
        rfl
      refine ⟨?_, _, _, hinside, .inl hf⟩
      rw [Visit.outermost_of_nil hf, Visit.outermost_of_append hinside]
    · have hinside : (v.inside s output).frames =
          ({ graph := v.graph, path := v.path, subnet := v.node } :: front) ++ [f] := by
        rw [Visit.inside, hf]
        rfl
      exact .intro hf hinside (.enter hmode hk ho)

/-- So does a way of any length. -/
theorem Visit.climbs_path (hv : g.Located path v)
    (h : TransGen (Visit.Follows mode filter) v w) :
    TransGen g.Feeds w.outermost.id v.outermost.id ∨
      v.Inside (TransGen (Visit.Follows mode filter)) w := by
  induction h with
  | single h =>
    rcases h.climbs hv with hfeeds | ⟨hout, back, f, hw, hinner⟩
    · exact .inl (.single hfeeds)
    · exact .inr ⟨hout, back, f, hw, hinner.imp_right fun ⟨front, hf, hstep⟩ =>
        ⟨front, hf, .single hstep⟩⟩
  | @tail w x hpath hstep ih =>
    have hw : g.Located path w := hv.follows_path hpath
    -- once a path has climbed out, what it does inside no longer matters
    rcases ih with hfeeds | ⟨hout, back, f, hf, hinner⟩
    · rcases hstep.climbs hw with hmore | ⟨hsame, _⟩
      · exact .inl (.head hmore hfeeds)
      · rw [hsame]
        exact .inl hfeeds
    · rcases hstep.climbs hw with hmore | ⟨hsame, back', f', hx, hnil | ⟨middle, hmiddle, hnext⟩⟩
      · rw [hout] at hmore
        exact .inl (.single hmore)
      · rw [hnil] at hf
        simp at hf
      · rw [hf] at hmiddle
        obtain ⟨rfl, hlast⟩ := List.append_inj' hmiddle rfl
        obtain rfl : f = f' := List.singleton_inj.mp hlast
        refine .inr ⟨hsame.trans hout, back', f, hx, hinner.imp_right ?_⟩
        rintro ⟨front, hfront, hinside⟩
        exact ⟨front, hfront, hinside.tail hnext⟩

/-- **No way leads back to the place where it began**, if no network has a cycle: outside it
    would go round along connections of the graph, and inside a subnet there is none either. -/
theorem Graph.Located.not_returns :
    ∀ {g : Graph}, g.Everywhere Graph.Acyclic → ∀ {path : String} {v : Visit},
      g.Located path v → ¬TransGen (Visit.Follows mode filter) v v := by
  intro g
  induction g using Graph.network_induction with
  | step g ih =>
    intro hg path v hv hcycle
    rcases Visit.climbs_path hv hcycle
      with hfeeds | ⟨-, back, f, hf, hnil | ⟨front, hfront, hinner⟩⟩
    · exact hg.here _ hfeeds
    · rw [hnil] at hf
      simp at hf
    · obtain ⟨-, hmem, s, hs, hlocated⟩ := hv.inner hf
      rw [hf] at hfront
      obtain ⟨rfl, -⟩ := List.append_inj' hfront rfl
      have hnests : s.network.Nests g := ⟨f.subnet, hmem, s, hs, rfl⟩
      exact ih s.network hnests (hg.inside hnests) hlocated hinner

/-! ## §2. Traversals -/

/-- In a hierarchy of sound networks no source is missing. -/
theorem Graph.Located.not_dangles (hg : g.Everywhere Graph.Sound) (hv : g.Located path v)
    (id : NodeId) : ¬v.Dangles mode filter id := by
  rintro ⟨r, c, hr, ⟨input, _, _, hfound⟩, rfl, hnone⟩
  have hlocated : g.Located path r := by
    cases hr with
    | own _ => exact hv
    | leave _ _ hf => exact hv.outer hf
  obtain ⟨⟨source, hs, _⟩, _⟩ :=
    (hg r.graph hlocated.within.1).ends (Graph.mem_of_inputSource? hfound)
  rw [hnone] at hs
  cases hs

/-- **What an edited graph is refused for**: two different places of one identity, the second
    one on a way that begins at the first. -/
theorem Graph.Built.cause_of_traverse (hg : g.Built)
    (hroots : ∀ root ∈ roots, ∃ n, g.node? root = some n)
    (h : g.traverse path mode filter roots = .error e) :
    ∃ u v, g.Reaches path mode filter roots u ∧ g.Reaches path mode filter roots v ∧
      TransGen (Visit.Follows mode filter) u v ∧ u ≠ v ∧ u.node.id = v.node.id ∧
        e = .cyclicDependency (NodeRef.of v.path v.node) := by
  have hwalk := g.walks_traverse path mode filter roots
  rw [h] at hwalk
  rcases Graph.cause_of_error hwalk
    with ⟨root, hroot, hnone, _⟩ | ⟨v, hv, ⟨id, hdangles, _⟩ | ⟨rfl, u, hu, hid, hpath⟩⟩
  · obtain ⟨n, hn⟩ := hroots root hroot
    rw [hnone] at hn
    cases hn
  · exact absurd hdangles (hv.located.not_dangles hg.sound id)
  · refine ⟨u, v, hu, hv, hpath, ?_, hid, rfl⟩
    rintro rfl
    exact hu.located.not_returns (hg.wellFormed.mono fun _ h => h.acyclic) hpath

/-- Whether no node of a hierarchy leads to another one of its identity, as it does where one
    copy of a subnet feeds another. -/
def Graph.Unrepeated (g : Graph) : Prop :=
  ∀ path v w, g.Located path v → TransGen (Visit.Follows .deep followAll) v w →
    v.node.id = w.node.id → v = w

/-- Whether every edge from a place leads to an identity of lower rank. -/
def Visit.descends (rank : NodeId → Nat) (v : Visit) : Bool :=
  (v.steps .deep followAll).all fun step =>
    (step.toOption.map fun w => decide (rank w.node.id < rank v.node.id)).getD true

/-- Nodes lead to no others of their identity where some rank of identities falls along every
    edge, whichever nodes are copies of each other. -/
theorem Graph.unrepeated_of_descends (rank : NodeId → Nat)
    (hfalls : ∀ path, (g.places path []).all (Visit.descends rank) = true) : g.Unrepeated := by
  intro path v w hv hpath
  have hstep : ∀ u, g.Located path u → ∀ x, u.Follows .deep followAll x →
      rank x.node.id < rank u.node.id := by
    intro u hu x hx
    have hu := List.all_eq_true.mp (hfalls path) u hu.mem_places
    exact of_decide_eq_true (List.all_eq_true.mp hu _ (Visit.ok_mem_steps.mpr hx))
  have hfall : rank w.node.id < rank v.node.id := by
    induction hpath with
    | single h => exact hstep v hv _ h
    | tail hpath h ih => exact Nat.lt_trans (hstep _ (hv.follows_path hpath) _ h) ih
  intro hid
  rw [hid] at hfall
  exact absurd hfall (Nat.lt_irrefl _)

/-- Nodes with identities of their own lead to no others of their identity. -/
theorem Graph.unrepeated_of_nodup (hids : g.ids.Nodup) : g.Everywhere Graph.Unrepeated := by
  intro network hnetwork path v w hv hpath hid
  exact hv.eq_of_id (Graph.nodup_ids_within hnetwork hids) (hv.follows_path hpath) hid

/-! ## §3. Compilations -/

/-- Whether an error is no complaint of a cycle. -/
def CompileError.Uncycled (e : CompileError) : Prop := ∀ ref, e ≠ .cyclicDependency ref

/-- Where subnets are not entered, networks without cycles are traversed without a complaint. -/
theorem Graph.uncycled_network (hg : g.Everywhere Graph.Acyclic) :
    FailsOnly CompileError.Uncycled (g.traverse path .shallow filter roots) := by
  intro e he ref
  have hwalk := g.walks_traverse path .shallow filter roots
  rw [he] at hwalk
  rcases hwalk.broken (g.terrain_network path filter) (fun _ => Graph.network_of_root)
    with hroot | ⟨v, u, hv, hpath, hstep | ⟨rfl, hcycle⟩⟩
  · obtain ⟨_, _, _, rfl⟩ := Graph.error_mem_rootSteps hroot
    exact nofun
  · obtain ⟨_, rfl, _⟩ := Visit.error_mem_steps.mp hstep
    exact nofun
  · have hu : g.Reaches path .shallow filter roots u := ⟨v, hv, hpath⟩
    exact absurd hcycle (hu.located.not_returns hg)

/-- Where they are, it takes that no node leads to another one of its identity. -/
theorem Graph.uncycled_hierarchy (hg : g.Everywhere Graph.Acyclic) (hone : g.Unrepeated) :
    FailsOnly CompileError.Uncycled (g.traverse path .deep followAll roots) := by
  intro e he ref
  have hwalk := g.walks_traverse path .deep followAll roots
  rw [he] at hwalk
  rcases Graph.cause_of_error hwalk
    with ⟨_, _, _, rfl⟩ | ⟨v, hv, ⟨_, _, rfl⟩ | ⟨rfl, u, hu, hid, hpath⟩⟩
  · exact nofun
  · exact nofun
  · obtain rfl := hone path u v hu.located hpath hid
    exact absurd hpath (hu.located.not_returns hg)

/-- What a graph asks for is asked for without such a complaint, at any depth. -/
theorem Particles.uncycled_collectRequests :
    ∀ {levels : Nat} {g : Graph} {path : String} {roots : List NodeId},
      g.Everywhere Graph.Acyclic → g.Everywhere Graph.Unrepeated →
        FailsOnly CompileError.Uncycled (collectRequests levels g path roots) := by
  intro levels
  induction levels with
  | zero =>
    intro g path roots hg hone
    rw [collectRequests_eq]
    refine .bind (Graph.uncycled_hierarchy hg hone.here) fun t _ =>
      .bind (.mapM fun r _ => ?_) fun _ _ => .ok _
    unfold requestsOf
    simp only
    split
    case h_3 => split <;> exact .ok _
    all_goals exact .ok _
  | succ levels ih =>
    intro g path roots hg hone
    rw [collectRequests_eq]
    refine .bind (Graph.uncycled_hierarchy hg hone.here) fun t ht =>
      .bind (.mapM fun r hr => ?_) fun _ _ => .ok _
    obtain ⟨v, hv, rfl⟩ := Graph.within_of_traverse ht r hr
    obtain ⟨hwithin, hmem⟩ := hv.located.within
    unfold requestsOf
    simp only
    split
    case h_3 s hk =>
      split
      · exact .ok _
      · -- the network inside is one of the hierarchy
        have hnests : ReflTransGen Graph.Nests s.network g :=
          .head ⟨v.node, hmem, s, hk, rfl⟩ hwithin
        exact ih (fun network hnetwork => hg network (hnetwork.trans hnests))
          (fun network hnetwork => hone network (hnetwork.trans hnests))
    all_goals exact .ok _

variable {b : Backend} {context : Context}

/-- A pass enters no subnets as it searches for cycles, so it finds those of networks only. -/
theorem Backend.uncycled_pass (hg : g.Everywhere Graph.Acyclic) :
    FailsOnly CompileError.Uncycled (b.pass g context) := by
  refine .bind ?_ fun _ _ => .bind ?_ fun _ _ => .bind (.map ?_) fun _ _ =>
    .bind (Graph.uncycled_network hg) fun _ _ => .foldlM fun _ _ _ => ?_
  · intro e he ref
    rcases Graph.outputNode_cause he with rfl | ⟨_, rfl⟩ <;> exact nofun
  · intro e he ref
    obtain ⟨_, _, rfl⟩ := Backend.checkNodes_cause he
    exact nofun
  · intro e he ref
    obtain ⟨_, _, _, _, rfl⟩ := Graph.reserveVariables_cause he
    exact nofun
  · refine Graph.complains_emitStage.mono fun e he => ?_
    cases he with
    | @search network _ _ hwithin h =>
      have hinner : network.Everywhere Graph.Acyclic :=
        fun inner hinner => hg inner (hinner.trans hwithin)
      exact Graph.uncycled_network hinner e h
    | node _ _ h =>
      intro ref
      cases h <;> exact nofun

theorem Backend.uncycled_compile (hg : g.Everywhere Graph.Acyclic)
    (hcopies : ∀ table, b = .particles table → g.Everywhere Graph.Unrepeated) :
    FailsOnly CompileError.Uncycled (b.compile g context).2 := by
  refine Backend.failsOnly_compile (fun _ _ _ => nofun) (fun table hb => ?_)
    fun left _ => left.uncycled_pass hg
  refine .bind ?_ fun _ _ => .bind ?_ fun requests _ => .bind ?_ fun _ _ => .ok _
  · intro e he ref
    rcases Graph.outputNode_cause he with rfl | ⟨_, rfl⟩ <;> exact nofun
  · exact Particles.uncycled_collectRequests hg (hcopies table hb)
  · exact table.failsOnly_update _ (fun _ _ => nofun) fun _ _ _ => nofun

/-- **Subnets that are used more than once.**  In a graph that edits built, copies of subnets
    among its nodes, a deep traversal from existing roots fails only where it goes from a node
    to another one of its identity, and names that one.  Where what the roots lead to is told
    apart by identities, it succeeds and lists all of it: what is inside each subnet that it
    reaches and what feeds that from outside.  No compilation complains of a cycle; one of
    particles does so only if some node leads to another one of its identity. -/
theorem Graph.Built.follows_copies (hg : g.Built) :
    (∀ path roots, (∀ root ∈ roots, ∃ n, g.node? root = some n) →
      (∀ e, g.traverse path .deep followAll roots = .error e →
        ∃ u v, g.Reaches path .deep followAll roots u ∧ g.Reaches path .deep followAll roots v ∧
          TransGen (Visit.Follows .deep followAll) u v ∧ u ≠ v ∧ u.node.id = v.node.id ∧
            e = .cyclicDependency (NodeRef.of v.path v.node)) ∧
      (g.TellsApart path .deep followAll roots →
        ∃ t visits, g.traverse path .deep followAll roots = .ok t ∧
          g.Sorts path .deep followAll roots visits t)) ∧
    ∀ b : Backend, (∀ table, b = .particles table → g.Everywhere Graph.Unrepeated) →
      ∀ context ref, (b.compile g context).2 ≠ .error (.cyclicDependency ref) := by
  refine ⟨fun path roots hroots => ⟨fun e he => hg.cause_of_traverse hroots he, fun hapart => ?_⟩,
    fun b hcopies context ref he => ?_⟩
  · cases ht : g.traverse path .deep followAll roots with
    | error e =>
      obtain ⟨u, v, hu, hv, _, hne, hid, _⟩ := hg.cause_of_traverse hroots ht
      exact absurd (hapart u v hu hv hid) hne
    | ok t =>
      have hwalk := g.walks_traverse path .deep followAll roots
      rw [ht] at hwalk
      obtain ⟨visits, hsorts, _⟩ := Graph.sorts_of_ok hapart hwalk
      exact ⟨t, visits, rfl, hsorts⟩
  · have hacyclic : g.Everywhere Graph.Acyclic := hg.wellFormed.mono fun _ h => h.acyclic
    exact Backend.uncycled_compile hacyclic hcopies _ he ref rfl

/-- A subnet that hands a vector on. -/
def relay : Subnet where
  inputs := [⟨"a", .vector3⟩]
  outputs := [⟨"b", .vector3⟩]
  block := .always
  network :=
    { Graph.empty "s" with
      nodes :=
        [.make ⟨10⟩ "subnet_input" (.subnetInput [⟨"a", .vector3⟩]),
         .make ⟨11⟩ "subnet_output" (.subnetOutput [⟨"b", .vector3⟩])]
      connections := [⟨⟨9⟩, ⟨10⟩, "a", ⟨11⟩, "b"⟩]
      version := 3 }

/-- Particles, such a subnet and a copy of it, with the given connections. -/
def copied (connections : List Connection) : Graph :=
  { Graph.empty "g" with
    nodes :=
      [.make ⟨1⟩ "out" (.output .particles),
       .make ⟨2⟩ "s1" (.subnet relay),
       .make ⟨3⟩ "s2" (.subnet relay)]
    connections
    version := 5 }

/-- The particles are placed by the copy, which the other subnet feeds. -/
def chained : Graph := copied [⟨⟨4⟩, ⟨2⟩, "b", ⟨3⟩, "a"⟩, ⟨⟨5⟩, ⟨3⟩, "b", ⟨1⟩, "position"⟩]

/-- One subnet places the particles, and the copy beside it moves them. -/
def paired : Graph := copied [⟨⟨4⟩, ⟨2⟩, "b", ⟨1⟩, "position"⟩, ⟨⟨5⟩, ⟨3⟩, "b", ⟨1⟩, "velocity"⟩]

theorem copied_built {connections : List Connection}
    (h : Graph.assemble "g" (copied connections).nodes connections = .ok (copied connections)) :
    (copied connections).Built := by
  have hrelay : relay.network.Built := by
    refine .assemble (fun n hn s hk => ?_)
      (rfl : Graph.assemble "s" relay.network.nodes relay.network.connections = .ok relay.network)
    simp only [relay, List.mem_cons, List.not_mem_nil, or_false] at hn
    rcases hn with rfl | rfl <;> cases hk
  refine .assemble (fun n hn s hk => ?_) h
  simp only [copied, List.mem_cons, List.not_mem_nil, or_false] at hn
  rcases hn with rfl | rfl | rfl <;> cases hk <;> exact hrelay

/-- Beside each other, neither leads to the other, nor to what is inside the other. -/
theorem paired_unrepeated : paired.Everywhere Graph.Unrepeated := by
  refine .intro ?_ ?_
  · -- outside the subnets identities grow along the edges, inside them they fall
    exact Graph.unrepeated_of_descends
      (fun id => if id.value < 10 then 20 - id.value else id.value - 10) fun _ => rfl
  · rintro inner ⟨n, hn, s, hs, rfl⟩
    simp only [paired, copied, List.mem_cons, List.not_mem_nil, or_false] at hn
    rcases hn with rfl | rfl | rfl <;> cases hs <;>
      exact Graph.unrepeated_of_nodup (by decide)

/-- The place of the copy. -/
def pairedCopy : Visit where
  graph := paired
  path := "/g"
  node := .make ⟨3⟩ "s2" (.subnet relay)

/-- What collects its outputs. -/
def pairedOutput : Visit :=
  pairedCopy.inside relay (.make ⟨11⟩ "subnet_output" (.subnetOutput [⟨"b", .vector3⟩]))

/-- What offers its inputs. -/
def pairedInput : Visit :=
  { pairedOutput with node := .make ⟨10⟩ "subnet_input" (.subnetInput [⟨"a", .vector3⟩]) }

theorem paired_reaches {v : Visit} (h : paired.Reaches "/g" .deep followAll [⟨3⟩] v) :
    v ∈ [pairedCopy, pairedOutput, pairedInput] := by
  obtain ⟨u, hu, hpath⟩ := h
  simp only [List.mem_cons, List.not_mem_nil, or_false]
  induction hpath with
  | refl => exact .inl (Except.ok.inj (List.mem_singleton.mp hu))
  | tail _ hstep ih =>
    have hstep := Visit.ok_mem_steps.mpr hstep
    -- each of them leads to the next one, and the last one is fed by nothing
    rcases ih with rfl | rfl | rfl
    · exact .inr (.inl (Except.ok.inj (List.mem_singleton.mp hstep)))
    · exact .inr (.inr (Except.ok.inj (List.mem_singleton.mp hstep)))
    · cases hstep

/-- The copy of a subnet beside the original: the traversal succeeds though it meets identities
    twice, lists what is in the copy where it begins there, and the particles compile. -/
theorem paired_followed :
    paired.Built ∧ ¬paired.ids.Nodup ∧ paired.Everywhere Graph.Unrepeated ∧
      (∃ t, paired.traverse "/g" .deep followAll [⟨1⟩] = .ok t) ∧
      (∃ t visits, paired.traverse "/g" .deep followAll [⟨3⟩] = .ok t ∧
        paired.Sorts "/g" .deep followAll [⟨3⟩] visits t ∧
        t.ordered.map (·.path) = ["/g/s2", "/g/s2", "/g"]) ∧
      ∀ ref, ((Backend.particles {}).compile paired {}).2 ≠ .error (.cyclicDependency ref) := by
  have hbuilt : paired.Built := copied_built rfl
  have hexist : ∀ id : NodeId, id = ⟨1⟩ ∨ id = ⟨3⟩ →
      ∀ root ∈ [id], ∃ n, paired.node? root = some n := by
    rintro id hid root hroot
    obtain rfl := List.mem_singleton.mp hroot
    rcases hid with rfl | rfl <;> exact ⟨_, rfl⟩
  obtain ⟨htraverse, hcompile⟩ := Graph.Built.follows_copies hbuilt
  refine ⟨hbuilt, by decide, paired_unrepeated, ?_, ?_,
    hcompile (.particles {}) (fun _ _ => paired_unrepeated) {}⟩
  · -- an error would be a way from a node to another one of its identity
    cases ht : paired.traverse "/g" .deep followAll [⟨1⟩] with
    | ok t => exact ⟨t, rfl⟩
    | error e =>
      obtain ⟨u, v, hu, -, hpath, hne, hid, -⟩ := (htraverse "/g" _ (hexist ⟨1⟩ (.inl rfl))).1 e ht
      exact absurd (paired_unrepeated.here "/g" u v hu.located hpath hid) hne
  · have hapart : paired.TellsApart "/g" .deep followAll [⟨3⟩] := by
      have hnodup : ([pairedCopy, pairedOutput, pairedInput].map (·.node.id)).Nodup := by decide
      exact fun v w hv hw hid =>
        List.inj_on_of_nodup_map hnodup (paired_reaches hv) (paired_reaches hw) hid
    obtain ⟨t, visits, ht, hsorts⟩ := (htraverse "/g" _ (hexist ⟨3⟩ (.inr rfl))).2 hapart
    have hmap : (paired.traverse "/g" .deep followAll [⟨3⟩]).map (fun t => t.ordered.map (·.path)) =
        .ok ["/g/s2", "/g/s2", "/g"] := rfl
    rw [ht] at hmap
    exact ⟨t, visits, ht, hsorts, Except.ok.inj hmap⟩

/-- **One copy behind the other is refused**, though no network has a cycle: the node that
    collects the outputs of the first one has the identity of that of the second. -/
theorem chained_cyclic :
    chained.Built ∧ (∃ n, chained.node? ⟨1⟩ = some n) ∧
      chained.traverse "/g" .deep followAll [⟨1⟩] =
        .error (.cyclicDependency ⟨⟨11⟩, "/g/s1/subnet_output"⟩) ∧
      ((Backend.particles {}).compile chained {}).2 =
        .error (.cyclicDependency ⟨⟨11⟩, "/g/s1/subnet_output"⟩) := by
  refine ⟨copied_built rfl, ⟨_, rfl⟩, rfl, ?_⟩
  decide +kernel

end ShaderFlow
