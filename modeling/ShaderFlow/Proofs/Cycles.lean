/-
  ShaderFlow.Proofs.Cycles — connections that close no cycle.

  Before a connection is made, the nodes that its source reads from are searched for its target.
  The search goes round no longer than there are connections, and that is enough: it finds
  a node exactly if connections lead there.  So a network without cycles stays one.

  Main definitions:
    * `Graph.Feeds`   — the edges along which values flow;
    * `Graph.Acyclic` — a network in which no value depends on itself.

  Main statements:
    * `Graph.dependsOn_iff`            — what the search finds, on any network;
    * `Graph.Acyclic.appendConnection` — a connection that may be made closes no cycle.
-/

import ShaderFlow.Graph.Edit
import ShaderFlow.Proofs.DependencyOrder

namespace ShaderFlow

open Relation

variable {g g' : Graph}

/-! ## §1. Where values flow -/

/-- Whether a connection leads from one node to another. -/
def Graph.Feeds (g : Graph) (source target : NodeId) : Prop :=
  ∃ c ∈ g.connections, c.source = source ∧ c.target = target

/-- No value depends on itself. -/
def Graph.Acyclic (g : Graph) : Prop := ∀ id, ¬TransGen g.Feeds id id

theorem Graph.Feeds.mono (h : g.connections ⊆ g'.connections) {source target : NodeId}
    (hfeeds : g.Feeds source target) : g'.Feeds source target := by
  obtain ⟨c, hc, hends⟩ := hfeeds
  exact ⟨c, h hc, hends⟩

/-- Fewer connections close no cycle. -/
theorem Graph.Acyclic.mono (h : g.Acyclic) (hsub : g'.connections ⊆ g.connections) : g'.Acyclic :=
  fun id hcycle => h id (TransGen.mono (fun _ _ => Graph.Feeds.mono hsub) _ _ hcycle)

theorem Graph.acyclic_of_connections_eq_nil (h : g.connections = []) : g.Acyclic := by
  intro id hcycle
  obtain ⟨_, ⟨c, hc, _⟩, _⟩ := TransGen.head'_iff.mp hcycle
  rw [h] at hc
  cases hc

/-- No node feeds itself. -/
theorem Graph.Acyclic.ne (h : g.Acyclic) {c : Connection} (hc : c ∈ g.connections) :
    c.source ≠ c.target :=
  fun heq => h c.target (.single ⟨c, hc, heq, rfl⟩)

/-! ## §2. The search -/

section Search

variable {connections : List Connection} {goal : NodeId}

/-- Whether a node reads from another one by way of a connection of a list. -/
def ReadsFrom (connections : List Connection) (target source : NodeId) : Prop :=
  ∃ c ∈ connections, c.source = source ∧ c.target = target

theorem mem_reverse_sources {id next : NodeId} :
    next ∈ ((connections.filter (·.target == id)).map (·.source)).reverse ↔
      ReadsFrom connections id next := by
  simp [ReadsFrom, and_assoc, and_comm]

/-- What the search finds is read from on the stack. -/
theorem readsFrom_of_searchSources :
    ∀ {rounds : Nat} {stack seen : List NodeId},
      Graph.searchSources connections goal rounds stack seen = true →
        ∃ id ∈ stack, ReflTransGen (ReadsFrom connections) id goal
  | _, [], _, h => by simp [Graph.searchSources] at h
  | 0, _ :: _, _, h => by simp [Graph.searchSources] at h
  | rounds + 1, id :: stack, seen, h => by
    rw [Graph.searchSources] at h
    split at h
    next hgoal =>
      rw [beq_iff_eq] at hgoal
      exact ⟨id, List.mem_cons_self, hgoal ▸ .refl⟩
    next =>
      split at h
      next =>
        obtain ⟨other, hother, hpath⟩ := readsFrom_of_searchSources h
        exact ⟨other, List.mem_cons_of_mem _ hother, hpath⟩
      next =>
        obtain ⟨other, hother, hpath⟩ := readsFrom_of_searchSources h
        rcases List.mem_append.mp hother with hnext | hother
        · exact ⟨id, List.mem_cons_self, .head (mem_reverse_sources.mp hnext) hpath⟩
        · exact ⟨other, List.mem_cons_of_mem _ hother, hpath⟩

/-- What was searched so far: none of it is the goal, and all that it reads from is on the stack
    or was searched itself. -/
structure Searched (connections : List Connection) (goal : NodeId) (stack seen : List NodeId) :
    Prop where
  missed : goal ∉ seen
  closed : ∀ id ∈ seen, ∀ next, ReadsFrom connections id next → next ∈ seen ∨ next ∈ stack

/-- A way from a node that was searched to the goal comes past the stack. -/
theorem Searched.exits {stack seen : List NodeId} (h : Searched connections goal stack seen)
    {id : NodeId} (hid : id ∈ seen) (hpath : ReflTransGen (ReadsFrom connections) id goal) :
    ∃ next ∈ stack, next ∉ seen ∧ ReflTransGen (ReadsFrom connections) next goal := by
  induction hpath using ReflTransGen.head_induction_on with
  | refl => exact absurd hid h.missed
  | @head id next hedge hpath ih =>
    by_cases hseen : next ∈ seen
    · exact ih hseen
    · exact ⟨next, (h.closed id hid next hedge).resolve_left hseen, hseen, hpath⟩

/-- The connections that the search has not gone along yet. -/
def ahead (connections : List Connection) (seen : List NodeId) : List Connection :=
  connections.filter fun c => !seen.contains c.target

/-- A node that is searched takes the connections that feed it from those ahead. -/
theorem length_ahead (connections : List Connection) {id : NodeId} {seen : List NodeId}
    (hnew : id ∉ seen) :
    (ahead connections seen).length =
      (connections.filter (·.target == id)).length + (ahead connections (id :: seen)).length := by
  rw [List.length_eq_length_filter_add fun c : Connection => c.target == id, ahead, ahead,
    List.filter_filter, List.filter_filter]
  congr 2
  · refine List.filter_congr fun c _ => ?_
    by_cases hc : c.target = id <;> simp [hc, hnew]
  · refine List.filter_congr fun c _ => ?_
    by_cases hc : c.target = id <;> simp [hc]

/-- The search finds what is read from on the stack.  There are rounds enough for the stack and
    for the connections ahead, each of which puts a node there once. -/
theorem searchSources_of_readsFrom :
    ∀ {rounds : Nat} {stack seen : List NodeId}, Searched connections goal stack seen →
      stack.length + (ahead connections seen).length ≤ rounds →
      (∃ id ∈ stack, ReflTransGen (ReadsFrom connections) id goal) →
        Graph.searchSources connections goal rounds stack seen = true
  | _, [], _, _, _, hreach => by
    obtain ⟨_, hid, _⟩ := hreach
    cases hid
  | 0, _ :: _, _, _, hrounds, _ => by simp at hrounds
  | rounds + 1, id :: stack, seen, hsearched, hrounds, ⟨start, hstart, hpath⟩ => by
    rw [List.length_cons] at hrounds
    rw [Graph.searchSources]
    split
    next => rfl
    next hgoal =>
      rw [beq_iff_eq] at hgoal
      split
      next hseen =>
        have hseen : id ∈ seen := by simpa using hseen
        refine searchSources_of_readsFrom ⟨hsearched.missed, fun other hother next hedge => ?_⟩
          (by omega) ?_
        · rcases hsearched.closed other hother next hedge with hin | hon
          · exact .inl hin
          · rcases List.mem_cons.mp hon with rfl | hon
            · exact .inl hseen
            · exact .inr hon
        · rcases List.mem_cons.mp hstart with rfl | hstart
          · -- the node was searched before, so the way goes on past the rest of the stack
            obtain ⟨next, hnext, hunseen, hrest⟩ := hsearched.exits hseen hpath
            rcases List.mem_cons.mp hnext with rfl | hnext
            · exact absurd hseen hunseen
            · exact ⟨next, hnext, hrest⟩
          · exact ⟨start, hstart, hpath⟩
      next hseen =>
        -- a new node goes to those searched, and its sources go onto the stack in its place
        have hnew : id ∉ seen := by simpa using hseen
        have hlength := length_ahead connections hnew
        refine searchSources_of_readsFrom ⟨?_, fun other hother next hedge => ?_⟩ ?_ ?_
        · rw [List.mem_cons, not_or]
          exact ⟨fun heq => hgoal heq.symm, hsearched.missed⟩
        · rcases List.mem_cons.mp hother with rfl | hother
          · exact .inr (List.mem_append_left _ (mem_reverse_sources.mpr hedge))
          · rcases hsearched.closed other hother next hedge with hin | hon
            · exact .inl (List.mem_cons_of_mem _ hin)
            · rcases List.mem_cons.mp hon with rfl | hon
              · exact .inl List.mem_cons_self
              · exact .inr (List.mem_append_right _ hon)
        · rw [List.length_append, List.length_reverse, List.length_map]
          omega
        · rcases List.mem_cons.mp hstart with rfl | hstart
          · rcases ReflTransGen.cases_head hpath with rfl | ⟨next, hedge, hrest⟩
            · exact absurd rfl hgoal
            · exact ⟨next, List.mem_append_left _ (mem_reverse_sources.mpr hedge), hrest⟩
          · exact ⟨start, List.mem_append_right _ hstart, hpath⟩

end Search

/-- **What the search finds**, on any network: whether connections lead from the one node to the
    other. -/
theorem Graph.dependsOn_iff {id ancestor : NodeId} :
    g.dependsOn id ancestor = true ↔ ReflTransGen g.Feeds ancestor id := by
  -- to read from a node is to be fed by it
  have hswap : ReflTransGen (ReadsFrom g.connections) id ancestor ↔
      ReflTransGen g.Feeds ancestor id := reflTransGen_swap (r := g.Feeds)
  rw [← hswap]
  constructor
  · intro h
    obtain ⟨start, hstart, hpath⟩ := readsFrom_of_searchSources h
    rw [List.mem_singleton.mp hstart] at hpath
    exact hpath
  · intro h
    refine searchSources_of_readsFrom
      ⟨List.not_mem_nil, fun _ hid => absurd hid List.not_mem_nil⟩ ?_
      ⟨id, List.mem_singleton_self _, h⟩
    have hle : (ahead g.connections []).length ≤ g.connections.length := List.length_filter_le _ _
    rw [List.length_singleton]
    omega

/-! ## §3. Adding a connection -/

/-- With one more connection, what can be reached was reachable before, or is so by way of that
    connection. -/
theorem Graph.reaches_appendConnection {c : Connection} {source target : NodeId}
    (h : TransGen (g.appendConnection c).Feeds source target) :
    TransGen g.Feeds source target ∨
      ReflTransGen g.Feeds source c.source ∧ ReflTransGen g.Feeds c.target target := by
  have hedge : ∀ {a b}, (g.appendConnection c).Feeds a b →
      g.Feeds a b ∨ a = c.source ∧ b = c.target := by
    rintro a b ⟨own, hown, rfl, rfl⟩
    rcases List.mem_append.mp hown with hown | hown
    · exact .inl ⟨own, hown, rfl, rfl⟩
    · rw [List.mem_singleton.mp hown]
      exact .inr ⟨rfl, rfl⟩
  induction h with
  | single h =>
    rcases hedge h with hold | ⟨rfl, rfl⟩
    · exact .inl (.single hold)
    · exact .inr ⟨.refl, .refl⟩
  | tail _ h ih =>
    rcases hedge h with hold | ⟨rfl, rfl⟩
    · rcases ih with hpath | ⟨hto, hfrom⟩
      · exact .inl (hpath.tail hold)
      · exact .inr ⟨hto, hfrom.tail hold⟩
    · rcases ih with hpath | ⟨hto, _⟩
      · exact .inr ⟨hpath.to_reflTransGen, .refl⟩
      · exact .inr ⟨hto, .refl⟩

/-- **A connection whose source does not depend on its target closes no cycle.** -/
theorem Graph.Acyclic.appendConnection (h : g.Acyclic) {c : Connection}
    (hfree : g.dependsOn c.source c.target = false) : (g.appendConnection c).Acyclic := by
  intro id hcycle
  rcases Graph.reaches_appendConnection hcycle with hold | ⟨hto, hfrom⟩
  · exact h id hold
  · have hback : g.dependsOn c.source c.target = true := Graph.dependsOn_iff.mpr (hfrom.trans hto)
    rw [hfree] at hback
    cases hback

end ShaderFlow
