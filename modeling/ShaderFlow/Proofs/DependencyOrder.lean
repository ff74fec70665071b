/-
  ShaderFlow.Proofs.DependencyOrder — a traversal is a topological sort.

  What a walk lists stands behind everything it leads to; what stops a walk is a node that is
  not there or a cycle.  Both are proved once for walks over any terrain and then read off
  for traversals of hierarchies and of single networks.

  Main definitions:
    * `DependencyOrdered` — visits, each behind all that it leads to;
    * `Graph.Reaches`     — what the roots lead to;
    * `Graph.TellsApart`  — whether no two places of it share an identity;
    * `Graph.Sorts`       — what the outcome of a traversal has to be;
    * `Graph.Schedules`   — the same for one network, in terms of nodes.

  Main statements:
    * `Walks.ordered` — a walk that ends well extends a dependency order by what it reaches;
    * `Walks.interrupted` — a walk that fails has met a missing node, or an identity on the way
      to a node that has it, too; `Walks.broken` — which is a cycle where identities tell apart;
    * `Graph.traverse_sorts_hierarchy` — the traversal of a hierarchy, in both modes;
    * `Graph.schedules_of_traverse`    — the order of one network.
-/

import ShaderFlow.Proofs.Hierarchy
import ShaderFlow.Proofs.Walk

namespace ShaderFlow

open Relation

variable {mode : TraversalMode} {filter : Node → InputFilter} {P : Visit → Prop}
  {ids : List NodeId}

/-! ## §1. Dependency orders -/

/-- Visits of different nodes, each behind everything that it leads to. -/
inductive DependencyOrdered (mode : TraversalMode) (filter : Node → InputFilter) :
    List Visit → Prop where
  | nil : DependencyOrdered mode filter []
  | snoc {vs : List Visit} {v : Visit} (hvs : DependencyOrdered mode filter vs)
      (hnew : ∀ w ∈ vs, w.node.id ≠ v.node.id)
      (hsteps : ∀ step ∈ v.steps mode filter, ∃ w ∈ vs, step = .ok w) :
      DependencyOrdered mode filter (vs ++ [v])

namespace DependencyOrdered

theorem nodup {vs : List Visit} (h : DependencyOrdered mode filter vs) :
    (vs.map (·.node.id)).Nodup := by
  induction h with
  | nil => exact List.nodup_nil
  | snoc _ hnew _ ih =>
    rw [List.map_append, List.nodup_append]
    refine ⟨ih, List.nodup_singleton _, ?_⟩
    intro a ha b hb
    obtain ⟨w, hw, rfl⟩ := List.mem_map.mp ha
    rw [List.map_singleton, List.mem_singleton] at hb
    rw [hb]
    exact hnew w hw

/-- All that a visit leads to stands in front of it. -/
theorem before {vs : List Visit} (h : DependencyOrdered mode filter vs) :
    ∀ {front : List Visit} {v : Visit} {back : List Visit}, vs = front ++ v :: back →
      ∀ step ∈ v.steps mode filter, ∃ w ∈ front, step = .ok w := by
  induction h with
  | nil =>
    intro front v back heq
    simp at heq
  | @snoc vs u _ _ hsteps ih =>
    intro front v back heq
    rcases List.eq_nil_or_concat back with rfl | ⟨back, last, rfl⟩
    · obtain ⟨rfl, hlast⟩ := List.append_inj' heq rfl
      rw [List.cons.injEq] at hlast
      rw [← hlast.1]
      exact hsteps
    · have heq' : vs ++ [u] = (front ++ v :: back) ++ [last] := by simpa using heq
      exact ih (List.append_inj' heq' rfl).1

theorem mem_of_step {vs : List Visit} (h : DependencyOrdered mode filter vs) {v : Visit}
    (hv : v ∈ vs) {step : Except CompileError Visit} (hstep : step ∈ v.steps mode filter) :
    ∃ w ∈ vs, step = .ok w := by
  obtain ⟨front, back, rfl⟩ := List.append_of_mem hv
  obtain ⟨w, hw, hok⟩ := h.before rfl step hstep
  exact ⟨w, List.mem_append_left _ hw, hok⟩

theorem mem_of_follows {vs : List Visit} (h : DependencyOrdered mode filter vs) {v w : Visit}
    (hv : v ∈ vs) (hw : v.Follows mode filter w) : w ∈ vs := by
  obtain ⟨w', hw', hok⟩ := h.mem_of_step hv (Visit.ok_mem_steps.mpr hw)
  rw [Except.ok.inj hok]
  exact hw'

theorem mem_of_path {vs : List Visit} (h : DependencyOrdered mode filter vs) {v w : Visit}
    (hv : v ∈ vs) (hpath : ReflTransGen (Visit.Follows mode filter) v w) : w ∈ vs := by
  induction hpath with
  | refl => exact hv
  | tail _ hstep ih => exact h.mem_of_follows ih hstep

theorem not_dangles {vs : List Visit} (h : DependencyOrdered mode filter vs) {v : Visit}
    (hv : v ∈ vs) (id : NodeId) : ¬v.Dangles mode filter id := by
  intro hdangles
  have hmem := Visit.error_mem_steps.mpr ⟨id, rfl, hdangles⟩
  obtain ⟨w, _, hok⟩ := h.mem_of_step hv hmem
  cases hok

/-- There is no cycle through nodes that have a dependency order. -/
theorem acyclic {vs : List Visit} (h : DependencyOrdered mode filter vs) :
    ∀ v ∈ vs, ¬TransGen (Visit.Follows mode filter) v v := by
  induction h with
  | nil => simp
  | @snoc vs u hvs hnew hsteps ih =>
    intro v hv hcycle
    rcases List.mem_append.mp hv with hv | hv
    · exact ih v hv hcycle
    · -- the last visit leads into the earlier ones, which never lead back to it
      rw [List.mem_singleton] at hv
      subst hv
      obtain ⟨w, hstep, hback⟩ := (TransGen.head'_iff).mp hcycle
      obtain ⟨w', hw', hok⟩ := hsteps _ (Visit.ok_mem_steps.mpr hstep)
      rw [Except.ok.inj hok] at hback
      exact hnew v (hvs.mem_of_path hw' hback) rfl

end DependencyOrdered

/-! ## §2. What a traversal lists -/

/-- Whether a traversal lists the given visits, those that lead nowhere also as leaves. -/
structure Traversal.Lists (mode : TraversalMode) (filter : Node → InputFilter) (t : Traversal)
    (vs : List Visit) : Prop where
  ordered : t.ordered = vs.map Visit.reached
  leaves : t.leaves = (vs.filter fun v => (v.steps mode filter).isEmpty).map (·.node)

namespace Traversal.Lists

theorem empty : Traversal.Lists mode filter {} [] := ⟨rfl, rfl⟩

theorem finish {t : Traversal} {vs : List Visit} (h : t.Lists mode filter vs) (v : Visit) :
    (t.finish mode filter v).Lists mode filter (vs ++ [v]) := by
  refine ⟨?_, ?_⟩
  · rw [Traversal.finish, h.ordered, List.map_append, List.map_singleton]
  · rw [Traversal.finish, h.leaves, List.filter_append, List.map_append]
    cases hempty : (v.steps mode filter).isEmpty <;> simp [hempty]

theorem hasReached_iff {t : Traversal} {vs : List Visit} (h : t.Lists mode filter vs)
    (id : NodeId) : t.hasReached id = true ↔ ∃ w ∈ vs, w.node.id = id := by
  rw [Traversal.hasReached, h.ordered]
  simp [Visit.reached]

end Traversal.Lists

/-! ## §3. Walks that end well -/

/-- **A walk extends a dependency order**: it adds what its steps lead to and nothing else,
    and none of it was on the way. -/
theorem Walks.ordered (hP : Terrain mode filter P ids) {way : List NodeId}
    {steps : List (Except CompileError Visit)} {t t' : Traversal}
    (h : Walks mode filter way steps t (.ok t')) :
    ∀ vs : List Visit, t.Lists mode filter vs → DependencyOrdered mode filter vs →
      (∀ w ∈ vs, P w) → (∀ v, .ok v ∈ steps → P v) →
      ∃ new : List Visit, t'.Lists mode filter (vs ++ new) ∧
        DependencyOrdered mode filter (vs ++ new) ∧
        (∀ step ∈ steps, ∃ w ∈ vs ++ new, step = .ok w) ∧
        ∀ w ∈ new, w.node.id ∉ way ∧ P w ∧
          ∃ v, .ok v ∈ steps ∧ ReflTransGen (Visit.Follows mode filter) v w := by
  generalize hend : (Except.ok t' : Except CompileError Traversal) = r at h
  induction h generalizing t' with
  | @done way t =>
    intro vs hlists horder _ _
    cases hend
    exact ⟨[], by simpa using hlists, by simpa using horder, by simp, by simp⟩
  | missing => cases hend
  | cycle _ => cases hend
  | @known way t v rest r _ hknown _ ih =>
    intro vs hlists horder hvs hsteps
    obtain ⟨w, hw, hid⟩ := (hlists.hasReached_iff v.node.id).mp hknown
    have hwv : w = v := hP.eq_of_id (hvs w hw) (hsteps v List.mem_cons_self) hid
    subst hwv
    obtain ⟨new, hlists', horder', hall, hnew⟩ :=
      ih hend vs hlists horder hvs fun v hv => hsteps v (List.mem_cons_of_mem _ hv)
    refine ⟨new, hlists', horder', ?_, ?_⟩
    · intro step hstep
      rcases List.mem_cons.mp hstep with rfl | hstep
      · exact ⟨w, List.mem_append_left _ hw, rfl⟩
      · exact hall step hstep
    · intro u hu
      obtain ⟨hway, hPu, x, hx, hpath⟩ := hnew u hu
      exact ⟨hway, hPu, x, List.mem_cons_of_mem _ hx, hpath⟩
  | failed _ _ _ => cases hend
  | @entered way t inner v rest r hway _ _ _ ihin ihrest =>
    intro vs hlists horder hvs hsteps
    have hv : P v := hsteps v List.mem_cons_self
    -- first what `v` leads to, then `v` itself, then what the other steps lead to
    obtain ⟨below, hlists₁, horder₁, hall₁, hnew₁⟩ := ihin rfl vs hlists horder hvs
      fun w hw => hP.closed hv (Visit.ok_mem_steps.mp hw)
    have hfresh : ∀ w ∈ vs ++ below, w.node.id ≠ v.node.id := by
      intro w hw hid
      rcases List.mem_append.mp hw with hw | hw
      · have hreached := (hlists.hasReached_iff v.node.id).mpr ⟨w, hw, hid⟩
        simp_all
      · exact (hnew₁ w hw).1 (hid ▸ List.mem_cons_self)
    have hP₁ : ∀ w ∈ vs ++ below ++ [v], P w := by
      intro w hw
      rcases List.mem_append.mp hw with hw | hw
      · rcases List.mem_append.mp hw with hw | hw
        · exact hvs w hw
        · exact (hnew₁ w hw).2.1
      · rw [List.mem_singleton] at hw
        rw [hw]
        exact hv
    obtain ⟨more, hlists₂, horder₂, hall₂, hnew₂⟩ := ihrest hend (vs ++ below ++ [v])
      (hlists₁.finish v) (.snoc horder₁ hfresh hall₁) hP₁
      fun w hw => hsteps w (List.mem_cons_of_mem _ hw)
    have hassoc : vs ++ below ++ [v] ++ more = vs ++ (below ++ v :: more) := by simp
    rw [hassoc] at hlists₂ horder₂ hall₂
    refine ⟨below ++ v :: more, hlists₂, horder₂, ?_, ?_⟩
    · intro step hstep
      rcases List.mem_cons.mp hstep with rfl | hstep
      · exact ⟨v, by simp, rfl⟩
      · exact hall₂ step hstep
    · intro w hw
      rcases List.mem_append.mp hw with hw | hw
      · obtain ⟨hnot, hPw, u, hu, hpath⟩ := hnew₁ w hw
        refine ⟨fun hin => hnot (List.mem_cons_of_mem _ hin), hPw, v, List.mem_cons_self, ?_⟩
        exact .head (Visit.ok_mem_steps.mp hu) hpath
      · rcases List.mem_cons.mp hw with rfl | hw
        · exact ⟨hway, hv, w, List.mem_cons_self, .refl⟩
        · obtain ⟨hnot, hPw, u, hu, hpath⟩ := hnew₂ w hw
          exact ⟨hnot, hPw, u, List.mem_cons_of_mem _ hu, hpath⟩

/-! ## §4. Walks that fail -/

/-- **What breaks a walk**, on any terrain: one of its steps has no node, or it leads to a node
    whose steps have none, or it leads to a node whose identity a node on the way to it has
    already.  Here `ws` are the visits on the way. -/
theorem Walks.interrupted {way : List NodeId} {steps : List (Except CompileError Visit)}
    {t : Traversal} {e : CompileError} (h : Walks mode filter way steps t (.error e)) :
    ∀ ws : List Visit, ws.map (·.node.id) = way →
      (∀ u ∈ ws, ∀ v, .ok v ∈ steps → TransGen (Visit.Follows mode filter) u v) →
      .error e ∈ steps ∨ ∃ v u, .ok v ∈ steps ∧ ReflTransGen (Visit.Follows mode filter) v u ∧
        (.error e ∈ u.steps mode filter ∨
          e = .cyclicDependency (NodeRef.of u.path u.node) ∧
            ∃ x, (x ∈ ws ∨ ReflTransGen (Visit.Follows mode filter) v x) ∧
              x.node.id = u.node.id ∧ TransGen (Visit.Follows mode filter) x u) := by
  generalize hend : (Except.error e : Except CompileError Traversal) = r at h
  induction h with
  | done => cases hend
  | missing =>
    intro _ _ _
    cases hend
    exact .inl List.mem_cons_self
  -- the way names the visits that led here, so one of them comes around to this node
  | @cycle way t v rest hway =>
    intro ws hws hchain
    cases hend
    rw [← hws] at hway
    obtain ⟨x, hx, hid⟩ := List.mem_map.mp hway
    exact .inr ⟨v, v, List.mem_cons_self, .refl,
      .inr ⟨rfl, x, .inl hx, hid, hchain x hx v List.mem_cons_self⟩⟩
  | known _ _ _ ih =>
    intro ws hws hchain
    rcases ih hend ws hws (fun u hu v hv => hchain u hu v (List.mem_cons_of_mem _ hv))
      with herr | ⟨v, u, hv, hpath⟩
    · exact .inl (List.mem_cons_of_mem _ herr)
    · exact .inr ⟨v, u, List.mem_cons_of_mem _ hv, hpath⟩
  -- the error is that of the walk inside, whose way has this visit on top
  | @failed way t v rest e _ _ _ ih =>
    intro ws hws hchain
    have hchain' : ∀ u ∈ v :: ws, ∀ w, .ok w ∈ v.steps mode filter →
        TransGen (Visit.Follows mode filter) u w := by
      intro u hu w hw
      have hvw := Visit.ok_mem_steps.mp hw
      rcases List.mem_cons.mp hu with rfl | hu
      · exact .single hvw
      · exact (hchain u hu v List.mem_cons_self).tail hvw
    rcases ih hend (v :: ws) (by rw [List.map_cons, hws]) hchain'
      with herr | ⟨w, u, hw, hpath, hu⟩
    · exact .inr ⟨v, v, List.mem_cons_self, .refl, .inl herr⟩
    · have hstep := Visit.ok_mem_steps.mp hw
      refine .inr ⟨v, u, List.mem_cons_self, .head hstep hpath, ?_⟩
      rcases hu with herr | ⟨he, x, hx, hid, hxu⟩
      · exact .inl herr
      · refine .inr ⟨he, x, ?_, hid, hxu⟩
        rcases hx with hx | hwx
        · rcases List.mem_cons.mp hx with rfl | hx
          · exact .inr .refl
          · exact .inl hx
        · exact .inr (.head hstep hwx)
  | entered _ _ _ _ _ ihrest =>
    intro ws hws hchain
    rcases ihrest hend ws hws (fun u hu v hv => hchain u hu v (List.mem_cons_of_mem _ hv))
      with herr | ⟨v, u, hv, hpath⟩
    · exact .inl (List.mem_cons_of_mem _ herr)
    · exact .inr ⟨v, u, List.mem_cons_of_mem _ hv, hpath⟩

/-- Following edges any number of times does not leave a terrain. -/
theorem Terrain.path (hP : Terrain mode filter P ids) {v w : Visit} (hv : P v)
    (hpath : ReflTransGen (Visit.Follows mode filter) v w) : P w := by
  induction hpath with
  | refl => exact hv
  | tail _ hstep ih => exact hP.closed ih hstep

/-- **Where identities tell places apart**, what breaks a walk is a missing node or a cycle. -/
theorem Walks.broken (hP : Terrain mode filter P ids) {steps : List (Except CompileError Visit)}
    {t : Traversal} {e : CompileError} (h : Walks mode filter [] steps t (.error e))
    (hsteps : ∀ v, .ok v ∈ steps → P v) :
    .error e ∈ steps ∨ ∃ v u, .ok v ∈ steps ∧ ReflTransGen (Visit.Follows mode filter) v u ∧
      (.error e ∈ u.steps mode filter ∨
        e = .cyclicDependency (NodeRef.of u.path u.node) ∧
          TransGen (Visit.Follows mode filter) u u) := by
  rcases h.interrupted [] rfl (by simp) with herr | ⟨v, u, hv, hpath, herr | ⟨he, x, hx, hid, hxu⟩⟩
  · exact .inl herr
  · exact .inr ⟨v, u, hv, hpath, .inl herr⟩
  · have hvx : ReflTransGen (Visit.Follows mode filter) v x :=
      hx.resolve_left List.not_mem_nil
    have hsame : x = u :=
      hP.eq_of_id (hP.path (hsteps v hv) hvx) (hP.path (hsteps v hv) hpath) hid
    subst hsame
    exact .inr ⟨v, x, hv, hpath, .inr ⟨he, hxu⟩⟩

/-! ## §5. Traversals -/

/-- Root nodes as steps, those that do not exist as errors. -/
def Graph.rootSteps (g : Graph) (path : String) (roots : List NodeId) :
    List (Except CompileError Visit) :=
  roots.map fun root =>
    match g.node? root with
    | none => .error (.nodeNotFound root)
    | some node => .ok { graph := g, path, node }

theorem Graph.mem_rootSteps {g : Graph} {path : String} {roots : List NodeId} {v : Visit} :
    .ok v ∈ g.rootSteps path roots ↔
      ∃ root ∈ roots, ∃ n, g.node? root = some n ∧ v = { graph := g, path, node := n } := by
  rw [Graph.rootSteps, List.mem_map]
  constructor
  · rintro ⟨root, hroot, hstep⟩
    cases hn : g.node? root with
    | none => simp [hn] at hstep
    | some n =>
      rw [hn] at hstep
      exact ⟨root, hroot, n, hn, (Except.ok.inj hstep).symm⟩
  · rintro ⟨root, hroot, n, hn, rfl⟩
    exact ⟨root, hroot, by rw [hn]⟩

theorem Graph.error_mem_rootSteps {g : Graph} {path : String} {roots : List NodeId}
    {e : CompileError} (h : .error e ∈ g.rootSteps path roots) :
    ∃ root ∈ roots, g.node? root = none ∧ e = .nodeNotFound root := by
  rw [Graph.rootSteps, List.mem_map] at h
  obtain ⟨root, hroot, hstep⟩ := h
  cases hn : g.node? root with
  | none =>
    rw [hn] at hstep
    exact ⟨root, hroot, hn, (Except.error.inj hstep).symm⟩
  | some n => simp [hn] at hstep

theorem Graph.mem_of_node? {g : Graph} {id : NodeId} {n : Node} (h : g.node? id = some n) :
    n ∈ g.nodes :=
  List.mem_of_find?_eq_some h

theorem Graph.id_of_node? {g : Graph} {id : NodeId} {n : Node} (h : g.node? id = some n) :
    n.id = id := by
  have := List.find?_some h
  simpa using this

/-- A traversal takes its root steps one after the other. -/
theorem Graph.traverse_eq (g : Graph) (path : String) (roots : List NodeId) :
    g.traverse path mode filter roots =
      (g.rootSteps path roots).foldlM (takeStep (visit mode filter (g.size + 1) [])) {} := by
  rw [Graph.rootSteps, List.foldlM_map, Graph.traverse]
  congr 1
  funext t root
  cases g.node? root <;> rfl

/-- Whether the roots lead to a visit. -/
def Graph.Reaches (g : Graph) (path : String) (mode : TraversalMode)
    (filter : Node → InputFilter) (roots : List NodeId) (v : Visit) : Prop :=
  ∃ u, .ok u ∈ g.rootSteps path roots ∧ ReflTransGen (Visit.Follows mode filter) u v

/-- What a traversal from root nodes has to list: all that they lead to, each once, behind
    everything it leads to and under the path of its network, and which of it leads nowhere. -/
structure Graph.Sorts (g : Graph) (path : String) (mode : TraversalMode)
    (filter : Node → InputFilter) (roots : List NodeId) (visits : List Visit) (t : Traversal) :
    Prop where
  ordered : t.ordered = visits.map Visit.reached
  nodup : (visits.map (·.node.id)).Nodup
  mem_iff : ∀ v, v ∈ visits ↔ g.Reaches path mode filter roots v
  located : ∀ v ∈ visits, g.Located path v
  behind : ∀ front v back, visits = front ++ v :: back →
    ∀ w, v.Follows mode filter w → w ∈ front
  leaves : ∃ ends : List Visit, t.leaves = ends.map (·.node) ∧ ends.Sublist visits ∧
    ∀ v ∈ visits, v ∈ ends ↔ ∀ w, ¬v.Follows mode filter w

/-- Following an edge does not leave the hierarchy. -/
theorem Graph.Located.follows {g : Graph} {path : String} {v w : Visit} (hv : g.Located path v)
    (hw : v.Follows mode filter w) : g.Located path w := by
  cases hw with
  | input hr _ hs =>
    cases hr with
    | own _ => exact hv.sibling (Graph.mem_of_node? hs)
    | leave _ _ hf => exact (hv.outer hf).sibling (Graph.mem_of_node? hs)
  | enter _ hk ho => exact .inside hv hk (List.mem_of_find?_eq_some ho)

theorem Graph.Located.follows_path {g : Graph} {path : String} {v w : Visit}
    (hv : g.Located path v) (hpath : TransGen (Visit.Follows mode filter) v w) :
    g.Located path w := by
  induction hpath with
  | single h => exact hv.follows h
  | tail _ h ih => exact ih.follows h

theorem Graph.located_of_root {g : Graph} {path : String} {roots : List NodeId} {v : Visit}
    (h : .ok v ∈ g.rootSteps path roots) : g.Located path v := by
  obtain ⟨root, _, n, hn, rfl⟩ := Graph.mem_rootSteps.mp h
  exact .top (Graph.mem_of_node? hn)

/-- What the roots lead to stands in the hierarchy. -/
theorem Graph.Reaches.located {g : Graph} {path : String} {roots : List NodeId} {v : Visit}
    (h : g.Reaches path mode filter roots v) : g.Located path v := by
  obtain ⟨u, hu, hpath⟩ := h
  induction hpath with
  | refl => exact Graph.located_of_root hu
  | tail _ hstep ih => exact ih.follows hstep

theorem Graph.Reaches.follows {g : Graph} {path : String} {roots : List NodeId} {v w : Visit}
    (h : g.Reaches path mode filter roots v) (hw : v.Follows mode filter w) :
    g.Reaches path mode filter roots w := by
  obtain ⟨u, hu, hpath⟩ := h
  exact ⟨u, hu, hpath.tail hw⟩

/-- Whether what the roots lead to is told apart by identities. -/
def Graph.TellsApart (g : Graph) (path : String) (mode : TraversalMode)
    (filter : Node → InputFilter) (roots : List NodeId) : Prop :=
  ∀ v w, g.Reaches path mode filter roots v → g.Reaches path mode filter roots w →
    v.node.id = w.node.id → v = w

/-- So it is in a hierarchy whose nodes have identities of their own. -/
theorem Graph.tellsApart_of_nodup {g : Graph} {path : String} {roots : List NodeId}
    (hids : g.ids.Nodup) : g.TellsApart path mode filter roots :=
  fun _ _ hv hw h => hv.located.eq_of_id hids hw.located h

/-- The places that the roots lead to. -/
theorem Graph.terrain_reached {g : Graph} {path : String} {roots : List NodeId}
    (hapart : g.TellsApart path mode filter roots) :
    Terrain mode filter (g.Reaches path mode filter roots) g.ids where
  closed := Graph.Reaches.follows
  eq_of_id := fun hv hw h => hapart _ _ hv hw h
  id_mem := fun hv => hv.located.id_mem

/-- **Every traversal is a walk**, which ends by itself, whatever the identities of the nodes. -/
theorem Graph.walks_traverse (g : Graph) (path : String) (mode : TraversalMode)
    (filter : Node → InputFilter) (roots : List NodeId) :
    Walks mode filter [] (g.rootSteps path roots) {} (g.traverse path mode filter roots) := by
  rw [Graph.traverse_eq]
  refine walks_foldlM _ _ fun v hv t => ?_
  refine walks_visit (P := g.Located path) Graph.Located.follows Graph.Located.id_mem
    (g.size + 1) [] v t (Graph.located_of_root hv) List.nodup_nil (List.nil_subset _) ?_
  rw [g.length_ids, List.length_nil]
  omega

/-- What a traversal lists is what its roots lead to. -/
theorem Graph.within_of_traverse {g : Graph} {path : String} {roots : List NodeId} {t : Traversal}
    (h : g.traverse path mode filter roots = .ok t) :
    t.Within (g.Reaches path mode filter roots) := by
  have hwalk := g.walks_traverse path mode filter roots
  rw [h] at hwalk
  exact (hwalk.listed Graph.Reaches.follows nofun fun v hv => ⟨v, hv, .refl⟩).1

/-- A visit leads nowhere if it has no steps, unless one of its sources is missing. -/
theorem Visit.steps_isEmpty_iff {v : Visit} (h : ∀ id, ¬v.Dangles mode filter id) :
    (v.steps mode filter).isEmpty = true ↔ ∀ w, ¬v.Follows mode filter w := by
  rw [List.isEmpty_iff]
  constructor
  · intro hempty w hw
    have hmem := Visit.ok_mem_steps.mpr hw
    rw [hempty] at hmem
    exact absurd hmem List.not_mem_nil
  · intro hnone
    refine List.eq_nil_iff_forall_not_mem.mpr fun step hstep => ?_
    cases step with
    | ok w => exact hnone w (Visit.ok_mem_steps.mp hstep)
    | error e =>
      obtain ⟨id, _, hdangles⟩ := Visit.error_mem_steps.mp hstep
      exact h id hdangles

/-- A traversal that ends well sorts what its roots lead to, and meets neither a missing node
    nor a cycle. -/
theorem Graph.sorts_of_ok {g : Graph} {path : String} {roots : List NodeId} {t : Traversal}
    (hapart : g.TellsApart path mode filter roots)
    (h : Walks mode filter [] (g.rootSteps path roots) {} (.ok t)) :
    ∃ visits, g.Sorts path mode filter roots visits t ∧
      (∀ root ∈ roots, ∃ n, g.node? root = some n) ∧
      ∀ v, g.Reaches path mode filter roots v →
        (∀ id, ¬v.Dangles mode filter id) ∧ ¬TransGen (Visit.Follows mode filter) v v := by
  obtain ⟨visits, hlists, horder, hall, hnew⟩ := h.ordered (Graph.terrain_reached hapart) []
    Traversal.Lists.empty .nil (by simp) (fun v hv => ⟨v, hv, .refl⟩)
  rw [List.nil_append] at hlists horder hall
  -- the visits in the order are those that the roots reach
  have hmem : ∀ v, v ∈ visits ↔ g.Reaches path mode filter roots v := by
    intro v
    constructor
    · intro hv
      obtain ⟨_, _, u, hu, hpath⟩ := hnew v hv
      exact ⟨u, hu, hpath⟩
    · rintro ⟨u, hu, hpath⟩
      obtain ⟨u', hu', hok⟩ := hall _ hu
      rw [Except.ok.inj hok] at hpath
      exact horder.mem_of_path hu' hpath
  refine ⟨visits, ⟨hlists.ordered, horder.nodup, hmem, fun v hv => (hnew v hv).2.1.located,
    ?_, ?_⟩, ?_, ?_⟩
  · intro front v back heq w hw
    obtain ⟨w', hw', hok⟩ := horder.before heq _ (Visit.ok_mem_steps.mpr hw)
    rw [Except.ok.inj hok]
    exact hw'
  · refine ⟨_, hlists.leaves, List.filter_sublist, fun v hv => ?_⟩
    rw [List.mem_filter, Visit.steps_isEmpty_iff (horder.not_dangles hv)]
    exact and_iff_right hv
  · intro root hroot
    cases hn : g.node? root with
    | some n => exact ⟨n, rfl⟩
    | none =>
      have hstep : .error (.nodeNotFound root) ∈ g.rootSteps path roots :=
        List.mem_map.mpr ⟨root, hroot, by rw [hn]⟩
      obtain ⟨w, _, hok⟩ := hall _ hstep
      cases hok
  · intro v hv
    have hv := (hmem v).mpr hv
    exact ⟨horder.not_dangles hv, horder.acyclic v hv⟩

/-- What a traversal lists, where it ends well. -/
theorem Graph.exists_sorts_of_traverse {g : Graph} {path : String} {roots : List NodeId}
    {t : Traversal} (hids : g.ids.Nodup) (h : g.traverse path mode filter roots = .ok t) :
    ∃ visits, g.Sorts path mode filter roots visits t := by
  have hwalk := g.walks_traverse path mode filter roots
  rw [h] at hwalk
  obtain ⟨visits, hsorts, _⟩ := Graph.sorts_of_ok (Graph.tellsApart_of_nodup hids) hwalk
  exact ⟨visits, hsorts⟩

/-- A traversal that fails has met a missing root, a missing source or, on the way to a node,
    another of its identity. -/
theorem Graph.cause_of_error {g : Graph} {path : String} {roots : List NodeId} {e : CompileError}
    (h : Walks mode filter [] (g.rootSteps path roots) {} (.error e)) :
    (∃ root ∈ roots, g.node? root = none ∧ e = .nodeNotFound root) ∨
      ∃ v, g.Reaches path mode filter roots v ∧
        ((∃ id, v.Dangles mode filter id ∧ e = .nodeNotFound id) ∨
          e = .cyclicDependency (NodeRef.of v.path v.node) ∧
            ∃ u, g.Reaches path mode filter roots u ∧ u.node.id = v.node.id ∧
              TransGen (Visit.Follows mode filter) u v) := by
  rcases h.interrupted [] rfl (by simp)
    with herr | ⟨v, u, hv, hpath, herr | ⟨rfl, x, hx, hid, hxu⟩⟩
  · exact .inl (Graph.error_mem_rootSteps herr)
  · obtain ⟨id, rfl, hdangles⟩ := Visit.error_mem_steps.mp herr
    exact .inr ⟨u, ⟨v, hv, hpath⟩, .inl ⟨id, hdangles, rfl⟩⟩
  · have hvx : ReflTransGen (Visit.Follows mode filter) v x :=
      hx.resolve_left List.not_mem_nil
    exact .inr ⟨u, ⟨v, hv, hpath⟩, .inr ⟨rfl, x, ⟨v, hv, hvx⟩, hid, hxu⟩⟩

/-- **A traversal is a topological sort.**  On a hierarchy whose nodes have identities of their
    own the search ends by itself.  It succeeds exactly when the roots exist and lead neither
    to a missing source nor to a cycle, and then sorts what they lead to; a cycle that it
    reports is there. -/
theorem Graph.traverse_sorts_hierarchy (g : Graph) (path : String) (mode : TraversalMode)
    (filter : Node → InputFilter) (roots : List NodeId) (hids : g.ids.Nodup) :
    Walks mode filter [] (g.rootSteps path roots) {} (g.traverse path mode filter roots) ∧
      ((∃ t, g.traverse path mode filter roots = .ok t) ↔
        (∀ root ∈ roots, ∃ n, g.node? root = some n) ∧
          ∀ v, g.Reaches path mode filter roots v →
            (∀ id, ¬v.Dangles mode filter id) ∧ ¬TransGen (Visit.Follows mode filter) v v) ∧
      (∀ t, g.traverse path mode filter roots = .ok t →
        ∃ visits, g.Sorts path mode filter roots visits t) ∧
      ∀ ref, g.traverse path mode filter roots = .error (.cyclicDependency ref) →
        ∃ v, g.Reaches path mode filter roots v ∧ ref = NodeRef.of v.path v.node ∧
          TransGen (Visit.Follows mode filter) v v := by
  have hapart : g.TellsApart path mode filter roots := Graph.tellsApart_of_nodup hids
  have hwalk := g.walks_traverse path mode filter roots
  refine ⟨hwalk, ⟨?_, ?_⟩, ?_, ?_⟩
  · rintro ⟨t, ht⟩
    rw [ht] at hwalk
    obtain ⟨_, _, hexist, hsound⟩ := Graph.sorts_of_ok hapart hwalk
    exact ⟨hexist, hsound⟩
  · rintro ⟨hexist, hsound⟩
    cases ht : g.traverse path mode filter roots with
    | ok t => exact ⟨t, rfl⟩
    | error e =>
      rw [ht] at hwalk
      rcases Graph.cause_of_error hwalk with ⟨root, hroot, hnone, _⟩ |
          ⟨v, hv, ⟨id, hdangles, _⟩ | ⟨_, u, hu, hid, hcycle⟩⟩
      · obtain ⟨n, hn⟩ := hexist root hroot
        rw [hn] at hnone
        cases hnone
      · exact absurd hdangles ((hsound v hv).1 id)
      · obtain rfl := hapart u v hu hv hid
        exact absurd hcycle (hsound u hv).2
  · intro t ht
    rw [ht] at hwalk
    obtain ⟨visits, hsorts, _⟩ := Graph.sorts_of_ok hapart hwalk
    exact ⟨visits, hsorts⟩
  · intro ref href
    rw [href] at hwalk
    rcases Graph.cause_of_error hwalk
      with ⟨_, _, _, he⟩ | ⟨v, hv, ⟨_, _, he⟩ | ⟨he, u, hu, hid, hcycle⟩⟩
    · cases he
    · cases he
    · obtain rfl := hapart u v hu hv hid
      exact ⟨u, hv, CompileError.cyclicDependency.inj he, hcycle⟩

/-- A subnet that hands its input on. -/
def wiredSubnet : Subnet where
  inputs := [⟨"a", .float⟩]
  outputs := [⟨"out", .float⟩]
  block := .always
  network := {
    name := "s"
    nodes := [.make ⟨2⟩ "subnet_input" (.subnetInput [⟨"a", .float⟩]),
      .make ⟨3⟩ "subnet_output" (.subnetOutput [⟨"out", .float⟩])]
    connections := [⟨⟨0⟩, ⟨2⟩, "a", ⟨3⟩, "out"⟩]
    version := 3
    error := none }

/-- A constant that feeds a subnet. -/
def nestedGraph : Graph where
  name := "g"
  nodes := [.make ⟨0⟩ "k" (.constant (.float .one)), .make ⟨1⟩ "s" (.subnet wiredSubnet)]
  connections := [⟨⟨1⟩, ⟨0⟩, "value", ⟨1⟩, "a"⟩]
  version := 3
  error := none

/-- From the subnet the traversal goes in through its output and out through its input, to the
    constant that feeds it. -/
theorem traverse_sorts_nestedGraph :
    nestedGraph.ids.Nodup ∧
      ∃ t visits, nestedGraph.traverse "/g" .deep (fun _ => .all) [⟨1⟩] = .ok t ∧
        nestedGraph.Sorts "/g" .deep (fun _ => .all) [⟨1⟩] visits t ∧
        t.ordered.map (·.node.id) = [⟨0⟩, ⟨2⟩, ⟨3⟩, ⟨1⟩] := by
  have hids : nestedGraph.ids.Nodup := by decide
  obtain ⟨_, _, hsorts, _⟩ :=
    Graph.traverse_sorts_hierarchy nestedGraph "/g" .deep (fun _ => .all) [⟨1⟩] hids
  have hmap : (nestedGraph.traverse "/g" .deep (fun _ => .all) [⟨1⟩]).map
      (fun t => t.ordered.map (·.node.id)) = .ok [⟨0⟩, ⟨2⟩, ⟨3⟩, ⟨1⟩] := rfl
  cases ht : nestedGraph.traverse "/g" .deep (fun _ => .all) [⟨1⟩] with
  | error e =>
    rw [ht] at hmap
    cases hmap
  | ok t =>
    rw [ht] at hmap
    obtain ⟨visits, hvisits⟩ := hsorts t ht
    exact ⟨hids, t, visits, rfl, hvisits, Except.ok.inj hmap⟩

/-! ## §6. One network -/

/-- The places of one network, where nothing is entered. -/
theorem Graph.terrain_network (g : Graph) (path : String) (filter : Node → InputFilter) :
    Terrain .shallow filter
      (fun v => v = { graph := g, path, node := v.node } ∧ g.node? v.node.id = some v.node)
      (g.nodes.map (·.id)) where
  closed := by
    rintro v w ⟨hv, _⟩ hw
    cases hw with
    | input hr _ hs =>
      cases hr with
      | own _ =>
        rw [hv] at hs ⊢
        refine ⟨rfl, ?_⟩
        rw [Graph.id_of_node? hs]
        exact hs
      | leave hmode _ _ => cases hmode
    | enter hmode _ _ => cases hmode
  eq_of_id := by
    rintro v w ⟨hv, hvn⟩ ⟨hw, hwn⟩ hid
    rw [hid, hwn] at hvn
    rw [hv, hw, Option.some.inj hvn]
  id_mem := by
    rintro v ⟨_, hn⟩
    exact List.mem_map_of_mem (Graph.mem_of_node? hn)

theorem Graph.network_of_root {g : Graph} {path : String} {roots : List NodeId} {v : Visit}
    (hv : .ok v ∈ g.rootSteps path roots) :
    v = { graph := g, path, node := v.node } ∧ g.node? v.node.id = some v.node := by
  obtain ⟨root, _, n, hn, rfl⟩ := Graph.mem_rootSteps.mp hv
  exact ⟨rfl, by rw [Graph.id_of_node? hn]; exact hn⟩

/-- Nodes of one network, each once and behind the nodes that feed its followed inputs. -/
structure Graph.Schedules (g : Graph) (filter : Node → InputFilter) (roots : List NodeId)
    (order : List Node) : Prop where
  nodup : (order.map (·.id)).Nodup
  /-- Only the first node of an identity is ever met. -/
  found : ∀ n ∈ order, g.node? n.id = some n
  started : ∀ root ∈ roots, ∃ n ∈ order, g.node? root = some n
  behind : ∀ front n back, order = front ++ n :: back → ∀ input ∈ n.inputNames,
    (filter n).allows input = true → ∀ c, g.inputSource? n.id input = some c →
      ∃ source ∈ front, g.node? c.source = some source
  /-- Nothing else is listed. -/
  needed : ∀ n ∈ order, n.id ∈ roots ∨
    ∃ m ∈ order, ∃ input ∈ m.inputNames, (filter m).allows input = true ∧
      ∃ c, g.inputSource? m.id input = some c ∧ g.node? c.source = some n

/-- **The order of one network.**  No hypothesis on identities is needed here: nodes are met
    by identity alone, so a second node of one identity is never met. -/
theorem Graph.schedules_of_traverse {g : Graph} {path : String} {roots : List NodeId}
    {t : Traversal} (h : g.traverse path .shallow filter roots = .ok t) :
    g.Schedules filter roots t.nodes := by
  have hwalk := g.walks_traverse path .shallow filter roots
  rw [h] at hwalk
  obtain ⟨visits, hlists, horder, hall, hnew⟩ := hwalk.ordered (g.terrain_network path filter) []
    Traversal.Lists.empty .nil (by simp) fun _ => Graph.network_of_root
  rw [List.nil_append] at hlists horder hall
  have hplace : ∀ v ∈ visits, v = { graph := g, path, node := v.node } :=
    fun v hv => (hnew v hv).2.1.1
  have hnodes : t.nodes = visits.map (·.node) := by
    rw [Traversal.nodes, hlists.ordered, List.map_map]
    rfl
  rw [hnodes]
  constructor
  case nodup =>
    rw [List.map_map]
    exact horder.nodup
  case found =>
    intro n hn
    obtain ⟨v, hv, rfl⟩ := List.mem_map.mp hn
    exact (hnew v hv).2.1.2
  case started =>
    intro root hroot
    cases hn : g.node? root with
    | none =>
      have hstep : .error (.nodeNotFound root) ∈ g.rootSteps path roots :=
        List.mem_map.mpr ⟨root, hroot, by rw [hn]⟩
      obtain ⟨w, _, hok⟩ := hall _ hstep
      cases hok
    | some n =>
      have hstep : .ok { graph := g, path, node := n } ∈ g.rootSteps path roots :=
        Graph.mem_rootSteps.mpr ⟨root, hroot, n, hn, rfl⟩
      obtain ⟨w, hw, hok⟩ := hall _ hstep
      refine ⟨n, List.mem_map.mpr ⟨w, hw, ?_⟩, rfl⟩
      rw [← Except.ok.inj hok]
  case behind =>
    intro front n back heq input hinput hallow c hc
    obtain ⟨front', tail, hsplit, rfl, htail⟩ := List.map_eq_append_iff.mp heq
    obtain ⟨v, back', rfl, rfl, rfl⟩ := List.map_eq_cons_iff.mp htail
    have hv := hplace v (by rw [hsplit]; simp)
    have hfed : v.FedBy filter c := by
      refine ⟨input, hinput, hallow, ?_⟩
      rw [hv]
      exact hc
    have hreads : v.Reads .shallow v := .own (.inl rfl)
    cases hs : g.node? c.source with
    | none =>
      refine absurd ⟨v, c, hreads, hfed, rfl, ?_⟩
        (horder.not_dangles (v := v) (by rw [hsplit]; simp) c.source)
      rw [hv]
      exact hs
    | some source =>
      have hfollows : v.Follows .shallow filter { v with node := source } :=
        .input hreads hfed (by rw [hv]; exact hs)
      obtain ⟨w, hw, hok⟩ := horder.before hsplit _ (Visit.ok_mem_steps.mpr hfollows)
      refine ⟨source, List.mem_map.mpr ⟨w, hw, ?_⟩, rfl⟩
      rw [← Except.ok.inj hok]
  case needed =>
    intro n hn
    obtain ⟨v, hv, rfl⟩ := List.mem_map.mp hn
    obtain ⟨_, _, u, hu, hpath⟩ := hnew v hv
    -- the last step of the path by which it was met comes from a visit of this order
    rcases ReflTransGen.cases_tail hpath with rfl | ⟨m, hum, hmv⟩
    · left
      obtain ⟨root, hroot, n, hsome, rfl⟩ := Graph.mem_rootSteps.mp hu
      rw [Graph.id_of_node? hsome]
      exact hroot
    · right
      obtain ⟨u', hu', hok⟩ := hall _ hu
      rw [Except.ok.inj hok] at hum
      have hm := horder.mem_of_path hu' hum
      cases hmv with
      | input hr hc hs =>
        cases hr with
        | own _ =>
          rw [hplace _ hm] at hc hs
          obtain ⟨input, hinput, hallow, hfed⟩ := hc
          exact ⟨m.node, List.mem_map_of_mem hm, input, hinput, hallow, _, hfed, hs⟩
        | leave hmode _ _ => cases hmode
      | enter hmode _ _ => cases hmode

end ShaderFlow
