/-
  ShaderFlow.Proofs.Walk — the traversal as a walk without a bound.

  `visit` counts down a bound so that it ends on every graph.  A walk is the same search with
  no bound: whatever has a walk ends by itself.  Every traversal is a walk, so the bound is
  never what stops one.

  Main definitions:
    * `Visit.Follows`, `Visit.Dangles` — the edges that are followed, and those without a node
      to follow them to;
    * `Walks` — the search without a bound.

  Main statements:
    * `Walks.unique` — a walk has one result;
    * `walks_visit`  — a visit is a walk;
    * `Walks.listed` — what a walk that ends well lists.
-/

import Mathlib.Data.List.Perm.Subperm
import Mathlib.Logic.Relation
import ShaderFlow.Compile.Traversal

namespace ShaderFlow

open Relation

variable {mode : TraversalMode} {filter : Node → InputFilter}

/-! ## §1. Followed edges -/

namespace Visit

/-- A node as it is listed when it was reached. -/
def reached (v : Visit) : Reached := { path := v.path, node := v.node }

/-- Whether a connection feeds an input of the node that the filter lets follow. -/
def FedBy (filter : Node → InputFilter) (v : Visit) (c : Connection) : Prop :=
  ∃ input ∈ v.node.inputNames,
    (filter v.node).allows input = true ∧ v.graph.inputSource? v.node.id input = some c

/-- The subnet around a network, as a visit. -/
def ofFrame (frame : Frame) (outer : List Frame) : Visit where
  graph := frame.graph
  path := frame.path
  node := frame.subnet
  frames := outer

/-- The node that collects the outputs of a subnet, as a visit inside it. -/
def inside (v : Visit) (s : Subnet) (output : Node) : Visit where
  graph := s.network
  path := NodeRef.join v.path v.node.name
  node := output
  frames := { graph := v.graph, path := v.path, subnet := v.node } :: v.frames

/-- The visit whose inputs say what a visit needs.  Where subnets are entered, what offers the
    inputs of a subnet needs what feeds the subnet, and a subnet needs nothing in this way. -/
inductive Reads (mode : TraversalMode) : Visit → Visit → Prop where
  | own {v : Visit} (hv : mode = .shallow ∨
      (∀ s, v.node.kind ≠ .subnet s) ∧ (v.node.kind.isSubnetInput = true → v.frames = [])) :
      Reads mode v v
  | leave {v : Visit} {frame : Frame} {outer : List Frame} (hmode : mode = .deep)
      (hk : v.node.kind.isSubnetInput = true) (hf : v.frames = frame :: outer) :
      Reads mode v (ofFrame frame outer)

/-- The followed edges, from a node to what it needs. -/
inductive Follows (mode : TraversalMode) (filter : Node → InputFilter) : Visit → Visit → Prop where
  /-- A followed input needs the node that feeds it. -/
  | input {v r : Visit} {c : Connection} {source : Node} (hr : v.Reads mode r)
      (hc : r.FedBy filter c) (hs : r.graph.node? c.source = some source) :
      Follows mode filter v { r with node := source }
  /-- A subnet that is entered needs the node that collects its outputs. -/
  | enter {v : Visit} {s : Subnet} {output : Node} (hmode : mode = .deep)
      (hk : v.node.kind = .subnet s) (ho : s.outputNode? = some output) :
      Follows mode filter v (v.inside s output)

/-- Whether a followed connection has a source that is not there. -/
def Dangles (mode : TraversalMode) (filter : Node → InputFilter) (v : Visit) (id : NodeId) : Prop :=
  ∃ r c, v.Reads mode r ∧ r.FedBy filter c ∧ c.source = id ∧ r.graph.node? id = none

/-! ## §2. Steps are followed edges -/

theorem mem_sources {v : Visit} {step : Except CompileError Visit} :
    step ∈ v.sources (followed filter v.node) ↔
      ∃ c, v.FedBy filter c ∧
        ((∃ source, v.graph.node? c.source = some source ∧ step = .ok { v with node := source }) ∨
          (v.graph.node? c.source = none ∧ step = .error (.nodeNotFound c.source))) := by
  simp only [sources, followed, FedBy, List.mem_filterMap, List.mem_filter, Option.map_eq_some_iff]
  constructor
  · rintro ⟨input, ⟨hmem, hallow⟩, c, hc, hstep⟩
    refine ⟨c, ⟨input, hmem, hallow, hc⟩, ?_⟩
    cases hs : v.graph.node? c.source with
    | none =>
      rw [hs] at hstep
      exact .inr ⟨rfl, hstep.symm⟩
    | some source =>
      rw [hs] at hstep
      exact .inl ⟨source, rfl, hstep.symm⟩
  · rintro ⟨c, ⟨input, hmem, hallow, hc⟩, hcase⟩
    refine ⟨input, ⟨hmem, hallow⟩, c, hc, ?_⟩
    rcases hcase with ⟨source, hs, rfl⟩ | ⟨hs, rfl⟩ <;> rw [hs]

/-- A node reads the inputs of one visit at most. -/
theorem Reads.unique {v r r' : Visit} (h : v.Reads mode r) (h' : v.Reads mode r') : r = r' := by
  cases h with
  | own hv =>
    cases h' with
    | own _ => rfl
    | leave hmode hk hf =>
      rcases hv with rfl | ⟨_, htop⟩
      · cases hmode
      · rw [htop hk] at hf
        cases hf
  | leave hmode hk hf =>
    cases h' with
    | own hv =>
      rcases hv with rfl | ⟨_, htop⟩
      · cases hmode
      · rw [htop hk] at hf
        cases hf
    | leave _ _ hf' =>
      rw [hf] at hf'
      cases hf'
      rfl

/-- A subnet that is entered reads no inputs. -/
theorem Reads.not_subnet {v r : Visit} {s : Subnet} (h : v.Reads .deep r) :
    v.node.kind ≠ .subnet s := by
  cases h with
  | own hv =>
    rcases hv with hmode | ⟨hsub, _⟩
    · cases hmode
    · exact hsub s
  | leave _ hk _ =>
    intro hs
    rw [hs] at hk
    cases hk

/-- The two shapes that the steps of a node have. -/
theorem steps_cases (mode : TraversalMode) (filter : Node → InputFilter) (v : Visit) :
    (∃ r, v.Reads mode r ∧ v.steps mode filter = r.sources (followed filter r.node)) ∨
      ∃ s, mode = .deep ∧ v.node.kind = .subnet s ∧
        v.steps mode filter = (s.outputNode?.map fun output => .ok (v.inside s output)).toList := by
  cases mode with
  | shallow =>
    left
    refine ⟨v, .own (.inl rfl), ?_⟩
    unfold steps
    split <;> simp_all
  | deep =>
    cases hk : v.node.kind with
    | subnet s =>
      right
      refine ⟨s, rfl, rfl, ?_⟩
      simp only [steps, hk]
      cases s.outputNode? <;> rfl
    | subnetInput ports =>
      left
      cases hf : v.frames with
      | nil =>
        refine ⟨v, .own (.inr ⟨?_, fun _ => hf⟩), ?_⟩
        · intro s
          simp [hk]
        · simp only [steps, hk, hf]
      | cons frame outer =>
        refine ⟨ofFrame frame outer, .leave rfl (by rw [hk]; rfl) hf, ?_⟩
        simp only [steps, hk, hf]
        rfl
    | _ =>
      left
      refine ⟨v, .own (.inr ⟨?_, ?_⟩), ?_⟩ <;> simp [hk, steps, Kind.isSubnetInput]

theorem ok_mem_steps {v w : Visit} : .ok w ∈ v.steps mode filter ↔ v.Follows mode filter w := by
  rcases steps_cases mode filter v with ⟨r, hr, heq⟩ | ⟨s, rfl, hk, heq⟩
  · rw [heq, mem_sources]
    constructor
    · rintro ⟨c, hc, ⟨source, hs, hw⟩ | ⟨_, hw⟩⟩
      · rw [Except.ok.inj hw]
        exact .input hr hc hs
      · simp at hw
    · intro h
      cases h with
      | input hr' hc hs =>
        rw [hr.unique hr']
        exact ⟨_, hc, .inl ⟨_, hs, rfl⟩⟩
      | enter hmode hk _ =>
        subst hmode
        exact absurd hk hr.not_subnet
  · rw [heq]
    simp only [Option.mem_toList, Option.map_eq_some_iff, Except.ok.injEq]
    constructor
    · rintro ⟨output, ho, rfl⟩
      exact .enter rfl hk ho
    · intro h
      cases h with
      | input hr _ _ => exact absurd hk hr.not_subnet
      | enter _ hk' ho =>
        rw [hk] at hk'
        cases hk'
        exact ⟨_, ho, rfl⟩

theorem error_mem_steps {v : Visit} {e : CompileError} :
    .error e ∈ v.steps mode filter ↔ ∃ id, e = .nodeNotFound id ∧ v.Dangles mode filter id := by
  rcases steps_cases mode filter v with ⟨r, hr, heq⟩ | ⟨s, rfl, hk, heq⟩
  · rw [heq, mem_sources]
    constructor
    · rintro ⟨c, hc, ⟨source, hs, hw⟩ | ⟨hs, hw⟩⟩
      · simp at hw
      · exact ⟨c.source, Except.error.inj hw, r, c, hr, hc, rfl, hs⟩
    · rintro ⟨id, rfl, r', c, hr', hc, rfl, hs⟩
      rw [hr.unique hr']
      exact ⟨c, hc, .inr ⟨hs, rfl⟩⟩
  · rw [heq]
    constructor
    · intro h
      simp at h
    · rintro ⟨id, _, r, c, hr, _⟩
      exact absurd hk hr.not_subnet

end Visit

/-! ## §3. Walks -/

/-- A traversal that is done with a node. -/
def Traversal.finish (mode : TraversalMode) (filter : Node → InputFilter) (t : Traversal)
    (v : Visit) : Traversal where
  ordered := t.ordered ++ [v.reached]
  leaves := if (v.steps mode filter).isEmpty then t.leaves ++ [v.node] else t.leaves

/-- The search of what a list of steps leads to, behind the nodes on the way to it, with no
    bound on how far it goes. -/
inductive Walks (mode : TraversalMode) (filter : Node → InputFilter) :
    List NodeId → List (Except CompileError Visit) → Traversal → Except CompileError Traversal →
      Prop where
  | done {way : List NodeId} {t : Traversal} : Walks mode filter way [] t (.ok t)
  /-- A missing node stops the search. -/
  | missing {way : List NodeId} {t : Traversal} {e : CompileError}
      {rest : List (Except CompileError Visit)} :
      Walks mode filter way (.error e :: rest) t (.error e)
  /-- So does a node that is on the way already. -/
  | cycle {way : List NodeId} {t : Traversal} {v : Visit} {rest : List (Except CompileError Visit)}
      (hway : v.node.id ∈ way) :
      Walks mode filter way (.ok v :: rest) t
        (.error (.cyclicDependency (NodeRef.of v.path v.node)))
  /-- A node that was reached before is left alone. -/
  | known {way : List NodeId} {t : Traversal} {v : Visit} {rest : List (Except CompileError Visit)}
      {r : Except CompileError Traversal} (hway : v.node.id ∉ way)
      (hknown : t.hasReached v.node.id = true) (hrest : Walks mode filter way rest t r) :
      Walks mode filter way (.ok v :: rest) t r
  | failed {way : List NodeId} {t : Traversal} {v : Visit} {rest : List (Except CompileError Visit)}
      {e : CompileError} (hway : v.node.id ∉ way) (hknown : t.hasReached v.node.id = false)
      (hin : Walks mode filter (v.node.id :: way) (v.steps mode filter) t (.error e)) :
      Walks mode filter way (.ok v :: rest) t (.error e)
  /-- A new node is listed behind everything it leads to. -/
  | entered {way : List NodeId} {t inner : Traversal} {v : Visit}
      {rest : List (Except CompileError Visit)} {r : Except CompileError Traversal}
      (hway : v.node.id ∉ way) (hknown : t.hasReached v.node.id = false)
      (hin : Walks mode filter (v.node.id :: way) (v.steps mode filter) t (.ok inner))
      (hrest : Walks mode filter way rest (inner.finish mode filter v) r) :
      Walks mode filter way (.ok v :: rest) t r

/-- A walk has one outcome. -/
theorem Walks.unique {way : List NodeId} {steps : List (Except CompileError Visit)} {t : Traversal}
    {r r' : Except CompileError Traversal} (h : Walks mode filter way steps t r)
    (h' : Walks mode filter way steps t r') : r = r' := by
  -- which rule applies is decided by the way first and by what is listed second
  induction h generalizing r' with
  | done =>
    cases h'
    rfl
  | missing =>
    cases h'
    rfl
  | cycle hway =>
    cases h' with
    | cycle _ => rfl
    | known hnot _ _ | failed hnot _ _ | entered hnot _ _ _ => exact absurd hway hnot
  | known hway hknown _ ih =>
    cases h' with
    | cycle hin => exact absurd hin hway
    | known _ _ hrest => exact ih hrest
    | failed _ hnew _ | entered _ hnew _ _ => simp [hknown] at hnew
  | failed hway hknown _ ih =>
    cases h' with
    | cycle hin => exact absurd hin hway
    | known _ hold _ => simp [hknown] at hold
    | failed _ _ hin => exact ih hin
    | entered _ _ hin _ => exact absurd (ih hin) (by simp)
  | entered hway hknown _ _ ihin ihrest =>
    cases h' with
    | cycle hin => exact absurd hin hway
    | known _ hold _ => simp [hknown] at hold
    | failed _ _ hin => exact absurd (ihin hin) (by simp)
    | entered _ _ hin hrest =>
      rw [← Except.ok.inj (ihin hin)] at hrest
      exact ihrest hrest

/-- Two walks, one after the other. -/
theorem Walks.append {way : List NodeId} {first rest : List (Except CompileError Visit)}
    {t middle : Traversal} {r : Except CompileError Traversal}
    (h : Walks mode filter way first t (.ok middle)) (h' : Walks mode filter way rest middle r) :
    Walks mode filter way (first ++ rest) t r := by
  generalize hend : (Except.ok middle : Except CompileError Traversal) = ok at h
  induction h with
  | done =>
    rw [← Except.ok.inj hend]
    exact h'
  | missing => cases hend
  | cycle _ => cases hend
  | known hway hknown _ ih => exact .known hway hknown (ih h' hend)
  | failed _ _ _ => cases hend
  | entered hway hknown hin _ _ ih => exact .entered hway hknown hin (ih h' hend)

/-- A walk that fails does so whatever would come next. -/
theorem Walks.append_error {way : List NodeId} {first : List (Except CompileError Visit)}
    {t : Traversal} {e : CompileError} (h : Walks mode filter way first t (.error e))
    (rest : List (Except CompileError Visit)) :
    Walks mode filter way (first ++ rest) t (.error e) := by
  generalize hend : (Except.error e : Except CompileError Traversal) = bad at h
  induction h with
  | done => cases hend
  | missing =>
    cases hend
    exact .missing
  | cycle hway =>
    cases hend
    exact .cycle hway
  | known hway hknown _ ih => exact .known hway hknown (ih hend)
  | failed hway hknown hin _ =>
    cases hend
    exact .failed hway hknown hin
  | entered hway hknown hin _ _ ih => exact .entered hway hknown hin (ih hend)

/-! ## §4. Visits are walks -/

/-- Places that following edges does not leave, and that identities tell apart. -/
structure Terrain (mode : TraversalMode) (filter : Node → InputFilter) (P : Visit → Prop)
    (ids : List NodeId) : Prop where
  closed : ∀ {v w : Visit}, P v → v.Follows mode filter w → P w
  eq_of_id : ∀ {v w : Visit}, P v → P w → v.node.id = w.node.id → v = w
  id_mem : ∀ {v : Visit}, P v → v.node.id ∈ ids

variable {P : Visit → Prop} {ids : List NodeId}

/-- Takes one step by visiting the node that it leads to. -/
def takeStep (f : Visit → Traversal → Except CompileError Traversal) (t : Traversal)
    (step : Except CompileError Visit) : Except CompileError Traversal :=
  step.bind fun v => f v t

/-- A visit, one level deep. -/
theorem visit_succ (bound : Nat) (way : List NodeId) (v : Visit) (t : Traversal) :
    visit mode filter (bound + 1) way v t =
      if v.node.id ∈ way then .error (.cyclicDependency (NodeRef.of v.path v.node))
      else if t.hasReached v.node.id then .ok t
      else
        ((v.steps mode filter).foldlM
          (takeStep (visit mode filter bound (v.node.id :: way))) t).map
            (·.finish mode filter v) := by
  rw [visit]
  simp only [List.contains_eq_mem, decide_eq_true_eq]
  split
  · rfl
  · split
    · rfl
    · show Except.bind ((v.steps mode filter).foldlM
        (takeStep (visit mode filter bound (v.node.id :: way))) t) _ = _
      cases (v.steps mode filter).foldlM
        (takeStep (visit mode filter bound (v.node.id :: way))) t <;> rfl

/-- Steps taken one after the other walk as far as each of them does. -/
theorem walks_foldlM {way : List NodeId} {f : Visit → Traversal → Except CompileError Traversal} :
    ∀ (steps : List (Except CompileError Visit)) (t : Traversal),
      (∀ v, .ok v ∈ steps → ∀ t, Walks mode filter way [.ok v] t (f v t)) →
        Walks mode filter way steps t (steps.foldlM (takeStep f) t)
  | [], t, _ => .done
  | .error e :: rest, t, _ => .missing
  | .ok v :: rest, t, hf => by
    have hfirst := hf v List.mem_cons_self t
    rw [List.foldlM_cons]
    show Walks mode filter way ([.ok v] ++ rest) t ((f v t).bind _)
    cases hv : f v t with
    | error e =>
      rw [hv] at hfirst
      exact hfirst.append_error rest
    | ok middle =>
      rw [hv] at hfirst
      exact hfirst.append (walks_foldlM rest middle fun w hw => hf w (List.mem_cons_of_mem _ hw))

/-- **The bound never stops a visit.**  The way to a node holds no node twice, so a bound above
    the number of nodes outlasts it; for that, identities need not tell places apart. -/
theorem walks_visit (hclosed : ∀ {v w : Visit}, P v → v.Follows mode filter w → P w)
    (hids : ∀ {v : Visit}, P v → v.node.id ∈ ids) :
    ∀ (bound : Nat) (way : List NodeId) (v : Visit) (t : Traversal), P v → way.Nodup →
      way ⊆ ids → ids.length < bound + way.length →
        Walks mode filter way [.ok v] t (visit mode filter bound way v t)
  | 0, way, v, t, _, hnodup, hsub, hlen => by
    -- the way visits no id twice, so it is used up before the bound is
    have := (hnodup.subperm hsub).length_le
    omega
  | bound + 1, way, v, t, hv, hnodup, hsub, hlen => by
    rw [visit_succ]
    split
    next hway => exact .cycle hway
    next hway =>
      split
      next hknown => exact .known hway hknown .done
      next hknown =>
        have hnew : t.hasReached v.node.id = false := by simpa using hknown
        have hnext : ∀ w, .ok w ∈ v.steps mode filter → ∀ t, Walks mode filter (v.node.id :: way)
            [.ok w] t (visit mode filter bound (v.node.id :: way) w t) :=
          fun w hw t => walks_visit hclosed hids bound (v.node.id :: way) w t
            (hclosed hv (Visit.ok_mem_steps.mp hw)) (List.nodup_cons.mpr ⟨hway, hnodup⟩)
            (List.cons_subset.mpr ⟨hids hv, hsub⟩) (by rw [List.length_cons]; omega)
        have hin := walks_foldlM (v.steps mode filter) t hnext
        cases hfold : (v.steps mode filter).foldlM
            (takeStep (visit mode filter bound (v.node.id :: way))) t with
        | error e =>
          rw [hfold] at hin
          exact .failed hway hnew hin
        | ok inner =>
          rw [hfold] at hin
          exact .entered hway hnew hin .done

/-! ## §5. What walks list -/

/-- A traversal whose nodes are all somewhere in a terrain. -/
def Traversal.Within (P : Visit → Prop) (t : Traversal) : Prop :=
  ∀ r ∈ t.ordered, ∃ v, P v ∧ v.reached = r

/-- **A walk that ends well** stays in the terrain, keeps what was listed before and lists what
    its steps lead to, or what has the identity of that. -/
theorem Walks.listed (hclosed : ∀ {v w : Visit}, P v → v.Follows mode filter w → P w)
    {way : List NodeId} {steps : List (Except CompileError Visit)} {t t' : Traversal}
    (h : Walks mode filter way steps t (.ok t')) (hwithin : t.Within P)
    (hsteps : ∀ v, .ok v ∈ steps → P v) :
    t'.Within P ∧ t.ordered ⊆ t'.ordered ∧
      ∀ v, .ok v ∈ steps → t'.hasReached v.node.id = true := by
  generalize hend : (Except.ok t' : Except CompileError Traversal) = r at h
  induction h generalizing t' with
  | done =>
    cases hend
    exact ⟨hwithin, List.Subset.refl _, nofun⟩
  | missing => cases hend
  | cycle _ => cases hend
  | @known way t v rest r _ hknown _ ih =>
    obtain ⟨hin, hkept, hrest⟩ :=
      ih hwithin (fun w hw => hsteps w (List.mem_cons_of_mem _ hw)) hend
    refine ⟨hin, hkept, fun w hw => ?_⟩
    rcases List.mem_cons.mp hw with hw | hw
    · cases hw
      obtain ⟨r, hr, hid⟩ := List.any_eq_true.mp hknown
      exact List.any_eq_true.mpr ⟨r, hkept hr, hid⟩
    · exact hrest w hw
  | failed _ _ _ => cases hend
  | @entered way t inner v rest r _ _ _ _ ihin ihrest =>
    have hv : P v := hsteps v List.mem_cons_self
    obtain ⟨hinner, hbefore, _⟩ :=
      ihin hwithin (fun w hw => hclosed hv (Visit.ok_mem_steps.mp hw)) rfl
    -- `v` is listed after all that lies below it, and that satisfies `P` already
    have hfinished : (inner.finish mode filter v).Within P := by
      intro r hr
      rcases List.mem_append.mp hr with hr | hr
      · exact hinner r hr
      · exact ⟨v, hv, (List.mem_singleton.mp hr).symm⟩
    obtain ⟨hin, hkept, hrest⟩ :=
      ihrest hfinished (fun w hw => hsteps w (List.mem_cons_of_mem _ hw)) hend
    refine ⟨hin, fun r hr => hkept (List.mem_append_left _ (hbefore hr)), fun w hw => ?_⟩
    rcases List.mem_cons.mp hw with hw | hw
    · cases hw
      exact List.any_eq_true.mpr ⟨v.reached,
        hkept (List.mem_append_right _ List.mem_cons_self), beq_self_eq_true _⟩
    · exact hrest w hw

end ShaderFlow
