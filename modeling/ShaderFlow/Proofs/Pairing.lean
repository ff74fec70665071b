/-
  ShaderFlow.Proofs.Pairing — hierarchies that match node by node.

  Two hierarchies are compared through a relation between their nodes, each in its network.  If
  related nodes have one name and one kind, and what feeds them is related again, then whatever
  is found from related roots is related: a traversal lists related nodes in one order or fails
  for one reason.  Identities may differ from one hierarchy to the other by a renaming.

  Main definitions:
    * `CompileError.rename` — an error about nodes that have other identities;
    * `Concurs`              — results that are related, or errors that differ by the renaming;
    * `Pairing`             — a relation between nodes that what feeds them keeps up.

  Main statements:
    * `Walks.simulated`              — a walk along related steps;
    * `Pairing.concurs_stageOrder`    — the order of a stage;
    * `Pairing.concurs_hierarchy` — what a deep traversal lists.
-/

import ShaderFlow.Proofs.Collection

namespace ShaderFlow

variable {α β γ δ : Type} {ρ : NodeId → NodeId}

/-! ## §1. Results that agree -/

/-- A node under another identity. -/
def NodeRef.rename (ρ : NodeId → NodeId) (ref : NodeRef) : NodeRef := { ref with id := ρ ref.id }

/-- An error about nodes that have other identities. -/
def CompileError.rename (ρ : NodeId → NodeId) : CompileError → CompileError
  | .missingSubnetOutput node => .missingSubnetOutput (node.rename ρ)
  | .missingInput node input => .missingInput (node.rename ρ) input
  | .unknownFunction node function => .unknownFunction (node.rename ρ) function
  | .unallocatedAttribute node name => .unallocatedAttribute (node.rename ρ) name
  | .unsupportedAttributeType node name type =>
    .unsupportedAttributeType (node.rename ρ) name type
  | .unsupportedNode node backend => .unsupportedNode (node.rename ρ) backend
  | .cyclicDependency node => .cyclicDependency (node.rename ρ)
  | .nodeNotFound id => .nodeNotFound (ρ id)
  | .duplicateVariable node name other => .duplicateVariable (node.rename ρ) name other
  | .conflictingDefinition node kept dropped => .conflictingDefinition (node.rename ρ) kept dropped
  | .missingOutputNode graph => .missingOutputNode graph
  | .multipleOutputNodes graph count => .multipleOutputNodes graph count
  | .invalidConfig fault => .invalidConfig fault
  | .template stage marker => .template stage marker

/-- Whether two results agree: both are there and related, or neither is, for one reason. -/
inductive Concurs (ρ : NodeId → NodeId) (R : α → β → Prop) :
    Except CompileError α → Except CompileError β → Prop where
  | ok {a : α} {b : β} (h : R a b) : Concurs ρ R (.ok a) (.ok b)
  | error (e : CompileError) : Concurs ρ R (.error e) (.error (e.rename ρ))

namespace Concurs

variable {R : α → β → Prop} {S : γ → δ → Prop} {x : Except CompileError α}
  {y : Except CompileError β}

theorem mono {R' : α → β → Prop} (hR : ∀ a b, R a b → R' a b) (h : Concurs ρ R x y) :
    Concurs ρ R' x y := by
  cases h with
  | ok h => exact .ok (hR _ _ h)
  | error e => exact .error e

theorem bind {f : α → Except CompileError γ} {f' : β → Except CompileError δ}
    (hx : Concurs ρ R x y)
    (hf : ∀ a b, x = .ok a → y = .ok b → R a b → Concurs ρ S (f a) (f' b)) :
    Concurs ρ S (x >>= f) (y >>= f') := by
  cases hx with
  | ok h => exact hf _ _ rfl rfl h
  | error e => exact .error e

theorem map {f : α → γ} {f' : β → δ} (hx : Concurs ρ R x y)
    (hf : ∀ a b, R a b → S (f a) (f' b)) : Concurs ρ S (x.map f) (y.map f') := by
  cases hx with
  | ok h => exact .ok (hf _ _ h)
  | error e => exact .error e

theorem mapM {Q : α → γ → Prop} {f : α → Except CompileError β} {f' : γ → Except CompileError δ}
    {T : β → δ → Prop} {xs : List α} {ys : List γ} (h : List.Forall₂ Q xs ys)
    (hf : ∀ a ∈ xs, ∀ b ∈ ys, Q a b → Concurs ρ T (f a) (f' b)) :
    Concurs ρ (List.Forall₂ T) (xs.mapM f) (ys.mapM f') := by
  induction h with
  | nil => exact .ok .nil
  | @cons a b xs ys hab _ ih =>
    rw [List.mapM_cons, List.mapM_cons]
    refine .bind (hf a List.mem_cons_self b List.mem_cons_self hab) fun c d _ _ hcd => ?_
    have hrest : Concurs ρ (List.Forall₂ T) (xs.mapM f) (ys.mapM f') :=
      ih fun a ha b hb => hf a (List.mem_cons_of_mem _ ha) b (List.mem_cons_of_mem _ hb)
    exact .bind hrest fun cs ds _ _ hcds => .ok (.cons hcd hcds)

theorem foldlM {Q : α → β → Prop} {f : γ → α → Except CompileError γ}
    {f' : δ → β → Except CompileError δ} {xs : List α} {ys : List β}
    (h : List.Forall₂ Q xs ys)
    (hf : ∀ a ∈ xs, ∀ b, Q a b → ∀ c d, S c d → Concurs ρ S (f c a) (f' d b)) :
    ∀ {c : γ} {d : δ}, S c d → Concurs ρ S (xs.foldlM f c) (ys.foldlM f' d) := by
  induction h with
  | nil =>
    intro c d hcd
    exact .ok hcd
  | @cons a b xs ys hab _ ih =>
    intro c d hcd
    rw [List.foldlM_cons, List.foldlM_cons]
    refine .bind (hf a List.mem_cons_self b hab c d hcd) fun c d _ _ hcd => ?_
    exact ih (fun a ha => hf a (List.mem_cons_of_mem _ ha)) hcd

/-- Results that agree to the letter are the same but for identities in errors. -/
theorem eq_mapError {x y : Except CompileError α} (h : Concurs ρ Eq x y) :
    y = x.mapError (CompileError.rename ρ) := by
  cases h with
  | ok h => rw [h]; rfl
  | error e => rfl

/-- A result agrees with itself if its error names no node. -/
theorem self {x : Except CompileError α} (h : FailsOnly (fun e => e.rename ρ = e) x) :
    Concurs ρ Eq x x := by
  cases x with
  | ok a => exact .ok rfl
  | error e =>
    have he : e.rename ρ = e := h e rfl
    have hconcurs : Concurs ρ Eq (.error e : Except CompileError α) (.error (e.rename ρ)) :=
      .error e
    rwa [he] at hconcurs

theorem mapM_eq {f f' : α → Except CompileError β} {xs : List α}
    (h : ∀ a ∈ xs, Concurs ρ Eq (f a) (f' a)) : Concurs ρ Eq (xs.mapM f) (xs.mapM f') := by
  have hsame : List.Forall₂ Eq xs xs := List.forall₂_same.mpr fun _ _ => rfl
  refine (Concurs.mapM (T := Eq) hsame fun a ha b _ hab => ?_).mono fun _ _ hys => ?_
  · subst hab
    exact h a ha
  · rwa [List.forall₂_eq_eq_eq] at hys

end Concurs

/-! ## §2. Walks along related steps -/

section Walks

variable {mode : TraversalMode} {filter : Node → InputFilter} {V : Visit → Visit → Prop}

/-- A relation between visits that following edges keeps up. -/
structure Simulates (ρ : NodeId → NodeId) (mode : TraversalMode) (filter : Node → InputFilter)
    (V : Visit → Visit → Prop) : Prop where
  ref : ∀ {v w : Visit}, V v w → NodeRef.of w.path w.node = (NodeRef.of v.path v.node).rename ρ
  steps : ∀ {v w : Visit}, V v w →
    List.Forall₂ (Concurs ρ V) (v.steps mode filter) (w.steps mode filter)

theorem Simulates.id_eq (hV : Simulates ρ mode filter V) {v w : Visit} (h : V v w) :
    w.node.id = ρ v.node.id :=
  congrArg NodeRef.id (hV.ref h)

/-- What holds of the visits on either side may be asked for, too. -/
theorem forall₂_within {steps steps' : List (Except CompileError Visit)} {A B : Visit → Prop}
    (h : List.Forall₂ (Concurs ρ V) steps steps') (hA : ∀ v, .ok v ∈ steps → A v)
    (hB : ∀ w, .ok w ∈ steps' → B w) :
    List.Forall₂ (Concurs ρ fun v w => V v w ∧ A v ∧ B w) steps steps' := by
  refine (forall₂_mem h).imp ?_
  rintro step step' ⟨hstep, hmem, hmem'⟩
  cases hstep with
  | ok h => exact .ok ⟨h, hA _ hmem, hB _ hmem'⟩
  | error e => exact .error e

/-- So may what following edges does not leave. -/
theorem Simulates.within (hV : Simulates ρ mode filter V) {A B : Visit → Prop}
    (hA : ∀ {v w : Visit}, A v → v.Follows mode filter w → A w)
    (hB : ∀ {v w : Visit}, B v → v.Follows mode filter w → B w) :
    Simulates ρ mode filter fun v w => V v w ∧ A v ∧ B w where
  ref := fun h => hV.ref h.1
  steps := fun ⟨hvw, hv, hw⟩ => forall₂_within (hV.steps hvw)
    (fun _ hstep => hA hv (Visit.ok_mem_steps.mp hstep))
    fun _ hstep => hB hw (Visit.ok_mem_steps.mp hstep)

/-- Whether two traversals have listed related visits, in one order. -/
def Traversal.Alike (V : Visit → Visit → Prop) (t u : Traversal) : Prop :=
  List.Forall₂ (fun r r' => ∃ v w, V v w ∧ v.reached = r ∧ w.reached = r') t.ordered u.ordered

theorem Traversal.Alike.hasReached (hρ : Function.Injective ρ) (hV : Simulates ρ mode filter V)
    {t u : Traversal} (h : t.Alike V u) (id : NodeId) :
    u.hasReached (ρ id) = t.hasReached id := by
  unfold Traversal.hasReached
  unfold Traversal.Alike at h
  generalize t.ordered = ordered at h
  generalize u.ordered = ordered' at h
  induction h with
  | nil => rfl
  | cons hr _ ih =>
    obtain ⟨v, w, hvw, rfl, rfl⟩ := hr
    rw [List.any_cons, List.any_cons, ih]
    congr 1
    show (w.node.id == ρ id) = (v.node.id == id)
    rw [hV.id_eq hvw, Bool.eq_iff_iff, beq_iff_eq, beq_iff_eq]
    exact hρ.eq_iff

theorem Simulates.mem_way_iff (hρ : Function.Injective ρ) (hV : Simulates ρ mode filter V)
    {way : List NodeId} {v w : Visit} (hvw : V v w) :
    w.node.id ∈ way.map ρ ↔ v.node.id ∈ way := by
  rw [hV.id_eq hvw, List.mem_map_of_injective hρ]

theorem Traversal.Alike.finish {t u : Traversal} (h : t.Alike V u) {v w : Visit} (hvw : V v w) :
    (t.finish mode filter v).Alike V (u.finish mode filter w) :=
  List.rel_append h (.cons ⟨v, w, hvw, rfl, rfl⟩ .nil)

/-- **A walk along related steps** lists related visits, or fails for one reason: what is on the
    way and what was reached is so by identity, and the renaming tells identities apart. -/
theorem Walks.simulated (hρ : Function.Injective ρ) (hV : Simulates ρ mode filter V)
    {way : List NodeId} {steps : List (Except CompileError Visit)} {t : Traversal}
    {r : Except CompileError Traversal} (h : Walks mode filter way steps t r) :
    ∀ {steps' : List (Except CompileError Visit)} {u : Traversal},
      List.Forall₂ (Concurs ρ V) steps steps' → t.Alike V u →
        ∃ r', Walks mode filter (way.map ρ) steps' u r' ∧ Concurs ρ (Traversal.Alike V) r r' := by
  induction h with
  -- one case for each step of the walk, and the same step on the other side
  | done =>
    intro steps' u hsteps ht
    cases hsteps
    exact ⟨_, .done, .ok ht⟩
  | missing =>
    intro steps' u hsteps _
    cases hsteps with
    | cons hstep _ =>
      cases hstep
      exact ⟨_, .missing, .error _⟩
  | @cycle way t v rest hway =>
    intro steps' u hsteps _
    cases hsteps with
    | cons hstep _ =>
      cases hstep with
      | @ok _ w hvw =>
        refine ⟨_, .cycle ((hV.mem_way_iff hρ hvw).mpr hway), ?_⟩
        rw [hV.ref hvw]
        exact .error _
  | @known way t v rest r hway hknown _ ih =>
    intro steps' u hsteps ht
    cases hsteps with
    | cons hstep hrest =>
      cases hstep with
      | @ok _ w hvw =>
        obtain ⟨r', hwalk, hr⟩ := ih hrest ht
        refine ⟨r', .known ((hV.mem_way_iff hρ hvw).not.mpr hway) ?_ hwalk, hr⟩
        rwa [hV.id_eq hvw, ht.hasReached hρ hV]
  | @failed way t v rest e hway hknown _ ih =>
    intro steps' u hsteps ht
    cases hsteps with
    | cons hstep hrest =>
      cases hstep with
      | @ok _ w hvw =>
        obtain ⟨r', hwalk, hr⟩ := ih (hV.steps hvw) ht
        rw [List.map_cons, ← hV.id_eq hvw] at hwalk
        cases hr
        refine ⟨_, .failed ((hV.mem_way_iff hρ hvw).not.mpr hway) ?_ hwalk, .error _⟩
        rwa [hV.id_eq hvw, ht.hasReached hρ hV]
  | @entered way t inner v rest r hway hknown _ _ ihin ihrest =>
    intro steps' u hsteps ht
    cases hsteps with
    | cons hstep hrest =>
      cases hstep with
      | @ok _ w hvw =>
        obtain ⟨r', hwalk, hr⟩ := ihin (hV.steps hvw) ht
        rw [List.map_cons, ← hV.id_eq hvw] at hwalk
        cases hr with
        | @ok _ inner' hinner =>
          obtain ⟨r'', hwalk', hr'⟩ := ihrest hrest (hinner.finish hvw)
          refine ⟨r'', .entered ((hV.mem_way_iff hρ hvw).not.mpr hway) ?_ hwalk hwalk', hr'⟩
          rwa [hV.id_eq hvw, ht.hasReached hρ hV]

/-- So two traversals from related roots agree. -/
theorem Graph.concurs_traverse (hρ : Function.Injective ρ) (hV : Simulates ρ mode filter V)
    {g g' : Graph} {path path' : String} {roots roots' : List NodeId}
    (hroots : List.Forall₂ (Concurs ρ V) (g.rootSteps path roots) (g'.rootSteps path' roots')) :
    Concurs ρ (Traversal.Alike V) (g.traverse path mode filter roots)
      (g'.traverse path' mode filter roots') := by
  have hwalk := g.walks_traverse path mode filter roots
  obtain ⟨r', hwalk', hconcurs⟩ := hwalk.simulated hρ hV (u := {}) hroots .nil
  have hsame : r' = g'.traverse path' mode filter roots' :=
    hwalk'.unique (g'.walks_traverse path' mode filter roots')
  rwa [hsame] at hconcurs

end Walks

/-! ## §3. Networks that match -/

section Pairings

/-- A relation between the nodes of two hierarchies, each in its network. -/
abbrev Matching := Graph → Node → Graph → Node → Prop

variable {P : Matching} {g g' : Graph} {n n' : Node}

/-- Whether two identities stand for related nodes, or both for none. -/
structure Found (ρ : NodeId → NodeId) (P : Matching) (g g' : Graph) (id id' : NodeId) : Prop where
  id_eq : id' = ρ id
  node : Option.Rel (P g · g' ·) (g.node? id) (g'.node? id')

/-- Whether two connections carry one output of related nodes. -/
structure Connection.Alike (ρ : NodeId → NodeId) (P : Matching) (g g' : Graph)
    (c c' : Connection) : Prop where
  output : c'.output = c.output
  source : Found ρ P g g' c.source c'.source

/-- Whether two subnets have one boundary and networks that match where they are entered and
    where they act besides. -/
structure Subnet.Alike (ρ : NodeId → NodeId) (P : Matching) (s s' : Subnet) : Prop where
  inputs : s'.inputs = s.inputs
  outputs : s'.outputs = s.outputs
  block : s'.block = s.block
  output : Option.Rel (fun n n' => P s.network n s'.network n' ∧
    Found ρ P s.network s'.network n.id n'.id) s.outputNode? s'.outputNode?
  sideRoots : ∀ writes input, List.Forall₂ (Found ρ P s.network s'.network)
    (s.network.sideRoots writes input) (s'.network.sideRoots writes input)
  /-- The same inputs are fed. -/
  fed : ∀ id input, (s'.network.inputSource? (ρ id) input).isSome =
    (s.network.inputSource? id input).isSome

/-- Whether two kinds are one, but for networks that match. -/
inductive Kind.Alike (ρ : NodeId → NodeId) (P : Matching) : Kind → Kind → Prop where
  | leaf {k : Kind} (hk : ∀ s, k ≠ .subnet s) : Kind.Alike ρ P k k
  | subnet {s s' : Subnet} (hs : s.Alike ρ P s') : Kind.Alike ρ P (.subnet s) (.subnet s')

/-- **A relation between nodes that what feeds them keeps up.** -/
structure Pairing (ρ : NodeId → NodeId) (P : Matching) : Prop where
  injective : Function.Injective ρ
  id : ∀ {g n g' n'}, P g n g' n' → n'.id = ρ n.id
  name : ∀ {g n g' n'}, P g n g' n' → n'.name = n.name
  kind : ∀ {g n g' n'}, P g n g' n' → n.kind.Alike ρ P n'.kind
  feed : ∀ {g n g' n'}, P g n g' n' → ∀ input ∈ n.inputNames,
    Option.Rel (Connection.Alike ρ P g g') (g.inputSource? n.id input)
      (g'.inputSource? n'.id input)

namespace Kind.Alike

variable {k k' : Kind}

theorem inputs_eq (h : k.Alike ρ P k') : k'.inputs = k.inputs := by
  cases h with
  | leaf _ => rfl
  | subnet hs => rw [Kind.inputs, Kind.inputs, hs.inputs]

theorem outputs_eq (h : k.Alike ρ P k') : k'.outputs = k.outputs := by
  cases h with
  | leaf _ => rfl
  | subnet hs => rw [Kind.outputs, Kind.outputs, hs.outputs]

theorem isSubnetInput_eq (h : k.Alike ρ P k') : k'.isSubnetInput = k.isSubnetInput := by
  cases h <;> rfl

/-- What a backend makes of a kind before it emits it does not depend on its network. -/
theorem supports_eq (h : k.Alike ρ P k') (b : Backend) : b.supports k' = b.supports k := by
  cases h with
  | leaf _ => rfl
  | subnet _ => cases b <;> rfl

end Kind.Alike

namespace Pairing

variable (hP : Pairing ρ P) (h : P g n g' n')
include hP h

theorem ref (path : String) : NodeRef.of path n' = (NodeRef.of path n).rename ρ := by
  unfold NodeRef.of NodeRef.rename
  rw [hP.id h, hP.name h]

theorem inputNames_eq : n'.inputNames = n.inputNames := by
  unfold Node.inputNames Node.inputs
  rw [(hP.kind h).inputs_eq]

/-- A backend follows the same inputs of related nodes. -/
theorem follows_eq (b : Backend) (stage : Stage) : b.follows stage n' = b.follows stage n := by
  have hkind := hP.kind h
  unfold Backend.follows
  generalize n.kind = k at hkind
  generalize n'.kind = k' at hkind
  cases hkind with
  | leaf _ => rfl
  | subnet _ => cases b <;> rfl

end Pairing

/-- What feeds inputs of related nodes is found as related steps, whatever relation between
    visits these are to be in. -/
theorem Pairing.forall₂_sources (hP : Pairing ρ P) {V : Visit → Visit → Prop} {v w : Visit}
    (h : P v.graph v.node w.graph w.node)
    (hV : ∀ n n', P v.graph n w.graph n' → V { v with node := n } { w with node := n' }) :
    ∀ {inputs : List String}, inputs ⊆ v.node.inputNames →
      List.Forall₂ (Concurs ρ V) (v.sources inputs) (w.sources inputs)
  | [], _ => .nil
  | input :: inputs, hsub => by
    obtain ⟨hinput, hrest⟩ := List.cons_subset.mp hsub
    have ih := Pairing.forall₂_sources hP h hV hrest
    unfold Visit.sources at ih ⊢
    rw [List.filterMap_cons, List.filterMap_cons]
    -- related nodes have related feeds, which are there on both sides or on neither
    have hfeed := hP.feed h input hinput
    generalize v.graph.inputSource? v.node.id input = source at hfeed
    generalize w.graph.inputSource? w.node.id input = source' at hfeed
    cases hfeed with
    | none => exact ih
    | @some c c' hc =>
      refine .cons ?_ ih
      have hnode := hc.source.node
      generalize hn : v.graph.node? c.source = found at hnode
      generalize hn' : w.graph.node? c'.source = found' at hnode
      cases hnode with
      | none =>
        simp only [hn, hn']
        rw [hc.source.id_eq]
        exact .error (.nodeNotFound c.source)
      | some hnn' =>
        simp only [hn, hn']
        exact .ok (hV _ _ hnn')

/-- Related roots are related steps. -/
theorem Pairing.forall₂_rootSteps {V : Visit → Visit → Prop} {path : String}
    (hV : ∀ n n', P g n g' n' →
      V { graph := g, path, node := n } { graph := g', path, node := n' })
    {roots roots' : List NodeId} (h : List.Forall₂ (Found ρ P g g') roots roots') :
    List.Forall₂ (Concurs ρ V) (g.rootSteps path roots) (g'.rootSteps path roots') := by
  induction h with
  | nil => exact .nil
  | @cons root root' _ _ hroot _ ih =>
    refine .cons ?_ ih
    have hnode := hroot.node
    generalize hn : g.node? root = found at hnode
    generalize hn' : g'.node? root' = found' at hnode
    cases hnode with
    | none =>
      simp only [hn, hn']
      rw [hroot.id_eq]
      exact .error (.nodeNotFound root)
    | some hnn' =>
      simp only [hn, hn']
      exact .ok (hV _ _ hnn')

/-! ## §4. Traversals of networks that match -/

section Shallow

variable {filter : Node → InputFilter} {path : String} {roots roots' : List NodeId}

/-- What is followed of related nodes. -/
theorem Pairing.followed_eq (hP : Pairing ρ P) (h : P g n g' n') (hfilter : filter n' = filter n) :
    Visit.followed filter n' = Visit.followed filter n := by
  unfold Visit.followed
  rw [hP.inputNames_eq h, hfilter]

theorem Visit.steps_of_reads {mode : TraversalMode} {v r : Visit} (h : v.Reads mode r) :
    v.steps mode filter = r.sources (followed filter r.node) := by
  rcases Visit.steps_cases mode filter v with ⟨r', hr', heq⟩ | ⟨s, rfl, hk, -⟩
  · rwa [h.unique hr']
  · exact absurd hk h.not_subnet

/-- Visits of related nodes of two networks. -/
structure Visit.Beside (P : Matching) (g g' : Graph) (v w : Visit) : Prop where
  graph : v.graph = g
  graph' : w.graph = g'
  path : w.path = v.path
  node : P g v.node g' w.node

theorem Pairing.simulates_network (hP : Pairing ρ P)
    (hfilter : ∀ n n', P g n g' n' → filter n' = filter n) :
    Simulates ρ .shallow filter (Visit.Beside P g g') where
  ref := by
    intro v w h
    rw [h.path]
    exact hP.ref h.node v.path
  steps := by
    intro v w h
    obtain ⟨hg, hg', hpath, hnode⟩ := h
    rw [Visit.steps_of_reads (.own (.inl rfl)), Visit.steps_of_reads (.own (.inl rfl)),
      hP.followed_eq hnode (hfilter _ _ hnode)]
    rw [← hg, ← hg'] at hnode
    refine hP.forall₂_sources hnode (fun n n' h => ?_) (List.filter_subset_self _)
    rw [hg, hg'] at h
    exact ⟨hg, hg', hpath, h⟩

/-- **Networks that match are traversed alike**, where subnets are not entered. -/
theorem Pairing.concurs_network (hP : Pairing ρ P)
    (hfilter : ∀ n n', P g n g' n' → filter n' = filter n)
    (hroots : List.Forall₂ (Found ρ P g g') roots roots') :
    Concurs ρ (fun t u => List.Forall₂ (P g · g' ·) t.nodes u.nodes)
      (g.traverse path .shallow filter roots) (g'.traverse path .shallow filter roots') := by
  have hV := hP.simulates_network hfilter
  have hsteps : List.Forall₂ (Concurs ρ (Visit.Beside P g g')) (g.rootSteps path roots)
      (g'.rootSteps path roots') :=
    Pairing.forall₂_rootSteps (fun n n' h => ⟨rfl, rfl, rfl, h⟩) hroots
  refine (Graph.concurs_traverse hP.injective hV hsteps).mono fun t u htu => ?_
  unfold Traversal.nodes
  rw [List.forall₂_map_left_iff, List.forall₂_map_right_iff]
  refine List.Forall₂.imp ?_ htu
  rintro _ _ ⟨v, w, hvw, rfl, rfl⟩
  exact hvw.node

/-- **So are the orders of a stage.** -/
theorem Pairing.concurs_stageOrder (hP : Pairing ρ P) (b : Backend) (stage : Stage)
    (hroots : List.Forall₂ (Found ρ P g g') roots roots') :
    Concurs ρ (List.Forall₂ (P g · g' ·)) (b.stageOrder g path stage roots)
      (b.stageOrder g' path stage roots') := by
  have hconcerned : List.Forall₂ (Found ρ P g g') (roots.filter (b.concerns g stage))
      (roots'.filter (b.concerns g' stage)) := by
    refine List.rel_filter (fun root root' hroot => ?_) hroots
    show b.concerns g stage root = true ↔ b.concerns g' stage root' = true
    rw [← Bool.eq_iff_iff]
    have hnode := hroot.node
    unfold Backend.concerns
    generalize g.node? root = found at hnode
    generalize g'.node? root' = found' at hnode
    cases hnode with
    | none => rfl
    | some h =>
      unfold Node.inputs
      simp only [hP.follows_eq h b stage, (hP.kind h).inputs_eq]
  have hfollows : ∀ n n', P g n g' n' → b.follows stage n' = b.follows stage n :=
    fun n n' h => hP.follows_eq h b stage
  exact (hP.concurs_network hfollows hconcerned).map fun _ _ h => h

end Shallow

section Deep

variable {path : String} {roots roots' : List NodeId}

/-- Whether two subnets that are walked through are related. -/
structure Frame.Alike (P : Matching) (f f' : Frame) : Prop where
  path : f'.path = f.path
  subnet : P f.graph f.subnet f'.graph f'.subnet

/-- Whether two visits are of related nodes inside related subnets. -/
structure Visit.Alike (P : Matching) (v w : Visit) : Prop where
  path : w.path = v.path
  node : P v.graph v.node w.graph w.node
  frames : List.Forall₂ (Frame.Alike P) v.frames w.frames

theorem Visit.Alike.sources (hP : Pairing ρ P) {v w : Visit} (h : v.Alike P w) :
    List.Forall₂ (Concurs ρ (Visit.Alike P)) (v.sources (followed followAll v.node))
      (w.sources (followed followAll w.node)) := by
  rw [hP.followed_eq h.node rfl]
  exact hP.forall₂_sources h.node (fun n n' hn => ⟨h.path, hn, h.frames⟩)
    (List.filter_subset_self _)

theorem Pairing.simulates_hierarchy (hP : Pairing ρ P) :
    Simulates ρ .deep followAll (Visit.Alike P) where
  ref := by
    intro v w h
    rw [h.path]
    exact hP.ref h.node v.path
  steps := by
    intro v w h
    have hkind := hP.kind h.node
    generalize hk : v.node.kind = k at hkind
    generalize hk' : w.node.kind = k' at hkind
    cases hkind with
    | @subnet s s' hs =>
      have houtput := hs.output
      unfold Visit.steps
      simp only [hk, hk']
      generalize s.outputNode? = found at houtput
      generalize s'.outputNode? = found' at houtput
      cases houtput with
      | none => exact .nil
      | some ho =>
        refine .cons (.ok ⟨?_, ho.1, .cons ⟨h.path, h.node⟩ h.frames⟩) .nil
        rw [h.path, hP.name h.node]
    | leaf hleaf =>
      have hplain : ∀ {u : Visit}, u.node.kind = k → ∀ s, u.node.kind ≠ .subnet s := by
        intro u hu s
        rw [hu]
        exact hleaf s
      by_cases htop : k.isSubnetInput = true ∧ v.frames ≠ []
      · -- what offers the inputs of a subnet leads to what feeds the subnet, on both sides
        have hframes := h.frames
        generalize hf : v.frames = frames at hframes htop
        generalize hf' : w.frames = frames' at hframes
        cases hframes with
        | nil => exact absurd rfl htop.2
        | @cons f f' outer outer' hframe houter =>
          have hin : v.node.kind.isSubnetInput = true := by rw [hk]; exact htop.1
          have hin' : w.node.kind.isSubnetInput = true := by rw [hk']; exact htop.1
          rw [Visit.steps_of_reads (.leave rfl hin hf), Visit.steps_of_reads (.leave rfl hin' hf')]
          have houtside : (Visit.ofFrame f outer).Alike P (Visit.ofFrame f' outer') :=
            ⟨hframe.path, hframe.subnet, houter⟩
          exact houtside.sources hP
      · have hown : ∀ {u : Visit}, u.node.kind = k → (v.frames = [] → u.frames = []) →
            u.Reads .deep u := by
          intro u hu hframes
          refine .own (.inr ⟨hplain hu, fun hin => hframes ?_⟩)
          rw [hu] at hin
          by_contra hne
          exact htop ⟨hin, hne⟩
        have hempty : v.frames = [] → w.frames = [] := by
          intro hf
          have hframes := h.frames
          rwa [hf, List.forall₂_nil_left_iff] at hframes
        rw [Visit.steps_of_reads (hown hk fun hf => hf), Visit.steps_of_reads (hown hk' hempty)]
        exact h.sources hP

/-- **Hierarchies that match are traversed alike**, where subnets are entered. -/
theorem Pairing.concurs_hierarchy (hP : Pairing ρ P)
    (hroots : List.Forall₂ (Found ρ P g g') roots roots') :
    Concurs ρ (Traversal.Alike fun v w => v.Alike P w ∧
        g.Reaches path .deep followAll roots v ∧
        g'.Reaches path .deep followAll roots' w)
      (g.traverse path .deep followAll roots)
      (g'.traverse path .deep followAll roots') := by
  have hV := hP.simulates_hierarchy.within
    (A := g.Reaches path .deep followAll roots)
    (B := g'.Reaches path .deep followAll roots') Graph.Reaches.follows Graph.Reaches.follows
  have hsteps : List.Forall₂ (Concurs ρ (Visit.Alike P)) (g.rootSteps path roots)
      (g'.rootSteps path roots') :=
    Pairing.forall₂_rootSteps (fun n n' h => ⟨rfl, h, .nil⟩) hroots
  exact Graph.concurs_traverse hP.injective hV
    (forall₂_within hsteps (fun v hv => ⟨v, hv, .refl⟩) fun w hw => ⟨w, hw, .refl⟩)

end Deep

end Pairings

end ShaderFlow
