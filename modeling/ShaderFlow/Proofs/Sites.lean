/-
  ShaderFlow.Proofs.Sites — the nodes that a stage comes to.

  A stage comes to the nodes that it needs of a network, and inside each subnet among them to
  those that it needs there.  What only a leaf can complain of, and all that is noted for the
  host, has its origin at one of these nodes.

  Main definitions:
    * `Graph.Meets`          — the nodes that a stage comes to, at every depth;
    * `CompileError.OfLeaf`  — what only a leaf complains of;
    * `Contribution.notes`   — what is noted for the host.

  Main statements:
    * `Graph.meets_of_error` — a stage that fails for such a reason has met the leaf;
    * `Site.notes_splice`, `Backend.Builds.notes_eq` — subnets and passes note what their parts do;
    * `Graph.Emits.meets_of_note` — a stage that leaves a note has met the leaf that left it;
    * `Backend.meets_of_pass_error`, `Backend.meets_of_pass_note` — the same for whole passes.
-/

import ShaderFlow.Proofs.Emission

namespace ShaderFlow

variable {b : Backend} {context : Context} {stage : Stage} {scope : Scope} {roots : List NodeId}
  {g : Graph} {s : Site} {e : CompileError}

/-! ## §1. What a stage comes to -/

/-- The nodes that a stage comes to: those that it needs of a network, and those that it needs
    inside the subnets among them, from the node that collects the outputs and from the nodes
    that act besides. -/
inductive Graph.Meets (b : Backend) (context : Context) (stage : Stage) :
    Scope → List NodeId → Graph → Site → Prop where
  | here {scope : Scope} {roots : List NodeId} {g : Graph} {order : List Node} {n : Node}
      (horder : b.stageOrder g scope.path stage roots = .ok order) (hn : n ∈ order)
      (hsupported : b.checkSupported scope n = .ok ()) :
      Graph.Meets b context stage scope roots g { graph := g, node := n, stage, scope, context }
  | inside {scope : Scope} {roots : List NodeId} {g : Graph} {order : List Node} {n output : Node}
      {subnet : Subnet} {s : Site} (horder : b.stageOrder g scope.path stage roots = .ok order)
      (hn : n ∈ order) (hk : n.kind = .subnet subnet) (ho : subnet.outputNode? = some output)
      (hs : Graph.Meets b context stage (scope.enter n.name)
        (output.id :: b.sideRoots subnet.network) subnet.network s) :
      Graph.Meets b context stage scope roots g s

theorem Graph.Meets.stage_eq (h : g.Meets b context stage scope roots s) : s.stage = stage := by
  induction h with
  | here _ _ _ => rfl
  | inside _ _ _ _ _ ih => exact ih

/-- No output node stands inside a subnet. -/
theorem Graph.Meets.kind_ne_output (h : g.Meets b context stage scope roots s) :
    0 < scope.depth → ∀ target, s.node.kind ≠ .output target := by
  induction h with
  | @here scope roots g order n _ _ hsupported =>
    intro hdepth target hk
    have hk : n.kind = .output target := hk
    simp [Backend.checkSupported, hk, hdepth] at hsupported
  | inside _ _ _ _ _ ih => exact fun _ => ih (Nat.succ_pos _)

/-- So a stage that comes to one needs it of the graph itself. -/
theorem Graph.Meets.of_output {target : Target} (h : g.Meets b context stage scope roots s)
    (hk : s.node.kind = .output target) :
    s.graph = g ∧ ∃ order, b.stageOrder g scope.path stage roots = .ok order ∧ s.node ∈ order := by
  cases h with
  | here horder hn _ => exact ⟨rfl, _, horder, hn⟩
  | inside _ _ _ _ hs => exact absurd hk (hs.kind_ne_output (Nat.succ_pos _) target)

/-! ## §2. Where errors come from -/

/-- What only a leaf complains of: a function or an attribute that is not there. -/
def CompileError.OfLeaf : CompileError → Prop
  | .unknownFunction _ _ | .unallocatedAttribute _ _ => True
  | _ => False

/-- A traversal complains of missing nodes and cycles. -/
theorem Graph.traverse_error {path : String} {filter : Node → InputFilter}
    (h : g.traverse path .shallow filter roots = .error e) : ¬e.OfLeaf := by
  have hwalk := g.walks_traverse path .shallow filter roots
  rw [h] at hwalk
  -- a walk breaks off at a root or a source that is missing, or in a cycle
  rcases hwalk.broken (g.terrain_network path filter) (fun _ => Graph.network_of_root)
    with hroot | ⟨_, _, _, _, hstep | ⟨rfl, _⟩⟩
  · obtain ⟨_, _, _, rfl⟩ := Graph.error_mem_rootSteps hroot
    exact id
  · obtain ⟨_, rfl, _⟩ := Visit.error_mem_steps.mp hstep
    exact id
  · exact id

theorem Backend.stageOrder_error {path : String}
    (h : b.stageOrder g path stage roots = .error e) : ¬e.OfLeaf :=
  Graph.traverse_error (map_eq_error.mp h)

theorem Backend.checkSupported_cause {n : Node} (h : b.checkSupported scope n = .error e) :
    e = .unsupportedNode (NodeRef.of scope.path n) b.target := by
  unfold checkSupported at h
  simp only at h
  split at h
  all_goals
    split at h
    · cases h
      rfl
    · cases h

theorem Backend.checkSupported_error {n : Node} (h : b.checkSupported scope n = .error e) :
    ¬e.OfLeaf := by
  rw [checkSupported_cause h]
  exact id

theorem Progress.addAll_cause {p : Progress} {path : String} {n : Node} {cs : List Contribution}
    (h : p.addAll path n cs = .error e) :
    ∃ kept dropped, e = .conflictingDefinition (NodeRef.of path n) kept dropped := by
  unfold addAll at h
  simp only at h
  split at h
  · cases h
  · cases h
    exact ⟨_, _, rfl⟩

theorem Progress.addAll_error {p : Progress} {path : String} {n : Node} {cs : List Contribution}
    (h : p.addAll path n cs = .error e) : ¬e.OfLeaf := by
  obtain ⟨_, _, rfl⟩ := addAll_cause h
  exact id

namespace Site

/-- An input complains of itself, or of the node that ought to feed it. -/
theorem input_cause {name : String} (h : s.input name = .error e) :
    e = .missingInput s.ref name ∨ ∃ id, e = .nodeNotFound id := by
  unfold input at h
  split at h
  · cases h
    exact .inl rfl
  · split at h
    · split at h
      · cases h
        exact .inr ⟨_, rfl⟩
      · cases h
    · split at h
      · cases h
        exact .inl rfl
      · split at h <;> cases h

theorem input_error {name : String} (h : s.input name = .error e) : ¬e.OfLeaf := by
  rcases input_cause h with rfl | ⟨_, rfl⟩ <;> exact id

theorem inputs_error {names : List String} (h : s.inputs names = .error e) : ¬e.OfLeaf := by
  obtain ⟨_, _, hinput⟩ := exists_of_mapM_eq_error h
  exact input_error hinput

/-- A subnet is opened unless an input complains or nothing collects its outputs. -/
theorem openSubnet_cause {subnet : Subnet} (h : s.openSubnet subnet = .error e) :
    e = .missingSubnetOutput s.ref ∨ ∃ name, s.input name = .error e := by
  unfold openSubnet at h
  split at h
  · cases h
    exact .inl rfl
  · rcases bind_eq_error.mp h with h | ⟨_, _, h⟩
    · obtain ⟨_, _, hbind⟩ := exists_of_mapM_eq_error h
      exact .inr ⟨_, map_eq_error.mp hbind⟩
    · cases h

theorem openSubnet_error {subnet : Subnet} (h : s.openSubnet subnet = .error e) : ¬e.OfLeaf := by
  rcases openSubnet_cause h with rfl | ⟨_, hinput⟩
  · exact id
  · exact input_error hinput

end Site

/-- A node that a stage needs is found among the nodes of its network. -/
theorem Backend.emitAmong_of_stageOrder {path : String} {order : List Node} {n : Node}
    (h : b.stageOrder g path stage roots = .ok order) (hn : n ∈ order) :
    Node.emitAmong b context stage scope g n.id g.nodes =
      n.kind.emit b { graph := g, node := n, stage, scope, context } :=
  Node.emitAmong_eq ((Backend.schedules_of_stageOrder h).found n hn)

/-- **A stage that fails for a reason of a leaf has met the leaf.** -/
theorem Graph.meets_of_error (he : e.OfLeaf) :
    ∀ {g : Graph} {scope : Scope} {roots : List NodeId} {p : Progress},
      g.emitStage b context stage scope roots p = .error e →
        ∃ s, g.Meets b context stage scope roots s ∧ (∀ subnet, s.node.kind ≠ .subnet subnet) ∧
          b.emitLeaf s s.node.kind = .error e := by
  intro g
  induction g using Graph.network_induction with
  | step g ih =>
    intro scope roots p h
    rw [Graph.emitStage_eq] at h
    rcases bind_eq_error.mp h with h | ⟨order, horder, h⟩
    · exact absurd he (Backend.stageOrder_error h)
    -- the stage stops at the first node that fails, in the state that those before it left
    obtain ⟨n, hn, p', h⟩ := exists_of_foldlM_eq_error h
    rcases bind_eq_error.mp h with h | ⟨⟨⟩, hsupported, h⟩
    · exact absurd he (Backend.checkSupported_error h)
    rcases bind_eq_error.mp h with h | ⟨cs, _, h⟩
    · rw [Backend.emitAmong_of_stageOrder horder hn] at h
      cases hk : n.kind with
      | subnet subnet =>
        obtain ⟨inputs, outputs, block, network⟩ := subnet
        rw [hk, Kind.emit] at h
        rcases bind_eq_error.mp h with h | ⟨⟨opening, output⟩, hopen, h⟩
        · exact absurd he (Site.openSubnet_error h)
        rcases bind_eq_error.mp h with h | ⟨nested, _, h⟩
        · have hnests : network.Nests g :=
            ⟨n, Graph.mem_of_node? ((Backend.schedules_of_stageOrder horder).found n hn), _, hk,
              rfl⟩
          -- the boundary was bound before, so it is the network inside that fails
          obtain ⟨s, hs, hleaf⟩ := ih network hnests h
          unfold Site.openSubnet at hopen
          split at hopen
          next => cases hopen
          next outputNode houtput =>
            obtain ⟨bindings, _, hopen⟩ := bind_eq_ok.mp hopen
            rw [pure_eq_ok, Prod.mk.injEq] at hopen
            obtain ⟨_, rfl⟩ := hopen
            exact ⟨s, .inside horder hn hk houtput hs, hleaf⟩
        · cases h
      | _ =>
        refine ⟨_, .here horder hn hsupported, by simp [hk], ?_⟩
        rw [hk, Kind.emit] at h
        · simpa only [hk] using h
        · simp
    · exact absurd he (Progress.addAll_error h)

/-! ## §3. Where notes come from -/

namespace Contribution

/-- The note that a contribution is. -/
def note? : Contribution → Option Note
  | .note n => some n
  | _ => none

/-- The notes among contributions. -/
def notes (cs : List Contribution) : List Note := cs.filterMap note?

@[simp] theorem notes_nil : notes [] = [] := rfl

@[simp] theorem notes_append (cs more : List Contribution) :
    notes (cs ++ more) = notes cs ++ notes more :=
  List.filterMap_append

@[simp] theorem notes_note (n : Note) (cs : List Contribution) :
    notes (.note n :: cs) = n :: notes cs := rfl

@[simp] theorem notes_define (target : Stage) (declarations : List Declaration)
    (cs : List Contribution) : notes (.define target declarations :: cs) = notes cs := rfl

@[simp] theorem notes_write (target : Stage) (entries : List Entry) (repetition : Repetition)
    (cs : List Contribution) : notes (.write target entries repetition :: cs) = notes cs := rfl

@[simp] theorem notes_statements (target : Stage) (body : List Statement)
    (cs : List Contribution) : notes (.statements target body :: cs) = notes cs := rfl

theorem notes_flatMap {ι : Type} (f : ι → List Contribution) (is : List ι) :
    notes (is.flatMap f) = is.flatMap fun i => notes (f i) :=
  List.filterMap_flatMap

theorem mem_notes {cs : List Contribution} {n : Note} :
    n ∈ notes cs ↔ Contribution.note n ∈ cs := by
  rw [notes, List.mem_filterMap]
  constructor
  · rintro ⟨c, hc, hn⟩
    cases c with
    | note other =>
      cases hn
      exact hc
    | _ => cases hn
  · exact fun hn => ⟨_, hn, rfl⟩

end Contribution

namespace Progress

theorem notes_foldl_add (owner : NodeId) :
    ∀ (cs : List Contribution) (p : Progress),
      (cs.foldl (add owner) p).notes = p.notes ++ Contribution.notes cs
  | [], p => (List.append_nil _).symm
  | c :: cs, p => by
    rw [List.foldl_cons, notes_foldl_add owner cs]
    cases c <;> simp [add]

/-- The notes of parts are left one after the other. -/
theorem notes_addParts :
    ∀ (parts : List Part) (p : Progress), (p.addParts parts).notes =
      p.notes ++ parts.flatMap fun part => Contribution.notes part.contributions
  | [], p => (List.append_nil _).symm
  | part :: parts, p => by
    show ((part.contributions.foldl (add part.node.id) p).addParts parts).notes = _
    rw [notes_addParts parts, notes_foldl_add, List.flatMap_cons, List.append_assoc]

end Progress

/-- The notes of a subnet are those of its network. -/
theorem Site.notes_splice (s : Site) (front : List Statement) (nested : Progress) :
    Contribution.notes (s.splice front nested) = nested.notes := by
  have hforward : Contribution.notes (nested.listing.stages.flatMap (s.forward nested.listing)) =
      [] := by
    rw [Contribution.notes_flatMap, List.flatMap_eq_nil_iff]
    intro target _
    unfold Site.forward
    split <;> rfl
  have hown : Contribution.notes (nested.notes.map Contribution.note) = nested.notes := by
    rw [Contribution.notes, List.filterMap_map]
    exact List.filterMap_some
  rw [splice, Contribution.notes_append, Contribution.notes_append, hforward, hown]
  simp

/-- **A stage that leaves a note has met the leaf that left it.** -/
theorem Graph.Emits.meets_of_note {note : Note} :
    ∀ {g : Graph} {scope : Scope} {roots : List NodeId} {parts : List Part},
      g.Emits b context stage scope roots parts →
        ∀ part ∈ parts, Contribution.note note ∈ part.contributions →
          ∃ s cs, g.Meets b context stage scope roots s ∧ b.emitLeaf s s.node.kind = .ok cs ∧
            Contribution.note note ∈ cs := by
  intro g
  induction g using Graph.network_induction with
  | step g ih =>
    intro scope roots parts h part hpart hnote
    have hmem : part.node ∈ parts.map (·.node) := List.mem_map_of_mem hpart
    rcases h.cases hpart with ⟨_, hemit⟩ |
      ⟨subnet, output, bindings, inner, hk, houtput, _, hinner, hcs⟩
    · exact ⟨_, _, .here h.order hmem (h.supported part hpart), hemit, hnote⟩
    · rw [hcs] at hnote
      rw [← Contribution.mem_notes, Site.notes_splice, Progress.notes_addParts] at hnote
      obtain ⟨q, hq, hnote⟩ := List.mem_flatMap.mp hnote
      obtain ⟨s, cs, hs, hleaf⟩ := ih _ ⟨part.node, h.node_mem hpart, subnet, hk, rfl⟩ hinner q hq
        (Contribution.mem_notes.mp hnote)
      exact ⟨s, cs, .inside h.order hmem hk houtput hs, hleaf⟩

/-! ## §4. Whole passes -/

/-- The nodes that some stage of a pass comes to. -/
def Backend.Meets (b : Backend) (g : Graph) (context : Context) (s : Site) : Prop :=
  ∃ output, g.outputNode b.target = .ok output ∧ s.stage ∈ b.stages ∧
    g.Meets b context s.stage (Scope.root g.name) (output :: b.sideRoots g) s

theorem Graph.outputNode_cause {target : Target} (h : g.outputNode target = .error e) :
    e = .missingOutputNode g.name ∨ ∃ count, e = .multipleOutputNodes g.name count := by
  unfold outputNode at h
  simp only at h
  split at h
  · cases h
    exact .inl rfl
  · cases h
  · cases h
    exact .inr ⟨_, rfl⟩

theorem Graph.outputNode_error {target : Target} (h : g.outputNode target = .error e) :
    ¬e.OfLeaf := by
  rcases outputNode_cause h with rfl | ⟨_, rfl⟩ <;> exact id

theorem Backend.checkNodes_cause (h : b.checkNodes g scope = .error e) :
    ∃ n ∈ g.nodes, e = .unsupportedNode (NodeRef.of scope.path n) b.target := by
  unfold checkNodes at h
  split at h
  next n hfind =>
    cases h
    exact ⟨n, List.mem_of_find?_eq_some hfind, rfl⟩
  next => cases h

theorem Backend.checkNodes_error (h : b.checkNodes g scope = .error e) : ¬e.OfLeaf := by
  obtain ⟨_, _, rfl⟩ := checkNodes_cause h
  exact id

theorem reserve_cause {n : Node} :
    ∀ {names : List String} {taken : Table String String},
      reserve scope n taken names = .error e →
        ∃ name other, e = .duplicateVariable (NodeRef.of scope.path n) name other
  | name :: names, taken, h => by
    unfold reserve at h
    split at h
    · cases h
      exact ⟨_, _, rfl⟩
    · exact reserve_cause h

mutual

/-- A hierarchy is refused for a variable of one of its nodes. -/
theorem Graph.reserveVariables_cause {scope : Scope} {taken : Table String String} :
    ∀ {g : Graph}, g.reserveVariables scope taken = .error e →
      ∃ ref name other, ref.id ∈ g.ids ∧ e = .duplicateVariable ref name other
  | { nodes, .. }, h => by
    rw [Graph.reserveVariables] at h
    rw [Graph.ids]
    exact Node.reserveAll_cause h

theorem Node.reserveAll_cause {scope : Scope} :
    ∀ {ns : List Node} {taken : Table String String},
      Node.reserveAll scope taken ns = .error e →
        ∃ ref name other, ref.id ∈ Node.idsAmong ns ∧ e = .duplicateVariable ref name other
  | [], taken, h => by
    rw [Node.reserveAll] at h
    cases h
  | { id, name, kind, dirty, error } :: ns, taken, h => by
    rw [Node.reserveAll] at h
    rw [Node.idsAmong]
    rcases bind_eq_error.mp h with h | ⟨_, _, h⟩
    · obtain ⟨_, _, rfl⟩ := reserve_cause h
      exact ⟨_, _, _, List.mem_cons_self, rfl⟩
    · rcases bind_eq_error.mp h with h | ⟨_, _, h⟩
      · obtain ⟨ref, name, other, hid, rfl⟩ := Kind.reserveVariables_cause h
        exact ⟨ref, name, other, List.mem_cons_of_mem _ (List.mem_append_left _ hid), rfl⟩
      · obtain ⟨ref, name, other, hid, rfl⟩ := Node.reserveAll_cause h
        exact ⟨ref, name, other, List.mem_cons_of_mem _ (List.mem_append_right _ hid), rfl⟩

theorem Kind.reserveVariables_cause {scope : Scope} {taken : Table String String} :
    ∀ {k : Kind}, k.reserveVariables scope taken = .error e →
      ∃ ref name other, ref.id ∈ k.ids ∧ e = .duplicateVariable ref name other
  | .subnet { inputs, outputs, block, network }, h => by
    rw [Kind.reserveVariables] at h
    rw [Kind.ids]
    exact Graph.reserveVariables_cause h
  | .constant _, h | .param .., h | .math .., h | .globals, h | .attribute .., h
  | .varyingWrite .., h | .varyingRead .., h | .function .., h | .output _, h
  | .subnetInput _, h | .subnetOutput _, h => by
    simp [Kind.reserveVariables] at h

end

theorem Graph.checkVariables_error (h : g.checkVariables scope = .error e) : ¬e.OfLeaf := by
  obtain ⟨_, _, _, _, rfl⟩ := Graph.reserveVariables_cause (map_eq_error.mp h)
  exact id

/-- **A pass that fails for a reason of a leaf has met the leaf.** -/
theorem Backend.meets_of_pass_error (he : e.OfLeaf) (h : b.pass g context = .error e) :
    ∃ s, b.Meets g context s ∧ (∀ subnet, s.node.kind ≠ .subnet subnet) ∧
      b.emitLeaf s s.node.kind = .error e := by
  rcases bind_eq_error.mp h with h | ⟨output, houtput, h⟩
  · exact absurd he (Graph.outputNode_error h)
  rcases bind_eq_error.mp h with h | ⟨_, _, h⟩
  · exact absurd he (Backend.checkNodes_error h)
  rcases bind_eq_error.mp h with h | ⟨_, _, h⟩
  · exact absurd he (Graph.checkVariables_error h)
  rcases bind_eq_error.mp h with h | ⟨_, _, h⟩
  · exact absurd he (Graph.traverse_error h)
  obtain ⟨stage, hstage, p, h⟩ := exists_of_foldlM_eq_error h
  obtain ⟨s, hs, hleaf⟩ := Graph.meets_of_error he h
  obtain rfl := hs.stage_eq
  exact ⟨s, ⟨output, houtput, hstage, hs⟩, hleaf⟩

/-- What a pass notes is what its parts note, in order. -/
theorem Backend.Builds.notes_eq {output : NodeId} {builds : List (Stage × List Part)}
    {p : Progress} (h : b.Builds g context output builds p) :
    p.notes = builds.flatMap fun build => build.2.flatMap fun part =>
      Contribution.notes part.contributions := by
  have hfold : ∀ (builds : List (Stage × List Part)) (p : Progress),
      (builds.foldl (fun p build => p.addParts build.2) p).notes =
        p.notes ++ builds.flatMap fun build => build.2.flatMap fun part =>
          Contribution.notes part.contributions := by
    intro builds
    induction builds with
    | nil => exact fun p => (List.append_nil _).symm
    | cons build builds ih =>
      intro p
      rw [List.foldl_cons, ih, Progress.notes_addParts, List.flatMap_cons, List.append_assoc]
  rw [h.result, hfold]
  rfl

/-- **A pass that leaves a note has met the leaf that left it.** -/
theorem Backend.meets_of_pass_note {p : Progress} {note : Note} (h : b.pass g context = .ok p)
    (hnote : note ∈ p.notes) :
    ∃ s cs, b.Meets g context s ∧ b.emitLeaf s s.node.kind = .ok cs ∧
      Contribution.note note ∈ cs := by
  obtain ⟨output, builds, hbuilds⟩ := Backend.builds_of_pass h
  rw [hbuilds.notes_eq] at hnote
  obtain ⟨build, hbuild, hnote⟩ := List.mem_flatMap.mp hnote
  obtain ⟨part, hpart, hnote⟩ := List.mem_flatMap.mp hnote
  obtain ⟨s, cs, hs, hleaf⟩ := (hbuilds.emits build hbuild).meets_of_note part hpart
    (Contribution.mem_notes.mp hnote)
  have hstage : build.1 ∈ b.stages := by
    rw [← hbuilds.stages]
    exact List.mem_map_of_mem hbuild
  obtain hsite := hs.stage_eq
  rw [← hsite] at hs hstage
  exact ⟨s, cs, ⟨output, hbuilds.found, hstage, hs⟩, hleaf⟩

end ShaderFlow
