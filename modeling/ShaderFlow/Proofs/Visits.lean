/-
  ShaderFlow.Proofs.Visits — the leaves that a pass comes to, in order.

  A subnet adds nothing of its own to what a program tells its host, nor to what its body does
  with the host's values: it hands on what its network has, in the place where the subnet stands.
  So what a pass gathers along its way is what its leaves have for it, leaf after leaf, through
  every subnet and stage after stage.

  Main definitions:
    * `Graph.Visits`, `Backend.Visits` — the leaves that a stage and a pass come to, in order;
    * `Gathers`                        — what passes through subnets as it is.

  Main statements:
    * `Graph.Visits.unique`, `Backend.Visits.unique` — in one order only;
    * `Graph.Emits.visits`       — what a network has is what its leaves have, in order;
    * `Backend.Builds.visits`    — and so it is for passes;
    * `gathers_notes`, `gathers_written` — notes and statements pass through subnets.
-/

import ShaderFlow.Proofs.Sites

namespace ShaderFlow

open Contribution

variable {b : Backend} {context : Context} {stage : Stage} {scope : Scope} {roots : List NodeId}
  {g : Graph} {α : Type}

/-! ## §1. The leaves in order -/

/-- The leaves among nodes of a network, one after the other, where a subnet stands for the leaves
    that the stage needs of its network. -/
inductive Graph.Visits (b : Backend) (context : Context) (stage : Stage) :
    Scope → Graph → List Node → List Site → Prop where
  | nil {scope : Scope} {g : Graph} : Graph.Visits b context stage scope g [] []
  | leaf {scope : Scope} {g : Graph} {n : Node} {order : List Node} {s : Site} {rest : List Site}
      (hs : s = ⟨g, n, stage, scope, context⟩) (hsubnet : ∀ subnet, n.kind ≠ .subnet subnet)
      (hrest : Graph.Visits b context stage scope g order rest) :
      Graph.Visits b context stage scope g (n :: order) (s :: rest)
  | subnet {scope : Scope} {g : Graph} {n output : Node} {order inner : List Node}
      {subnet : Subnet} {sites rest : List Site} (hk : n.kind = .subnet subnet)
      (houtput : subnet.outputNode? = some output)
      (horder : b.stageOrder subnet.network (scope.enter n.name).path stage
        (output.id :: b.sideRoots subnet.network) = .ok inner)
      (hinner : Graph.Visits b context stage (scope.enter n.name) subnet.network inner sites)
      (hrest : Graph.Visits b context stage scope g order rest) :
      Graph.Visits b context stage scope g (n :: order) (sites ++ rest)

/-- A stage comes to its leaves in one order only. -/
theorem Graph.Visits.unique {order : List Node} {sites sites' : List Site}
    (h : g.Visits b context stage scope order sites) :
    g.Visits b context stage scope order sites' → sites = sites' := by
  induction h generalizing sites' with
  | nil =>
    intro h'
    cases h'
    rfl
  | leaf hs hsubnet _ ih =>
    intro h'
    cases h' with
    | leaf hs' _ hrest' => rw [hs, hs', ih hrest']
    | subnet hk' => exact absurd hk' (hsubnet _)
  | subnet hk houtput horder _ _ ih ihrest =>
    intro h'
    cases h' with
    | leaf _ hsubnet' => exact absurd hk (hsubnet' _)
    | subnet hk' houtput' horder' hinner' hrest' =>
      obtain rfl := Kind.subnet.inj (hk.symm.trans hk')
      obtain rfl := Option.some.inj (houtput.symm.trans houtput')
      obtain rfl := Except.ok.inj (horder.symm.trans horder')
      rw [ih hinner', ihrest hrest']

/-! ## §2. What passes through subnets -/

/-- Something that is gathered from contributions: from those of a leaf what the leaf has for it,
    and from those of a subnet what is gathered from the parts of its network. -/
structure Gathers (b : Backend) (context : Context) (stage : Stage)
    (gather : List Contribution → List α) (own : Site → List α) : Prop where
  leaf : ∀ {s : Site} {cs : List Contribution}, s.stage = stage → s.context = context →
    s.graph.node? s.node.id = some s.node → (∀ subnet, s.node.kind ≠ .subnet subnet) →
      b.emitLeaf s s.node.kind = .ok cs → gather cs = own s
  subnet : ∀ {s : Site} {subnet : Subnet} {bindings : List Statement} {inner : List Part},
    s.stage = stage → subnet.inputs.mapM s.bindInput = .ok bindings →
      (∀ part ∈ inner, ∀ es repetition,
        .write stage es repetition ∈ part.contributions → repetition = .allowed) →
        gather (s.splice (s.opening subnet bindings) ((Progress.start stage).addParts inner)) =
          inner.flatMap fun part => gather part.contributions

/-- **What a network has is what its leaves have**, in order. -/
theorem Graph.Emits.visits :
    ∀ {g : Graph} {scope : Scope} {roots : List NodeId} {parts : List Part},
      g.Emits b context stage scope roots parts →
        ∃ sites, g.Visits b context stage scope (parts.map (·.node)) sites ∧
          ∀ {α : Type} {gather : List Contribution → List α} {own : Site → List α},
            Gathers b context stage gather own →
              (parts.flatMap fun part => gather part.contributions) = sites.flatMap own := by
  intro g
  induction g using Graph.network_induction with
  | step g ih =>
    intro scope roots parts h
    -- for any of the parts, so that the sites can be put together from the last one
    have hsome : ∀ some : List Part, (∀ part ∈ some, part ∈ parts) →
        ∃ sites, g.Visits b context stage scope (some.map (·.node)) sites ∧
          ∀ {α : Type} {gather : List Contribution → List α} {own : Site → List α},
            Gathers b context stage gather own →
              (some.flatMap fun part => gather part.contributions) = sites.flatMap own := by
      intro some
      induction some with
      | nil => exact fun _ => ⟨[], .nil, fun _ => rfl⟩
      | cons part some ihsome =>
        intro hsub
        have hpart := hsub part List.mem_cons_self
        obtain ⟨rest, hrest, hgather⟩ := ihsome fun q hq => hsub q (List.mem_cons_of_mem _ hq)
        rcases h.cases hpart with ⟨hsubnet, hemit⟩ |
          ⟨subnet, output, bindings, inner, hk, houtput, hbindings, hinner, hcs⟩
        · have hfound := h.schedules.found part.node (List.mem_map_of_mem hpart)
          refine ⟨_, .leaf rfl hsubnet hrest, fun hgathers => ?_⟩
          rw [List.flatMap_cons, List.flatMap_cons, hgather hgathers]
          congr 1
          exact hgathers.leaf rfl rfl hfound hsubnet hemit
        · obtain ⟨sites, hsites, hinside⟩ :=
            ih _ ⟨part.node, h.node_mem hpart, subnet, hk, rfl⟩ hinner
          refine ⟨_, .subnet hk houtput hinner.order hsites hrest, fun hgathers => ?_⟩
          have hkept := fun q hq => (hinner.selfContained q hq).kept
          rw [List.flatMap_cons, List.flatMap_append, hgather hgathers, ← hinside hgathers, hcs]
          congr 1
          exact hgathers.subnet rfl hbindings hkept
    exact hsome parts fun _ => id

/-! ## §3. Notes and statements -/

/-- **Notes pass through subnets**, and so does whatever is picked from them. -/
theorem gathers_notes {pick : Note → Option α} {own : Site → List α}
    (hleaf : ∀ {s : Site} {cs : List Contribution}, s.graph.node? s.node.id = some s.node →
      b.emitLeaf s s.node.kind = .ok cs → (notes cs).filterMap pick = own s) :
    Gathers b context stage (fun cs => (notes cs).filterMap pick) own where
  leaf _ _ hfound _ hemit := hleaf hfound hemit
  subnet {s subnet bindings inner} _ _ _ := by
    rw [Site.notes_splice, Progress.notes_addParts, List.filterMap_append,
      List.filterMap_flatMap]
    rfl

/-- **What statements do passes through subnets**, if the statements around the code of a subnet
    do nothing of it. -/
theorem gathers_written {f : Statement → List α} {own : Site → List α}
    (hfront : ∀ {s : Site} {subnet : Subnet} {bindings : List Statement},
      subnet.inputs.mapM s.bindInput = .ok bindings → ∀ st ∈ s.opening subnet bindings, f st = [])
    (hclose : f .closeBlock = [])
    (hleaf : ∀ {s : Site} {cs : List Contribution}, s.stage = stage → s.context = context →
      s.graph.node? s.node.id = some s.node → b.emitLeaf s s.node.kind = .ok cs →
        (written stage cs).flatMap f = own s) :
    Gathers b context stage (fun cs => (written stage cs).flatMap f) own where
  leaf hstage hcontext hfound _ hemit := hleaf hstage hcontext hfound hemit
  subnet {s subnet bindings inner} hstage hbindings hkept := by
    subst hstage
    have hopening : (s.opening subnet bindings).flatMap f = [] :=
      List.flatMap_eq_nil_iff.mpr (hfront hbindings)
    show (written s.stage (s.splice (s.opening subnet bindings) _)).flatMap f = _
    rw [Site.written_splice, Progress.statements_start inner hkept, List.flatMap_append,
      List.flatMap_append, hopening, List.flatMap_singleton, hclose, List.append_nil,
      List.nil_append, bodyOf, List.flatMap_assoc]
    rfl

/-! ## §4. Passes -/

/-- The leaves that a pass comes to, stage after stage. -/
def Backend.Visits (b : Backend) (g : Graph) (context : Context) (sites : List Site) : Prop :=
  ∃ output, ∃ runs : List (Stage × List Site), g.outputNode b.target = .ok output ∧
    runs.map (·.1) = b.stages ∧
    (∀ run ∈ runs, ∃ order,
      b.stageOrder g (Scope.root g.name).path run.1 (output :: b.sideRoots g) = .ok order ∧
        g.Visits b context run.1 (Scope.root g.name) order run.2) ∧
    sites = runs.flatMap (·.2)

/-- A pass comes to its leaves in one order only. -/
theorem Backend.Visits.unique {sites sites' : List Site} (h : b.Visits g context sites)
    (h' : b.Visits g context sites') : sites = sites' := by
  obtain ⟨output, runs, houtput, hstages, hruns, rfl⟩ := h
  obtain ⟨output', runs', houtput', hstages', hruns', rfl⟩ := h'
  obtain rfl := Except.ok.inj (houtput.symm.trans houtput')
  -- both run through the same stages, so the runs are compared one by one
  have hsame := hstages.trans hstages'.symm
  clear hstages hstages'
  induction runs generalizing runs' with
  | nil =>
    obtain rfl := List.map_eq_nil_iff.mp hsame.symm
    rfl
  | cons run runs ih =>
    cases runs' with
    | nil => cases hsame
    | cons run' runs' =>
      obtain ⟨hstage, hsame⟩ := List.cons.inj hsame
      obtain ⟨order, horder, hsites⟩ := hruns run List.mem_cons_self
      obtain ⟨order', horder', hsites'⟩ := hruns' run' List.mem_cons_self
      have hstage : run.1 = run'.1 := hstage
      rw [hstage] at horder hsites
      obtain rfl := Except.ok.inj (horder.symm.trans horder')
      rw [List.flatMap_cons, List.flatMap_cons, hsites.unique hsites',
        ih (fun r hr => hruns r (List.mem_cons_of_mem _ hr)) runs'
          (fun r hr => hruns' r (List.mem_cons_of_mem _ hr)) hsame]

namespace Backend.Builds

variable {output : NodeId} {builds : List (Stage × List Part)} {p : Progress}

/-- **What a pass was built from is what its leaves have**, in order. -/
theorem visits (h : b.Builds g context output builds p) :
    ∃ sites, b.Visits g context sites ∧
      ∀ {α : Type} {gather : List Contribution → List α} {own : Site → List α},
        (∀ stage ∈ b.stages, Gathers b context stage gather own) →
          (builds.flatMap fun build => build.2.flatMap fun part => gather part.contributions) =
            sites.flatMap own := by
  -- for any of the stages, in their order
  have hsome : ∀ some : List (Stage × List Part), (∀ build ∈ some, build ∈ builds) →
      ∃ runs : List (Stage × List Site), runs.map (·.1) = some.map (·.1) ∧
        (∀ run ∈ runs, ∃ order,
          b.stageOrder g (Scope.root g.name).path run.1 (output :: b.sideRoots g) = .ok order ∧
            g.Visits b context run.1 (Scope.root g.name) order run.2) ∧
        ∀ {α : Type} {gather : List Contribution → List α} {own : Site → List α},
          (∀ stage ∈ b.stages, Gathers b context stage gather own) →
            (some.flatMap fun build => build.2.flatMap fun part => gather part.contributions) =
              (runs.flatMap (·.2)).flatMap own := by
    intro some
    induction some with
    | nil => exact fun _ => ⟨[], rfl, List.forall_mem_nil _, fun _ => rfl⟩
    | cons build some ih =>
      intro hsub
      have hbuild := hsub build List.mem_cons_self
      obtain ⟨runs, hstages, hruns, hgather⟩ := ih fun q hq => hsub q (List.mem_cons_of_mem _ hq)
      have hemits := h.emits build hbuild
      obtain ⟨sites, hsites, hown⟩ := hemits.visits
      refine ⟨(build.1, sites) :: runs, by rw [List.map_cons, List.map_cons, hstages], ?_, ?_⟩
      · exact List.forall_mem_cons.mpr ⟨⟨_, hemits.order, hsites⟩, hruns⟩
      · intro α gather own hgathers
        have hstage : build.1 ∈ b.stages := by
          rw [← h.stages]
          exact List.mem_map_of_mem hbuild
        rw [List.flatMap_cons, List.flatMap_cons, List.flatMap_append, hgather hgathers,
          hown (hgathers _ hstage)]
  obtain ⟨runs, hstages, hruns, hgather⟩ := hsome builds fun _ => id
  exact ⟨_, ⟨output, runs, h.found, hstages.trans h.stages, hruns, rfl⟩, hgather⟩

/-- The body of a point function is what the function was built from. -/
theorem statements_point (h : Backend.points.Builds g context output builds p) :
    p.statements .point = builds.flatMap fun build => build.2.flatMap fun part =>
      written .point part.contributions := by
  obtain ⟨⟨target, parts⟩, rfl⟩ : ∃ build, builds = [build] := by
    rw [← List.length_eq_one_iff, ← List.length_map (·.1), h.stages]
    rfl
  obtain rfl : target = .point := (List.cons.inj h.stages).1
  have hemits := h.emits _ List.mem_cons_self
  rw [h.result]
  show ((Backend.points.begin context.config output).addParts parts).statements .point = _
  rw [Progress.statements_addParts_of_kept fun part hpart => (hemits.selfContained part hpart).kept,
    Backend.statements_begin, List.nil_append, List.flatMap_singleton]
  rfl

end Backend.Builds

end ShaderFlow
