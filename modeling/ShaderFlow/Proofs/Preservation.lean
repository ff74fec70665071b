/-
  ShaderFlow.Proofs.Preservation — generated code computes what a graph denotes.

  The body of a stage consists of the code of the nodes that the output node depends on, and of
  the code of the output node.  Running it from an empty store gives each variable the value
  that the graph denotes there, and so leaves behind what the output node makes of the values
  of its inputs.

  Main definitions:
    * `Meaning.Realizes`           — code that computes what an output node denotes.

  Main statements:
    * `Graph.Emits.realizes`       — one stage;
    * `Backend.preserves_meaning`  — every stage of every backend.
-/

import ShaderFlow.Proofs.Editing
import ShaderFlow.Proofs.Results
import ShaderFlow.Proofs.Subnets
import ShaderFlow.Proofs.Templates

namespace ShaderFlow

open Contribution

variable {V : Type} {M : Meaning V} {b : Backend} {context : Context} {stage : Stage}
  {scope : Scope} {g : Graph} {parts : List Part}

/-! ## §1. Values of the inputs of a node -/

/-- The values of the inputs of a node that matter in its stage. -/
theorem Meaning.exists_reads {s : Site} {σ : Store V} {around : List (Graph × Node)}
    (hg : s.graph.Regular) (hsupplied : ∀ input ∈ s.node.inputNames,
      (b.follows s.stage s.node).allows input = true → s.Supplied M around σ input) :
    ∃ value : String → V, s.Reads b M σ value ∧ ∀ input ∈ s.node.inputNames,
      (b.follows s.stage s.node).allows input = true →
        M.Denotes s.context.library around s.graph s.node (.input input) (value input) := by
  have hvalue : ∀ input, ∃ v, input ∈ s.node.inputNames →
      (b.follows s.stage s.node).allows input = true →
        M.Denotes s.context.library around s.graph s.node (.input input) v := by
    intro input
    by_cases h : input ∈ s.node.inputNames ∧ (b.follows s.stage s.node).allows input = true
    · obtain ⟨v, hv⟩ := (hsupplied input h.1 h.2).denotes hg h.1
      exact ⟨v, fun _ _ => hv⟩
    · exact ⟨M.zero .float, fun hinput hallow => absurd ⟨hinput, hallow⟩ h⟩
  choose value hvalue using hvalue
  refine ⟨value, fun input o hallow ho => ?_, hvalue⟩
  have hinput := (s.input_spec ho).1
  obtain ⟨v, hv, hread⟩ := M.input_value hg ho (hsupplied input hinput hallow)
  rw [hread, hv.unique (hvalue input hinput hallow)]

/-! ## §2. One stage -/

theorem InputFilter.allows_eq_false {f : InputFilter} (h : f.isEmpty = true) (input : String) :
    f.allows input = false := by
  cases f with
  | all => cases h
  | only names =>
    obtain rfl := List.isEmpty_iff.mp h
    rfl

/-- Code that computes what an output node denotes.  From an empty store it runs to its end,
    closes every block, and leaves behind what the output node makes of the values that the
    graph denotes at the inputs that matter in the stage. -/
def Meaning.Realizes (M : Meaning V) (b : Backend) (s : Site) (body : List Statement) : Prop :=
  ∃ (value : String → V) (final : Store V),
    (∀ input ∈ s.node.inputNames, (b.follows s.stage s.node).allows input = true →
      ∀ v, M.Denotes s.context.library [] s.graph s.node (.input input) v ↔ v = value input) ∧
    M.run {} body = some final ∧ final.outer = [] ∧ final.skipped = 0 ∧
    final.written = (b.outcome M s value).written ∧
    ∀ e ∈ (b.outcome M s value).declared, final.find? e.1 = some e.2

/-- Where the output node follows nothing, no code is all that it takes. -/
theorem Meaning.realizes_of_idle {s : Site} {target : Target} (hk : s.node.kind = .output target)
    (hidle : (b.follows s.stage s.node).isEmpty = true) : M.Realizes b s [] := by
  have hnone : ∀ value : String → V, b.outcome M s value = {} :=
    fun value => Backend.outcome_of_idle hk hidle
  refine ⟨fun _ => M.zero .float, {}, ?_, rfl, rfl, rfl, ?_, ?_⟩
  · intro input _ hallow
    rw [InputFilter.allows_eq_false hidle] at hallow
    cases hallow
  · rw [hnone]
  · rw [hnone]
    exact List.forall_mem_nil _

/-- **One stage** of a graph whose nodes only compute. -/
theorem Graph.Emits.realizes {root : Node} {target : Target}
    (h : g.Emits b context stage scope (root.id :: b.sideRoots g) parts)
    (hg : g.Everywhere Graph.Regular) (hdata : g.Everywhere Graph.Dataflow)
    (htop : ∀ n ∈ g.nodes, n.kind.isSubnetInput = false) (hroot : root ∈ g.nodes)
    (hk : root.kind = .output target) (hdistinct : (declaredIn (bodyOf stage parts)).Nodup) :
    M.Realizes b { graph := g, node := root, stage, scope, context } (bodyOf stage parts) := by
  let s : Site := { graph := g, node := root, stage, scope, context }
  have hout : root.outputs = [] := by
    rw [Node.outputs, hk]
    rfl
  have hfresh : Store.Fresh ({} : Store V) (bodyOf stage parts) := by
    refine ⟨hdistinct, fun x _ hx => ?_⟩
    cases hx
  rcases h.ends hg.here (Backend.sideRoots_eq_nil hdata) hroot hout with
    ⟨hidle, rfl⟩ | ⟨front, last, rfl, hlast, houtputs⟩
  · exact Meaning.realizes_of_idle hk hidle
  · have hbody : bodyOf stage (front ++ [last]) = bodyOf stage front ++ last.statements stage := by
      simp [bodyOf]
    rw [hbody] at hfresh ⊢
    have hemit : b.emitOutput s = .ok last.contributions := by
      rcases h.cases (List.mem_append_right front (List.mem_singleton_self last)) with
        ⟨_, hemit⟩ | ⟨subnet, _, _, _, hsubnet, _⟩
      · rw [hlast, hk] at hemit
        exact hemit
      · rw [hlast, hk] at hsubnet
        cases hsubnet
    obtain ⟨body, hadds, hdelivers⟩ := (Site.emitsOutput_of_emitOutput hemit).delivers hk
    have hlastBody : last.statements stage = body := (hadds stage).trans (if_pos rfl)
    rw [hlastBody] at hfresh ⊢
    -- everything in front of the output node has the values that it denotes
    obtain ⟨new, hfront⟩ : ∃ new, M.Yields context.library [] g scope {} (front.map (·.node))
        (bodyOf stage front) new :=
      h.yields_front hg.here hdata.here
        (fun inner hinner => Graph.handsOver (hg.inside hinner) (hdata.inside hinner)) rfl
        houtputs rfl (fun n hn hinput => by rw [htop n hn] at hinput; cases hinput) hfresh.left
    have hvalued : ∀ n ∈ front.map (·.node),
        M.Valued context.library [] g scope (Store.push {} new) n := by
      intro n hn
      obtain ⟨part, hpart, rfl⟩ := List.mem_map.mp hn
      have hmem := h.node_mem (List.mem_append_left [last] hpart)
      exact hfront.valued hfresh.left hn (htop _ hmem)
    have hsupplied : ∀ input ∈ root.inputNames, (b.follows stage root).allows input = true →
        s.Supplied M [] (Store.push {} new) input := by
      subst hlast
      intro input hinput hallow
      have hsplit : front ++ [last] = front ++ last :: [] := rfl
      exact h.supplied hsplit hvalued hinput hallow
    obtain ⟨value, hreads, hdenotes⟩ := M.exists_reads (s := s) hg.here hsupplied
    obtain ⟨hrun, hfound⟩ := hdelivers M (Store.push {} new) value hreads rfl
      (hfresh.right hfront.declared).new
    refine ⟨value, _, ?_, ?_, rfl, rfl, rfl, hfound⟩
    · intro input hinput hallow v
      have hv := hdenotes input hinput hallow
      exact ⟨fun h' => h'.unique hv, fun heq => heq ▸ hv⟩
    · rw [Meaning.run_append, hfront.run, Option.bind_some]
      exact hrun

/-! ## §3. Whole graphs -/

/-- The body of a stage is what the stage was built from, where nodes only compute. -/
theorem Backend.Builds.body_eq {output : NodeId} {builds : List (Stage × List Part)}
    {p : Progress} (h : b.Builds g context output builds p)
    (hdata : g.Everywhere Graph.Dataflow) (hstage : stage ∈ b.stages) :
    ∃ parts, g.Emits b context stage (Scope.root g.name) (output :: b.sideRoots g) parts ∧
      p.statements stage = bodyOf stage parts := by
  obtain ⟨parts, before, after, hmem, hbody, hothers⟩ := h.body hstage
  have hnone : before ++ after = [] := by
    rw [List.eq_nil_iff_forall_not_mem]
    intro st hst
    obtain ⟨other, hother, hne, hst⟩ := hothers st hst
    rw [(h.emits other hother).bodyOf_other hne.symm hdata] at hst
    cases hst
  obtain ⟨rfl, rfl⟩ := List.append_eq_nil_iff.mp hnone
  refine ⟨parts, h.emits _ hmem, ?_⟩
  rw [hbody, List.nil_append, List.append_nil]

/-- Every stage of a pass, where the networks of the graph fit together. -/
theorem Backend.Builds.realizes {output : NodeId} {builds : List (Stage × List Part)}
    {p : Progress} (h : b.Builds g context output builds p)
    (hg : g.Everywhere Graph.Regular) (hdata : g.Everywhere Graph.Dataflow)
    (htop : ∀ n ∈ g.nodes, n.kind.isSubnetInput = false) {root : Node} {target : Target}
    (hfound : g.node? output = some root) (hk : root.kind = .output target)
    (hstage : stage ∈ b.stages) :
    M.Realizes b { graph := g, node := root, stage, scope := Scope.root g.name, context }
      (p.statements stage) := by
  obtain ⟨parts, hparts, hbody⟩ := h.body_eq hdata hstage
  have hdistinct := (h.distinct hstage).1
  rw [← Graph.id_of_node? hfound] at hparts
  rw [hbody] at hdistinct ⊢
  exact hparts.realizes hg hdata htop (Graph.mem_of_node? hfound) hk hdistinct

theorem Backend.target_compile (b : Backend) (g : Graph) (context : Context) :
    (b.compile g context).1.target = b.target := by
  unfold Backend.compile
  cases b with
  | material | points => rfl
  | particles table =>
    simp only
    split <;> rfl

theorem Graph.Built.regular (h : g.Built) (hmirrored : g.Everywhere Graph.Mirrored) :
    g.Everywhere Graph.Regular :=
  fun inner hinner => (h.sound inner hinner).regular (hmirrored inner hinner)

/-- **Compilation preserves meaning.**  Take a graph that validated edits lead to, whose nodes
    only compute and whose subnets are mirrored.  If it compiles, the code of every stage
    computes what the graph denotes at the inputs of its output node, whatever the literals,
    uniforms, operations, functions and conversions mean. -/
theorem Backend.preserves_meaning (b : Backend) (g : Graph) (context : Context)
    (hbuilt : g.Built) (hmirrored : g.Everywhere Graph.Mirrored)
    (hdata : g.Everywhere Graph.Dataflow) (htop : ∀ n ∈ g.nodes, n.kind.isSubnetInput = false)
    (program : Program) (hprogram : (b.compile g context).2 = .ok program) :
    ∃ p, (b.compile g context).1.pass g context = .ok p ∧
      ∃ root ∈ g.nodes, root.kind = .output b.target ∧
        ∀ (V : Type) (M : Meaning V), ∀ stage ∈ (b.compile g context).1.stages,
          M.Realizes (b.compile g context).1
            { graph := g, node := root, stage, scope := Scope.root g.name, context }
            (p.statements stage) := by
  obtain ⟨p, hp⟩ := Backend.pass_of_compile hprogram
  obtain ⟨output, builds, hbuilds⟩ := Backend.builds_of_pass hp
  have hg := hbuilt.regular hmirrored
  obtain ⟨root, hfound, hroot, hk⟩ := hg.here.toWired.node?_output hbuilds.found
  rw [Backend.target_compile] at hk
  refine ⟨p, hp, root, hroot, hk, fun V M stage hstage => ?_⟩
  exact hbuilds.realizes hg hdata htop hfound hk hstage

/-! ## §4. Shaded points, and a bare material -/

theorem negation_built : negation.network.Built := by
  have h : Graph.assemble "negation" negation.network.nodes negation.network.connections =
      .ok negation.network := rfl
  refine .assemble ?_ h
  intro n hn s hk
  simp only [negation, List.mem_cons, List.not_mem_nil, or_false] at hn
  rcases hn with rfl | rfl | rfl <;> cases hk

theorem shading_built : shading.Built := by
  have h : Graph.assemble "shading" shading.nodes shading.connections = .ok shading := rfl
  refine .assemble ?_ h
  intro n hn s hk
  simp only [shading, List.mem_cons, List.not_mem_nil, or_false] at hn
  rcases hn with rfl | rfl | rfl <;> cases hk
  exact negation_built

/-- Whole numbers as values: literals are one, and operations negate their first operand. -/
def counting : Meaning Int where
  literal _ := 1
  zero _ := 0
  uniform _ := 0
  vertex _ := 1
  varying _ := 0
  field _ _ := 0
  channels _ _ := 0
  builtin _ := 0
  convert _ _ v := v
  math _ args := -args.headD 0
  call _ args := args.headD 0
  viewNormal v := v
  withAlpha color _ := color
  holds v := v != 0

theorem shading_dataflow : shading.Everywhere Graph.Dataflow := by
  refine .intro (by unfold Graph.Dataflow; decide) ?_
  rintro inner ⟨n, hn, s, hk, rfl⟩
  simp only [shading, List.mem_cons, List.not_mem_nil, or_false] at hn
  rcases hn with rfl | rfl | rfl <;> cases hk
  refine .intro (by unfold Graph.Dataflow; decide) ?_
  rintro inner ⟨n, hn, s, hk, rfl⟩
  simp only [negation, List.mem_cons, List.not_mem_nil, or_false] at hn
  rcases hn with rfl | rfl | rfl <;> cases hk

/-- The color of the points is minus one, in the code and in the graph. -/
theorem shading_preserves_meaning :
    ∃ p final, Backend.points.pass shading {} = .ok p ∧
      counting.run {} (p.statements .point) = some final ∧
      final.written = [(.field "point" "color", -1)] ∧
      ∃ root ∈ shading.nodes, root.kind = .output .points ∧
        counting.Denotes ({} : Context).library [] shading root (.input "color") (-1) := by
  obtain ⟨program, hprogram⟩ := shading_compiles
  obtain ⟨p, hp, root, hroot, hk, hrealizes⟩ := Backend.preserves_meaning .points shading {}
    shading_built (shading_regular.mono fun _ h => h.mirrored) shading_dataflow (by decide)
    program hprogram
  have hpass : Backend.points.pass shading {} = .ok p := hp
  obtain ⟨value, final, hvalue, hrun, _, _, hwritten, _⟩ :=
    hrealizes Int counting .point (by decide)
  have hcomputed : (Backend.points.pass shading {}).map (fun p =>
      (counting.run {} (p.statements .point)).map (·.written)) =
        .ok (some [(.field "point" "color", -1)]) := by
    decide +kernel
  have hcolor : final.written = [(.field "point" "color", -1)] := by
    rw [hpass] at hcomputed
    have hsome : (counting.run {} (p.statements .point)).map (·.written) =
        some [(.field "point" "color", -1)] := Except.ok.inj hcomputed
    rw [hrun] at hsome
    exact Option.some.inj hsome
  refine ⟨p, final, hpass, hrun, hcolor, root, hroot, hk, ?_⟩
  have hout : root = .make ⟨3⟩ "out" (.output .points) := by
    simp only [shading, List.mem_cons, List.not_mem_nil, or_false] at hroot
    rcases hroot with rfl | rfl | rfl <;> first | rfl | cases hk
  subst hout
  rw [hcolor] at hwritten
  have hone : [(Place.field "point" "color", (-1 : Int))] =
      [(.field "point" "color", value "color")] := hwritten
  have hsame : (-1 : Int) = value "color" := (Prod.mk.inj (List.cons.inj hone).1).2
  exact (hvalue "color" (by decide) rfl (-1)).mpr hsame

/-- A material of which nothing is fed. -/
def bareMaterial : Graph :=
  { Graph.empty "bare" with
    nodes := [.make ⟨1⟩ "out" (.output .material)]
    version := 1 }

theorem bareMaterial_built : bareMaterial.Built := by
  have h : Graph.assemble "bare" bareMaterial.nodes [] = .ok bareMaterial := rfl
  refine .assemble ?_ h
  intro n hn s hk
  simp only [bareMaterial, List.mem_cons, List.not_mem_nil, or_false] at hn
  rw [hn] at hk
  cases hk

/-- A position that nothing feeds is that of the vertex in the code, where the graph has the
    zero of its type. -/
theorem bareMaterial_reads_vertex :
    bareMaterial.Built ∧ bareMaterial.Everywhere Graph.Mirrored ∧
    bareMaterial.Everywhere Graph.Dataflow ∧
    ∃ program p final root, (Backend.material.compile bareMaterial {}).2 = .ok program ∧
      Backend.material.pass bareMaterial {} = .ok p ∧
      root ∈ bareMaterial.nodes ∧ root.kind = .output .material ∧
      counting.Denotes ({} : Context).library [] bareMaterial root (.input "position") 0 ∧
      p.statements .vertex =
        [.declare .vector3 "transformed" (.operand (.attribute "position"))] ∧
      counting.run {} (p.statements .vertex) = some final ∧
      final.find? "transformed" = some 1 := by
  have hnone : ∀ inner : Graph, ¬inner.Nests bareMaterial := by
    rintro inner ⟨n, hn, s, hk, rfl⟩
    simp only [bareMaterial, List.mem_cons, List.not_mem_nil, or_false] at hn
    rw [hn] at hk
    cases hk
  refine ⟨bareMaterial_built, .intro ?_ fun inner h => absurd h (hnone inner),
    .intro ?_ fun inner h => absurd h (hnone inner), ?_⟩
  · intro n hn s hk
    exact absurd ⟨n, hn, s, hk, rfl⟩ (hnone s.network)
  · unfold Graph.Dataflow
    decide
  · have hbody : (Backend.material.pass bareMaterial {}).map (·.statements .vertex) =
        .ok [.declare .vector3 "transformed" (.operand (.attribute "position"))] := by
      decide +kernel
    obtain ⟨p, hpass, hstatements⟩ := map_eq_ok.mp hbody
    obtain ⟨program, hcompile, -⟩ := Backend.compile_material rfl hpass
    refine ⟨.material program, p, { top := [("transformed", 1)] },
      .make ⟨1⟩ "out" (.output .material), by rw [hcompile], hpass, List.mem_singleton_self _, rfl,
      ?_, hstatements, ?_, rfl⟩
    · exact .zero rfl rfl rfl
    · rw [hstatements]
      rfl

end ShaderFlow
