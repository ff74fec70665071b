/-
  ShaderFlow.Proofs.Declarations — no two values share a variable.

  What a body declares, at any depth, is part of what the names of its graph were checked for,
  besides the result that the output node declares for the end of the stage.  So a graph that
  passes the check never declares a variable twice, and no variable has the name of a varying.

  Main statements:
    * `Graph.Emits.declared`  — a body declares variables of its network, and results;
    * `Backend.declares_once` — the check, and what follows for every stage.
-/

import Mathlib.Data.List.Flatten
import Mathlib.Data.List.Perm.Basic
import Mathlib.Data.List.Perm.Subperm
import ShaderFlow.Proofs.Emission
import ShaderFlow.Proofs.Templates

namespace ShaderFlow

open Contribution

variable {b : Backend} {context : Context} {stage : Stage} {scope : Scope} {roots : List NodeId}
  {g : Graph} {parts : List Part}

/-! ## §1. Lists within lists -/

section Lists

variable {α β : Type}

theorem Subperm.flatMap_left {xs ys : List α} (h : xs.Subperm ys) (f : α → List β) :
    (xs.flatMap f).Subperm (ys.flatMap f) := by
  obtain ⟨zs, hperm, hsub⟩ := h
  exact ((hperm.flatMap_right f).symm.subperm).trans (hsub.flatMap f).subperm

theorem Subperm.flatMap_right {f f' : α → List β} :
    ∀ {xs : List α}, (∀ x ∈ xs, (f x).Subperm (f' x)) → (xs.flatMap f).Subperm (xs.flatMap f')
  | [], _ => .refl _
  | x :: xs, h => by
    rw [List.flatMap_cons, List.flatMap_cons]
    exact (h x List.mem_cons_self).append
      (flatMap_right fun y hy => h y (List.mem_cons_of_mem _ hy))

theorem flatMap_filter_of_nil {p : α → Bool} {f : α → List β} :
    ∀ {xs : List α}, (∀ x ∈ xs, p x = false → f x = []) → (xs.filter p).flatMap f = xs.flatMap f
  | [], _ => rfl
  | x :: xs, h => by
    have ih := flatMap_filter_of_nil fun y hy => h y (List.mem_cons_of_mem _ hy)
    cases hx : p x with
    | true => rw [List.filter_cons_of_pos hx, List.flatMap_cons, List.flatMap_cons, ih]
    | false =>
      rw [List.filter_cons_of_neg (by simp [hx]), List.flatMap_cons, ih,
        h x List.mem_cons_self hx, List.nil_append]

theorem Subperm.nodup {xs ys : List α} (h : xs.Subperm ys) (hys : ys.Nodup) : xs.Nodup := by
  obtain ⟨zs, hperm, hsub⟩ := h
  exact hperm.nodup_iff.mp (hys.sublist hsub)

end Lists

/-! ## §2. The variables of a network -/

/-- The variables of a node and of its network. -/
def Node.claimed (scope : Scope) (n : Node) : List String :=
  n.variables scope ++ n.kind.variables (scope.enter n.name)

theorem Kind.variables_subnet (inner : Scope) (subnet : Subnet) :
    (Kind.subnet subnet).variables inner = subnet.network.variables inner := by
  obtain ⟨inputs, outputs, block, network⟩ := subnet
  rw [Kind.variables]

theorem Graph.variables_eq (scope : Scope) (g : Graph) :
    g.variables scope = g.nodes.flatMap (Node.claimed scope) := by
  obtain ⟨name, nodes, connections, version, error⟩ := g
  rw [Graph.variables]
  show _ = nodes.flatMap _
  induction nodes with
  | nil => rw [Node.variablesAmong, List.flatMap_nil]
  | cons n ns ih =>
    obtain ⟨id, nodeName, kind, dirty, nodeError⟩ := n
    rw [Node.variablesAmong, List.flatMap_cons, ih, Node.claimed, List.append_assoc]

theorem Graph.Emits.nodes_subperm (h : g.Emits b context stage scope roots parts) :
    (parts.map (·.node)).Subperm g.nodes := by
  refine List.subperm_of_subset (List.Nodup.of_map _ h.schedules.nodup) ?_
  intro n hn
  exact Graph.mem_of_node? (h.schedules.found n hn)

/-- Inside subnets there are no output nodes, and so no results. -/
theorem Graph.Emits.results_nested (h : g.Emits b context stage scope roots parts)
    (hdepth : 0 < scope.depth) : (parts.flatMap fun part => b.results stage part.node.kind) = [] := by
  rw [List.flatMap_eq_nil_iff]
  intro part hpart
  have hsupported := h.supported part hpart
  unfold Backend.checkSupported at hsupported
  cases hk : part.node.kind with
  | output target => simp [hk, hdepth] at hsupported
  | _ => rfl

/-! ## §3. What a body declares -/

theorem Site.declaredIn_bindings {s : Site} :
    ∀ {specs : List PortSpec} {bindings : List Statement}, specs.mapM s.bindInput = .ok bindings →
      declaredIn bindings = specs.map fun spec => s.inner.inputVar spec.name
  | [], bindings, h => by
    rw [List.mapM_nil, pure_eq_ok] at h
    rw [← h]
    rfl
  | spec :: specs, bindings, h => by
    rw [List.mapM_cons] at h
    obtain ⟨st, hst, h⟩ := bind_eq_ok.mp h
    obtain ⟨rest, hrest, h⟩ := bind_eq_ok.mp h
    obtain ⟨o, _, rfl⟩ := map_eq_ok.mp hst
    rw [pure_eq_ok] at h
    rw [← h, declaredIn_cons, declaredIn_bindings hrest]
    rfl

theorem Site.declaredIn_outputs {s : Site} :
    ∀ specs : List PortSpec,
      declaredIn (specs.map s.declareOutput) = specs.map fun spec => s.varName spec.name
  | [] => rfl
  | spec :: specs => by
    rw [List.map_cons, declaredIn_cons, declaredIn_outputs specs]
    rfl

/-- In front of its code a subnet declares its own variables. -/
theorem Site.declaredIn_opening {s : Site} {subnet : Subnet} {bindings : List Statement}
    (hk : s.node.kind = .subnet subnet) (h : subnet.inputs.mapM s.bindInput = .ok bindings) :
    declaredIn (s.opening subnet bindings) = s.node.variables s.scope := by
  have hname : s.node.kind.isSubnetInput = false := by
    rw [hk]
    rfl
  have houtputs : declaredIn (subnet.outputs.map s.declareOutput) =
      s.node.outputs.map fun port => s.scope.varName s.node.name port.name := by
    rw [Site.declaredIn_outputs, Node.outputs, hk, Kind.outputs, List.map_map]
    exact List.map_congr_left fun spec _ => Site.variableOf_eq hname spec.name
  have hopener : (s.opener subnet.block).declared = [] := by
    cases subnet.block <;> rfl
  rw [Site.opening, declaredIn_append, declaredIn_append, Site.declaredIn_bindings h, houtputs,
    declaredIn_cons, hopener, declaredIn_nil, List.append_nil, List.append_nil, Node.variables, hk]
  rfl

/-- **What a body declares** are variables of its network, each at most as often as the network
    has it, and the results of its nodes. -/
theorem Graph.Emits.declared :
    ∀ {g : Graph} {scope : Scope} {roots : List NodeId} {parts : List Part},
      g.Emits b context stage scope roots parts →
        (declaredIn (bodyOf stage parts)).Subperm
          ((parts.flatMap fun part => b.results stage part.node.kind) ++ g.variables scope) := by
  intro g
  induction g using Graph.network_induction with
  | step g ih =>
    intro scope roots parts h
    have hpart : ∀ part ∈ parts, (declaredIn (part.statements stage)).Subperm
        (b.results stage part.node.kind ++ part.node.claimed scope) := by
      intro part hpart
      rcases h.cases hpart with ⟨hsubnet, _⟩ | ⟨subnet, _, _, _, hk, _⟩
      · have hsub := (h.leaf hpart hsubnet).2.declares.subperm
        refine hsub.trans ((List.subperm_append_left _).mpr ?_)
        exact (List.sublist_append_left _ _).subperm
      · obtain ⟨output, bindings, inner, _, hbindings, hinner, hstatements⟩ :=
          h.written_subnet hpart hk
        have hnests : subnet.network.Nests g := ⟨part.node, h.node_mem hpart, subnet, hk, rfl⟩
        have hin := ih _ hnests hinner
        rw [hinner.results_nested (Nat.succ_pos _), List.nil_append] at hin
        rw [hstatements, declaredIn_append, declaredIn_append, Site.declaredIn_opening hk hbindings,
          Node.claimed, hk, Kind.variables_subnet]
        simp only [Backend.results, List.nil_append, declaredIn_cons, Statement.declared,
          declaredIn_nil, List.append_nil]
        exact (List.subperm_append_left _).mpr hin
    -- what the parts declare is sorted by results and variables, whatever their order
    rw [bodyOf, declaredIn, List.flatMap_assoc]
    refine (Subperm.flatMap_right hpart).trans ?_
    refine (List.flatMap_append_perm parts _ _).symm.subperm.trans ?_
    refine (List.subperm_append_left _).mpr ?_
    rw [Graph.variables_eq, ← List.flatMap_map]
    exact Subperm.flatMap_left h.nodes_subperm _

/-! ## §4. Names that cannot clash -/

/-- Every variable has the form of a path. -/
def IsPath (name : String) : Prop := ∃ front back, name = "v_" ++ front ++ "_" ++ back

theorem Scope.isPath_varName (scope : Scope) (node output : String) :
    IsPath (scope.varName node output) :=
  ⟨scope.lead ++ node, output, by simp only [varName, String.append_assoc]⟩

theorem Scope.isPath_inputVar (scope : Scope) (input : String) : IsPath (scope.inputVar input) := by
  refine ⟨scope.lead ++ "input", input, ?_⟩
  have hinput : "input_" = "input" ++ "_" := by decide
  simp only [inputVar, hinput, String.append_assoc]

theorem Node.isPath_variables {scope : Scope} {n : Node} {name : String}
    (h : name ∈ n.variables scope) : IsPath name := by
  unfold Node.variables at h
  have houtputs : ∀ name ∈ n.outputs.map fun port => scope.varName n.name port.name,
      IsPath name := by
    intro name hname
    obtain ⟨port, _, rfl⟩ := List.mem_map.mp hname
    exact scope.isPath_varName _ _
  cases hk : n.kind with
  | subnet s =>
    simp only [hk] at h
    rcases List.mem_append.mp h with h | h
    · obtain ⟨spec, _, rfl⟩ := List.mem_map.mp h
      exact Scope.isPath_inputVar _ _
    · exact houtputs name h
  | subnetInput ports => simp [hk] at h
  | _ =>
    simp only [hk] at h
    exact houtputs name h

theorem Graph.isPath_variables :
    ∀ {g : Graph} {scope : Scope} {name : String}, name ∈ g.variables scope → IsPath name := by
  intro g
  induction g using Graph.network_induction with
  | step g ih =>
    intro scope name h
    rw [Graph.variables_eq] at h
    obtain ⟨n, hn, h⟩ := List.mem_flatMap.mp h
    rcases List.mem_append.mp h with h | h
    · exact Node.isPath_variables h
    · cases hk : n.kind with
      | subnet s =>
        rw [hk, Kind.variables_subnet] at h
        exact ih _ ⟨n, hn, s, hk, rfl⟩ h
      | _ => simp [hk, Kind.variables] at h

/-- A path begins with `v_` and has an underscore behind that. -/
theorem IsPath.toList {name : String} (h : IsPath name) :
    ∃ rest, name.toList = 'v' :: '_' :: rest ∧ '_' ∈ rest := by
  obtain ⟨front, back, rfl⟩ := h
  refine ⟨front.toList ++ '_' :: back.toList, ?_, by simp⟩
  simp

theorem IsPath.ne_normal {name : String} (h : IsPath name) : name ≠ "v_normal" := by
  rintro rfl
  obtain ⟨rest, heq, hmem⟩ := h.toList
  have hrest : rest = ['n', 'o', 'r', 'm', 'a', 'l'] := by simpa using heq.symm
  rw [hrest] at hmem
  exact absurd hmem (by decide)

/-- A result is told apart from every variable and varying by its first letter. -/
theorem Backend.results_spec {kind : Kind} {name : String} (h : name ∈ b.results stage kind) :
    b.results stage kind = [name] ∧ ¬IsPath name ∧ ¬Reserved name ∧ name ≠ "v_normal" := by
  have hname : ∀ c rest, name.toList = c :: rest → c ≠ 'v' →
      ¬IsPath name ∧ ¬Reserved name ∧ name ≠ "v_normal" := by
    intro c rest hlist hc
    refine ⟨?_, ?_, ?_⟩
    · intro hpath
      obtain ⟨_, heq, _⟩ := hpath.toList
      rw [hlist, List.cons.injEq] at heq
      exact hc heq.1
    · rintro ⟨start, hmem, hprefix⟩
      rw [hlist] at hprefix
      rcases List.mem_cons.mp hmem with rfl | hmem
      · exact hc (List.cons_prefix_cons.mp hprefix).1.symm
      · rw [List.mem_singleton] at hmem
        subst hmem
        exact hc (List.cons_prefix_cons.mp hprefix).1.symm
    · rintro rfl
      rw [show "v_normal".toList = 'v' :: "_normal".toList by decide, List.cons.injEq] at hlist
      exact hc hlist.1.symm
  -- no result begins with a v, as all paths, reserved names and the normal do
  cases kind with
  | output target =>
    cases b with
    | material =>
      cases stage <;> simp only [Backend.results, List.mem_singleton] at h <;> subst h <;>
        exact ⟨rfl, hname _ _ rfl (by decide)⟩
    | particles table => simp [Backend.results] at h
    | points => simp [Backend.results] at h
  | _ => simp [Backend.results] at h

/-! ## §5. Whole graphs -/

/-- Whether a node is an output node for a target. -/
def Node.isOutputFor (target : Target) (n : Node) : Bool :=
  match n.kind with
  | .output t => t == target
  | _ => false

theorem Graph.outputNode_eq (g : Graph) (target : Target) :
    g.outputNode target =
      match g.nodes.filter (Node.isOutputFor target) with
      | [] => .error (.missingOutputNode g.name)
      | [n] => .ok n.id
      | several => .error (.multipleOutputNodes g.name several.length) :=
  rfl

/-- The output node is the only one for its target. -/
theorem Graph.outputNode_spec {target : Target} {id : NodeId} (h : g.outputNode target = .ok id) :
    ∃ n, g.nodes.filter (Node.isOutputFor target) = [n] ∧ n.id = id := by
  rw [Graph.outputNode_eq] at h
  split at h
  next => cases h
  next n hn =>
    cases h
    exact ⟨n, hn, rfl⟩
  next => cases h

/-- A graph has the results of its output node and no others. -/
theorem Graph.Emits.results_subperm (h : g.Emits b context stage scope roots parts) {n : Node}
    (hn : g.nodes.filter (Node.isOutputFor b.target) = [n]) :
    (parts.flatMap fun part => b.results stage part.node.kind).Subperm
      (b.results stage n.kind) := by
  have hother : ∀ m ∈ parts.map (·.node), Node.isOutputFor b.target m = false →
      b.results stage m.kind = [] := by
    intro m hm hnot
    obtain ⟨part, hpart, rfl⟩ := List.mem_map.mp hm
    have hsupported := h.supported part hpart
    unfold Backend.checkSupported at hsupported
    cases hk : part.node.kind with
    | output target =>
      -- a backend supports output nodes for its own target only
      have hne : b.supports (.output target) = false := by
        simp only [Node.isOutputFor, hk] at hnot
        cases b <;> exact hnot
      simp [hk, hne] at hsupported
    | _ => rfl
  have hall : (parts.flatMap fun part => b.results stage part.node.kind) =
      ((parts.map (·.node)).filter (Node.isOutputFor b.target)).flatMap
        fun n => b.results stage n.kind := by
    rw [flatMap_filter_of_nil hother, List.flatMap_map]
  have hone := h.nodes_subperm.filter (Node.isOutputFor b.target)
  rw [hn] at hone
  rw [hall]
  simpa using Subperm.flatMap_left hone fun n => b.results stage n.kind

/-- What the body of a stage declares is declared while that stage is built. -/
theorem Backend.Builds.declaredIn_body {output : NodeId} {builds : List (Stage × List Part)}
    {p : Progress} (h : b.Builds g context output builds p) (hstage : stage ∈ b.stages) :
    ∃ parts, g.Emits b context stage (Scope.root g.name) (output :: b.sideRoots g) parts ∧
      declaredIn (p.statements stage) = declaredIn (bodyOf stage parts) := by
  obtain ⟨parts, before, after, hmem, hbody, hrelays⟩ := h.body_between hstage
  refine ⟨parts, h.emits _ hmem, ?_⟩
  have hnone : ∀ body : List Statement, (∀ st ∈ body, st ∈ before ++ after) →
      declaredIn body = [] := by
    intro body hsub
    rw [declaredIn, List.flatMap_eq_nil_iff]
    intro st hst
    obtain ⟨name, rfl⟩ := hrelays st (hsub st hst)
    rfl
  rw [hbody, declaredIn_append, declaredIn_append,
    hnone before fun st hst => List.mem_append_left _ hst,
    hnone after fun st hst => List.mem_append_right _ hst, List.nil_append, List.append_nil]

/-- What the variables of a body come to, once the names of the graph were checked. -/
theorem Backend.Builds.distinct {output : NodeId} {builds : List (Stage × List Part)}
    {p : Progress} (h : b.Builds g context output builds p) (hstage : stage ∈ b.stages) :
    (declaredIn (p.statements stage)).Nodup ∧
      ∀ name ∈ declaredIn (p.statements stage), ¬Reserved name ∧ name ≠ "v_normal" := by
  obtain ⟨parts, hparts, hdeclared⟩ := h.declaredIn_body hstage
  obtain ⟨n, hn, _⟩ := Graph.outputNode_spec h.found
  obtain ⟨hnodup, hfree⟩ := (g.checkVariables_iff _).mp h.named
  have hsub := hparts.declared.trans
    ((List.subperm_append_right _).mpr (hparts.results_subperm hn))
  rw [hdeclared]
  constructor
  -- one node of the stage at most has a result, and results are no variables
  · refine Subperm.nodup hsub (List.nodup_append.mpr ⟨?_, hnodup, ?_⟩)
    · cases hresults : b.results stage n.kind with
      | nil => exact List.nodup_nil
      | cons name rest =>
        have hmem : name ∈ b.results stage n.kind := by
          rw [hresults]
          exact List.mem_cons_self
        rw [← hresults, (Backend.results_spec hmem).1]
        exact List.nodup_singleton name
    · rintro name hname _ hvariable rfl
      exact (Backend.results_spec hname).2.1 (Graph.isPath_variables hvariable)
  · intro name hname
    rcases List.mem_append.mp (hsub.subset hname) with hname | hname
    · exact (Backend.results_spec hname).2.2
    · exact ⟨hfree name hname, (Graph.isPath_variables hname).ne_normal⟩

/-- A compilation that went well had a pass that went well, of the backend that it leaves. -/
theorem Backend.pass_of_compile {program : Program}
    (h : (b.compile g context).2 = .ok program) :
    ∃ p, (b.compile g context).1.pass g context = .ok p := by
  unfold Backend.compile at h ⊢
  split at h
  · obtain ⟨p, hp, _⟩ := bind_eq_ok.mp h
    exact ⟨p, hp⟩
  next table =>
    simp only at h ⊢
    split at h
    next => cases h
    next table' htable =>
      obtain ⟨p, hp, _⟩ := bind_eq_ok.mp h
      exact ⟨p, by simpa [htable] using hp⟩
  · obtain ⟨p, hp, _⟩ := bind_eq_ok.mp h
    exact ⟨p, hp⟩

/-- **No two values share a variable.**  A graph passes the check exactly when the variables of
    its whole hierarchy differ and none is reserved for a varying.  When it compiles, no stage
    declares a variable twice, at whatever depth, and none has the name of a varying. -/
theorem Backend.declares_once (b : Backend) (g : Graph) (context : Context) :
    (∀ scope, g.checkVariables scope = .ok () ↔
      (g.variables scope).Nodup ∧ ∀ name ∈ g.variables scope, ¬Reserved name) ∧
    ∀ program, (b.compile g context).2 = .ok program →
      ∃ p, (b.compile g context).1.pass g context = .ok p ∧
        ∀ stage ∈ (b.compile g context).1.stages,
          (declaredIn (p.statements stage)).Nodup ∧
            ∀ name ∈ declaredIn (p.statements stage), ¬Reserved name ∧ name ≠ "v_normal" := by
  refine ⟨fun scope => g.checkVariables_iff scope, fun program h => ?_⟩
  obtain ⟨p, hp⟩ := Backend.pass_of_compile h
  obtain ⟨output, builds, hbuilds⟩ := Backend.builds_of_pass hp
  exact ⟨p, hp, fun stage hstage => hbuilds.distinct hstage⟩

/-- A subnet that negates a number. -/
def negation : Subnet where
  inputs := [⟨"x", .float⟩]
  outputs := [⟨"y", .float⟩]
  block := .always
  network :=
    { Graph.empty "negation" with
      nodes :=
        [.make ⟨10⟩ "input" (.subnetInput [⟨"x", .float⟩]),
         .make ⟨11⟩ "output" (.subnetOutput [⟨"y", .float⟩]),
         .make ⟨12⟩ "negate" (.math .negate .float)]
      connections :=
        [⟨⟨20⟩, ⟨10⟩, "x", ⟨12⟩, "x"⟩, ⟨⟨21⟩, ⟨12⟩, "result", ⟨11⟩, "y"⟩]
      version := 5 }

/-- Points whose color is a negated constant. -/
def shading : Graph :=
  { Graph.empty "shading" with
    nodes :=
      [.make ⟨1⟩ "level" (.constant (.float .one)),
       .make ⟨2⟩ "flip" (.subnet negation),
       .make ⟨3⟩ "out" (.output .points)]
    connections :=
      [⟨⟨4⟩, ⟨1⟩, "value", ⟨2⟩, "x"⟩, ⟨⟨5⟩, ⟨2⟩, "y", ⟨3⟩, "color"⟩]
    version := 5 }

theorem shading_compiles : ∃ program, (Backend.points.compile shading {}).2 = .ok program := by
  have hpass : (Backend.points.pass shading {}).map (fun _ => ()) = .ok () := by decide +kernel
  obtain ⟨p, hp, _⟩ := map_eq_ok.mp hpass
  obtain ⟨program, hcompile, -⟩ := Backend.compile_points hp
  exact ⟨.points program, congrArg Prod.snd hcompile⟩

/-- The constant, both sides of the subnet and what is in it have a variable each. -/
theorem shading_declares_once :
    ∃ program p, (Backend.points.compile shading {}).2 = .ok program ∧
      Backend.points.pass shading {} = .ok p ∧
      declaredIn (p.statements .point) =
        ["v_level_value", "v_flip_input_x", "v_flip_y", "v_flip_negate_result"] ∧
      (declaredIn (p.statements .point)).Nodup := by
  have hdeclared : (Backend.points.pass shading {}).map
      (fun p => declaredIn (p.statements .point)) = .ok
        ["v_level_value", "v_flip_input_x", "v_flip_y", "v_flip_negate_result"] := by
    decide +kernel
  obtain ⟨program, hprogram⟩ := shading_compiles
  obtain ⟨p, hp, hdistinct⟩ :=
    (Backend.declares_once .points shading {}).2 program hprogram
  have hpass : Backend.points.pass shading {} = .ok p := hp
  rw [hpass] at hdeclared
  exact ⟨program, p, hprogram, hpass, Except.ok.inj hdeclared,
    (hdistinct .point (by decide)).1⟩

end ShaderFlow
