/-
  ShaderFlow.Proofs.Screening — the nodes that a compilation lets through.

  The nodes of a graph are looked at before anything is built, used or not.  The network of a
  subnet is looked at node by node as it is emitted, so a node of it is refused only where some
  stage uses it: a node that no output of the subnet depends on may be of any kind.

  Main definitions:
    * `Graph.Uses`     — the nodes of a network that a stage uses, by what feeds what;
    * `Graph.Involves` — the same through every subnet, with the scopes where they stand;
    * `Graph.Holds`    — all nodes of a hierarchy with their scopes, used or not.

  Main statements:
    * `Backend.mem_stageOrder_iff`  — the order of a stage lists the nodes that it uses;
    * `Backend.screens_of_compile`  — what is used at any depth is of a kind that may stand there;
    * `strayed_accepted`            — what is not used inside a subnet need not be.
-/

import ShaderFlow.Proofs.Declarations
import ShaderFlow.Proofs.Sites

namespace ShaderFlow

variable {b left : Backend} {context : Context} {stage : Stage} {scope : Scope}
  {roots : List NodeId} {g : Graph} {n : Node} {program : Program}

/-! ## §1. What a stage uses of a network -/

/-- The nodes that a stage uses of a network: the roots that it concerns, and what feeds the
    inputs that it follows. -/
inductive Graph.Uses (b : Backend) (stage : Stage) (roots : List NodeId) (g : Graph) :
    Node → Prop where
  | root {root : NodeId} {n : Node} (hroot : root ∈ roots)
      (hconcerns : b.concerns g stage root = true) (hn : g.node? root = some n) :
      Graph.Uses b stage roots g n
  | feed {n source : Node} {input : String} {c : Connection} (h : Graph.Uses b stage roots g n)
      (hinput : input ∈ n.inputNames) (hallow : (b.follows stage n).allows input = true)
      (hc : g.inputSource? n.id input = some c) (hsource : g.node? c.source = some source) :
      Graph.Uses b stage roots g source

variable {path : String} {order : List Node}

/-- What a stage uses is in its order, since the order is closed under what feeds it. -/
theorem Graph.Uses.mem_order (horder : b.stageOrder g path stage roots = .ok order)
    (h : g.Uses b stage roots n) : n ∈ order := by
  have hschedules := Backend.schedules_of_stageOrder horder
  induction h with
  | @root root n hroot hconcerns hn =>
    obtain ⟨m, hm, hfound⟩ := hschedules.started root (List.mem_filter.mpr ⟨hroot, hconcerns⟩)
    rw [hn] at hfound
    rw [Option.some.inj hfound]
    exact hm
  | feed _ hinput hallow hc hsource ih =>
    obtain ⟨front, back, hsplit⟩ := List.append_of_mem ih
    obtain ⟨m, hm, hfound⟩ := hschedules.behind front _ back hsplit _ hinput hallow _ hc
    rw [hsource] at hfound
    rw [Option.some.inj hfound, hsplit]
    exact List.mem_append_left _ hm

/-- And nothing else is: a node is listed for a node behind it, or as a root. -/
theorem Backend.uses_of_mem_order (horder : b.stageOrder g path stage roots = .ok order) :
    ∀ {back front : List Node}, order = front ++ n :: back → g.Uses b stage roots n := by
  have hschedules := Backend.schedules_of_stageOrder horder
  intro back
  -- the last nodes of the order are roots, so the induction goes from the back to the front
  induction hlength : back.length using Nat.strongRecOn generalizing n back with
  | ind length ih =>
    intro front hsplit
    have hn : n ∈ order := by
      rw [hsplit]
      exact List.mem_append_right _ List.mem_cons_self
    rcases hschedules.needed n hn with hroot | ⟨m, hm, input, hinput, hallow, c, hc, hfeeds⟩
    · obtain ⟨hroot, hconcerns⟩ := List.mem_filter.mp hroot
      exact .root hroot hconcerns (hschedules.found n hn)
    · obtain ⟨before, after, hbehind⟩ := List.append_of_mem hm
      obtain ⟨source, hsource, hfound⟩ :=
        hschedules.behind before m after hbehind input hinput hallow c hc
      rw [hfeeds] at hfound
      obtain rfl := Option.some.inj hfound
      obtain ⟨first, middle, rfl⟩ := List.append_of_mem hsource
      -- a node is listed once, so the node that it feeds is behind this very place
      have hsame : front ++ n :: back = first ++ n :: (middle ++ m :: after) := by
        rw [← hsplit, hbehind, List.append_assoc, List.cons_append]
      have hnodup : (n :: (front ++ back)).Nodup := by
        rw [← List.nodup_middle, ← hsplit]
        exact List.Nodup.of_map _ hschedules.nodup
      have honce : n ∉ front ++ back := (List.nodup_cons.mp hnodup).1
      rw [List.mem_append, not_or] at honce
      have hback : back = middle ++ m :: after :=
        ((List.append_cons_inj_of_notMem honce.1 honce.2).mp hsame).2.2
      have hshorter : after.length < length := by
        rw [← hlength, hback, List.length_append, List.length_cons]
        omega
      exact .feed (ih after.length hshorter rfl hbehind) hinput hallow hc hfeeds

/-- **The order of a stage lists the nodes that the stage uses**, and no others. -/
theorem Backend.mem_stageOrder_iff (horder : b.stageOrder g path stage roots = .ok order) :
    n ∈ order ↔ g.Uses b stage roots n := by
  constructor
  · intro hn
    obtain ⟨front, back, hsplit⟩ := List.append_of_mem hn
    exact Backend.uses_of_mem_order horder hsplit
  · exact Graph.Uses.mem_order horder

/-- A node that a stage uses has a part. -/
theorem Graph.Emits.exists_part_of_uses {parts : List Part}
    (h : g.Emits b context stage scope roots parts) (hn : g.Uses b stage roots n) :
    ∃ part ∈ parts, part.node = n :=
  List.mem_map.mp (hn.mem_order h.order)

/-- And no others have: the nodes that were emitted are the ones that the stage uses. -/
theorem Graph.Emits.uses {parts : List Part} {part : Part}
    (h : g.Emits b context stage scope roots parts) (hpart : part ∈ parts) :
    g.Uses b stage roots part.node :=
  (Backend.mem_stageOrder_iff h.order).mp (List.mem_map_of_mem hpart)

/-! ## §2. What is refused where -/

/-- **Where a node may stand**: its kind is one that the backend knows, and inside a subnet it
    is no output node. -/
theorem Backend.checkSupported_eq_ok :
    b.checkSupported scope n = .ok () ↔
      b.supports n.kind = true ∧ (0 < scope.depth → ∀ target, n.kind ≠ .output target) := by
  unfold checkSupported
  cases hk : n.kind with
  | output target =>
    by_cases hdepth : 0 < scope.depth
    · simp [hdepth]
    · simp [hdepth]
  | _ => simp

/-- The nodes that a stage uses at every depth: those that it uses of a network, and inside the
    subnets among them those that it uses there, from the node that collects the outputs and
    from the nodes that act besides. -/
inductive Graph.Involves (b : Backend) (stage : Stage) :
    Scope → List NodeId → Graph → Scope → Node → Prop where
  | here {scope : Scope} {roots : List NodeId} {g : Graph} {n : Node}
      (hn : g.Uses b stage roots n) : Graph.Involves b stage scope roots g scope n
  | inside {scope inner : Scope} {roots : List NodeId} {g : Graph} {n output m : Node}
      {subnet : Subnet} (hn : g.Uses b stage roots n) (hk : n.kind = .subnet subnet)
      (ho : subnet.outputNode? = some output)
      (hm : Graph.Involves b stage (scope.enter n.name)
        (output.id :: b.sideRoots subnet.network) subnet.network inner m) :
      Graph.Involves b stage scope roots g inner m

/-- What is used of a network that was emitted, at any depth, may stand where it does. -/
theorem Graph.Emits.screens {inner : Scope} {parts : List Part}
    (h : g.Emits b context stage scope roots parts)
    (hn : g.Involves b stage scope roots inner n) : b.checkSupported inner n = .ok () := by
  induction hn generalizing parts with
  | here hn =>
    obtain ⟨part, hpart, rfl⟩ := h.exists_part_of_uses hn
    exact h.supported part hpart
  | inside hn hk ho _ ih =>
    obtain ⟨part, hpart, rfl⟩ := h.exists_part_of_uses hn
    obtain ⟨output, _, parts', houtput, _, hinner, _, _⟩ := h.subnet hpart hk
    rw [ho] at houtput
    obtain rfl := Option.some.inj houtput
    exact ih hinner

/-! ## §3. Whole compilations -/

/-- Before anything is built, every node of a graph is looked at. -/
theorem Backend.checkNodes_eq_ok :
    b.checkNodes g scope = .ok () ↔ ∀ n ∈ g.nodes, b.supports n.kind = true := by
  unfold checkNodes
  constructor
  · intro h n hn
    split at h
    next => cases h
    next hnone => simpa using List.find?_eq_none.mp hnone n hn
  · intro h
    have hnone : (g.nodes.find? fun n => !b.supports n.kind) = none := by
      rw [List.find?_eq_none]
      intro n hn
      simpa using h n hn
    rw [hnone]

/-- **What a compilation lets through.**  Every node of the graph is of a kind that the backend
    knows, whether it is used or not.  What some stage uses at any depth of the subnets that it
    uses is of such a kind, too, and no output node stands among it inside a subnet. -/
theorem Backend.screens_of_compile (h : b.compile g context = (left, .ok program)) :
    (∀ n ∈ g.nodes, left.checkSupported (Scope.root g.name) n = .ok ()) ∧
      ∃ output, g.outputNode left.target = .ok output ∧ ∀ stage ∈ left.stages, ∀ inner n,
        g.Involves left stage (Scope.root g.name) (output :: left.sideRoots g) inner n →
          left.checkSupported inner n = .ok () ∧ left.supports n.kind = true ∧
            (0 < inner.depth → ∀ target, n.kind ≠ .output target) := by
  have hpass := Backend.pass_of_compile (congrArg Prod.snd h)
  rw [h] at hpass
  obtain ⟨p, hp⟩ := hpass
  obtain ⟨_, _, hrest⟩ := bind_eq_ok.mp hp
  obtain ⟨_, hchecked, _⟩ := bind_eq_ok.mp hrest
  obtain ⟨output, builds, hbuilds⟩ := Backend.builds_of_pass hp
  refine ⟨fun n hn => ?_, output, hbuilds.found, fun stage hstage inner n hn => ?_⟩
  · rw [Backend.checkSupported_eq_ok]
    refine ⟨Backend.checkNodes_eq_ok.mp hchecked n hn, fun hdepth => ?_⟩
    exact absurd hdepth (Nat.lt_irrefl 0)
  · rw [← hbuilds.stages] at hstage
    obtain ⟨build, hbuild, rfl⟩ := List.mem_map.mp hstage
    have hallowed := (hbuilds.emits build hbuild).screens hn
    exact ⟨hallowed, Backend.checkSupported_eq_ok.mp hallowed⟩

/-- What negates the color of points is used inside its subnet, and may stand there. -/
theorem shading_screened :
    ∃ program, Backend.points.compile shading {} = (.points, .ok program) ∧
      ∃ n, shading.Involves .points .point (Scope.root "shading") [⟨3⟩]
          ((Scope.root "shading").enter "flip") n ∧
        n.kind = .math .negate .float ∧ Backend.points.supports n.kind = true := by
  have hpass : (Backend.points.pass shading {}).map (fun _ => ()) = .ok () := by decide +kernel
  obtain ⟨p, hp, _⟩ := map_eq_ok.mp hpass
  obtain ⟨program, hcompile, -⟩ := Backend.compile_points hp
  obtain ⟨_, output, houtput, hscreens⟩ := Backend.screens_of_compile hcompile
  obtain rfl : (⟨3⟩ : NodeId) = output := Except.ok.inj houtput
  -- the output node uses the subnet, and inside the collecting node uses the negation
  have hcolor : "color" ∈ (Node.make ⟨3⟩ "out" (.output .points)).inputNames := by decide
  have hflip : shading.Uses .points .point [⟨3⟩] (.make ⟨2⟩ "flip" (.subnet negation)) :=
    .feed (.root List.mem_cons_self rfl rfl) hcolor rfl rfl rfl
  have hy : "y" ∈ (Node.make ⟨11⟩ "output" (.subnetOutput [⟨"y", .float⟩])).inputNames := by
    decide
  have hnegate : negation.network.Uses .points .point [⟨11⟩]
      (.make ⟨12⟩ "negate" (.math .negate .float)) :=
    .feed (.root List.mem_cons_self rfl rfl) hy rfl rfl rfl
  have hinvolved : shading.Involves .points .point (Scope.root "shading") [⟨3⟩]
      ((Scope.root "shading").enter "flip") (.make ⟨12⟩ "negate" (.math .negate .float)) :=
    .inside hflip rfl rfl (.here hnegate)
  exact ⟨_, hcompile, _, hinvolved, rfl, (hscreens .point (by decide) _ _ hinvolved).2.1⟩

/-! ## §4. What is not looked at -/

/-- The nodes of a hierarchy with the scopes where they stand, used or not. -/
inductive Graph.Holds : Scope → Graph → Scope → Node → Prop where
  | here {scope : Scope} {g : Graph} {n : Node} (hn : n ∈ g.nodes) : Graph.Holds scope g scope n
  | inside {scope inner : Scope} {g : Graph} {n m : Node} {subnet : Subnet} (hn : n ∈ g.nodes)
      (hk : n.kind = .subnet subnet)
      (hm : Graph.Holds (scope.enter n.name) subnet.network inner m) :
      Graph.Holds scope g inner m

/-- A subnet that hands out a constant and reads a varying that nothing depends on. -/
def strayReader : Subnet where
  inputs := []
  outputs := [⟨"y", .vector3⟩]
  block := .always
  network :=
    { Graph.empty "s" with
      nodes :=
        [.make ⟨10⟩ "subnet_output" (.subnetOutput [⟨"y", .vector3⟩]),
         .make ⟨11⟩ "one" (.constant (.vector3 .one .one .one)),
         .make ⟨12⟩ "read" (.varyingRead "height" .float)]
      connections := [⟨⟨20⟩, ⟨11⟩, "value", ⟨10⟩, "y"⟩]
      version := 4 }

/-- Points placed by that subnet. -/
def strayed : Graph :=
  { Graph.empty "g" with
    nodes := [.make ⟨1⟩ "out" (.output .points), .make ⟨2⟩ "s" (.subnet strayReader)]
    connections := [⟨⟨3⟩, ⟨2⟩, "y", ⟨1⟩, "position"⟩]
    version := 3 }

/-- **A node that is not used is let through** inside a subnet: points know no varyings, but the
    subnet is emitted and its network holds one that would be refused there. -/
theorem strayed_accepted :
    ∃ program, Backend.points.compile strayed {} = (.points, .ok program) ∧
      ∃ inner n, strayed.Involves .points .point (Scope.root "g") [⟨1⟩] (Scope.root "g")
          (.make ⟨2⟩ "s" (.subnet strayReader)) ∧
        strayReader.network.Holds ((Scope.root "g").enter "s") inner n ∧
        Backend.points.checkSupported inner n =
          .error (.unsupportedNode ⟨⟨12⟩, "/g/s/read"⟩ .points) := by
  have hpass : (Backend.points.pass strayed {}).map (fun _ => ()) = .ok () := by decide +kernel
  obtain ⟨p, hp, _⟩ := map_eq_ok.mp hpass
  obtain ⟨program, hcompile, -⟩ := Backend.compile_points hp
  have hposition : "position" ∈ (Node.make ⟨1⟩ "out" (.output .points)).inputNames := by decide
  have hused : strayed.Uses .points .point [⟨1⟩] (.make ⟨2⟩ "s" (.subnet strayReader)) :=
    .feed (.root List.mem_cons_self rfl rfl) hposition rfl rfl rfl
  have hread : .make ⟨12⟩ "read" (.varyingRead "height" .float) ∈ strayReader.network.nodes :=
    List.mem_cons_of_mem _ (List.mem_cons_of_mem _ List.mem_cons_self)
  refine ⟨_, hcompile, _, _, .here hused, .here hread, ?_⟩
  decide +kernel

end ShaderFlow
