/-
  ShaderFlow.Proofs.Pruning — nodes that nothing depends on.

  Stages are built from the output node and the nodes that act besides it, so a node that none
  of them depends on is not emitted.  Yet it may show: which outputs of a node are used is asked
  of the whole network, and a value is declared for uses that are not emitted themselves.  Where
  another node has the same uses, the program is the same without the node.

  Main definitions:
    * `Backend.Serves`      — the nodes that a pass depends on, through any inputs;
    * `Graph.Kept`          — the nodes that are left as they are, each matched with itself;
    * `Backend.DoesWithout` — whether what is asked of the whole graph is the same without a node.

  Main statements:
    * `Graph.pairing_remove`   — what serves matches itself in the graph without what does not;
    * `Backend.compile_remove` — a graph compiles alike without a node that it does without;
    * `idling_timed`           — a node that serves nothing can make a program depend on time.
-/

import ShaderFlow.Proofs.Editing
import ShaderFlow.Proofs.Preservation
import ShaderFlow.Proofs.Simulation

namespace ShaderFlow

open Relation

variable {g : Graph} {dead : NodeId} {n m : Node} {roots : List NodeId} {b left : Backend}
  {context : Context}

/-! ## §1. A graph without one of its nodes -/

theorem find?_filter_of_found {α : Type} {p q : α → Bool} {l : List α}
    (h : ∀ a, l.find? q = some a → p a = true) : (l.filter p).find? q = l.find? q := by
  induction l with
  | nil => rfl
  | cons a l ih =>
    rw [List.find?_cons] at h
    rw [List.filter_cons, List.find?_cons]
    cases hq : q a with
    | true =>
      rw [hq] at h
      rw [h a rfl, if_pos rfl, List.find?_cons, hq]
    | false =>
      rw [hq] at h
      split
      · rw [List.find?_cons, hq]
        exact ih h
      · exact ih h

namespace Graph

theorem name_remove (g : Graph) (dead : NodeId) : (g.remove dead).2.name = g.name := by
  unfold remove
  split <;> rfl

theorem nodes_remove (hn : g.node? dead = some n) :
    (g.remove dead).2.nodes = g.nodes.filter (·.id != dead) := by
  unfold remove
  rw [hn]

theorem connections_remove (g : Graph) (dead : NodeId) :
    (g.remove dead).2.connections = g.connections.filter (!·.involves dead) := by
  unfold remove
  split <;> rfl

/-- An input is fed as before if the node had no part in it. -/
theorem inputSource?_remove {target : NodeId} {input : String}
    (h : ∀ c, g.inputSource? target input = some c → c.involves dead = false) :
    (g.remove dead).2.inputSource? target input = g.inputSource? target input := by
  unfold inputSource? at h ⊢
  rw [connections_remove]
  refine find?_filter_of_found fun c hc => ?_
  rw [h c hc]
  rfl

/-- An output node for a target stays the only one. -/
theorem outputNode_remove {target : Target} {output : NodeId} (hn : g.node? dead = some n)
    (h : g.outputNode target = .ok output) (hne : output ≠ dead) :
    (g.remove dead).2.outputNode target = .ok output := by
  obtain ⟨o, ho, rfl⟩ := Graph.outputNode_spec h
  have honly : (g.remove dead).2.nodes.filter (Node.isOutputFor target) = [o] := by
    rw [nodes_remove hn, List.filter_comm, ho, List.filter_cons_of_pos (by simpa using hne),
      List.filter_nil]
  rw [outputNode_eq, honly]

end Graph

/-! ## §2. Nodes that serve roots -/

/-- Whether roots depend on a node, through any inputs. -/
def Graph.Serves (g : Graph) (roots : List NodeId) (n : Node) : Prop :=
  ∃ root ∈ roots, ∃ m, g.node? root = some m ∧ ReflTransGen g.Needs m n

namespace Graph.Serves

theorem root {root : NodeId} (hroot : root ∈ roots) (hn : g.node? root = some n) :
    g.Serves roots n :=
  ⟨root, hroot, n, hn, .refl⟩

theorem feed (h : g.Serves roots n) (hneeds : g.Needs n m) : g.Serves roots m := by
  obtain ⟨root, hroot, r, hr, hpath⟩ := h
  exact ⟨root, hroot, r, hr, hpath.tail hneeds⟩

/-- It is the first node of its identity. -/
theorem node?_eq (h : g.Serves roots n) : g.node? n.id = some n := by
  obtain ⟨root, _, r, hr, hpath⟩ := h
  rcases ReflTransGen.cases_tail hpath with rfl | ⟨_, _, _, _, c, _, hn⟩
  · rw [Graph.id_of_node? hr]
    exact hr
  · rw [Graph.id_of_node? hn]
    exact hn

section Beside

variable (hn : g.node? dead = some n) (hdead : ¬g.Serves roots n)
include hn hdead

theorem id_ne (h : g.Serves roots m) : m.id ≠ dead := by
  rintro rfl
  rw [h.node?_eq] at hn
  obtain rfl := Option.some.inj hn
  exact hdead h

theorem root_ne {root : NodeId} (hroot : root ∈ roots) : root ≠ dead := by
  rintro rfl
  exact hdead (.root hroot hn)

/-- No node that serves is fed by one that does not. -/
theorem source_ne {input : String} {c : Connection} (h : g.Serves roots m)
    (hinput : input ∈ m.inputNames) (hc : g.inputSource? m.id input = some c) :
    c.source ≠ dead := by
  rintro rfl
  exact hdead (h.feed ⟨input, hinput, c, hc, hn⟩)

/-- So it is fed as before where that node is removed. -/
theorem inputSource?_remove {input : String} (h : g.Serves roots m)
    (hinput : input ∈ m.inputNames) :
    (g.remove dead).2.inputSource? m.id input = g.inputSource? m.id input := by
  refine Graph.inputSource?_remove fun c hc => ?_
  have hsource : c.source ≠ dead := h.source_ne hn hdead hinput hc
  have htarget : c.target = m.id := (Graph.ends_of_inputSource? hc).1
  simp [Connection.involves, hsource, htarget, h.id_ne hn hdead]

end Beside

end Graph.Serves

/-- **Whether a pass depends on a node**: the output node or one of the nodes that act besides it
    does, whichever inputs the stages follow. -/
def Backend.Serves (b : Backend) (g : Graph) (n : Node) : Prop :=
  ∃ output, g.outputNode b.target = .ok output ∧ g.Serves (output :: b.sideRoots g) n

/-- A compilation leaves a backend that depends on the same nodes. -/
theorem Backend.serves_compile (b : Backend) (g : Graph) (context : Context) (n : Node) :
    (b.compile g context).1.Serves g n ↔ b.Serves g n := by
  have hroots : (b.compile g context).1.sideRoots g = b.sideRoots g := by
    unfold Backend.compile
    cases b with
    | material | points => rfl
    | particles table =>
      simp only
      split <;> rfl
  unfold Backend.Serves
  rw [Backend.target_compile, hroots]

/-! ## §3. What serves matches itself -/

/-- A node that serves is itself in the graph without a node that does not, and so is whatever
    stands inside subnets. -/
inductive Graph.Kept (g : Graph) (dead : NodeId) (roots : List NodeId) : Matching where
  | top {m : Node} (hm : g.Serves roots m) : Graph.Kept g dead roots g m (g.remove dead).2 m
  | inside (network : Graph) (m : Node) : Graph.Kept g dead roots network m network m

theorem Graph.Kept.cases {h h' : Graph} {m' : Node} (hm : g.Kept dead roots h m h' m') :
    m' = m ∧ ((h = g ∧ h' = (g.remove dead).2 ∧ g.Serves roots m) ∨ h' = h) := by
  cases hm with
  | top hm => exact ⟨rfl, .inl ⟨rfl, rfl, hm⟩⟩
  | inside => exact ⟨rfl, .inr rfl⟩

theorem Kind.Alike.refl {P : Matching} (hP : ∀ network m, P network m network m) (k : Kind) :
    k.Alike id P k := by
  have hfound : ∀ network i, Found id P network network i i := by
    intro network i
    refine ⟨rfl, ?_⟩
    cases network.node? i with
    | none => exact .none
    | some m => exact .some (hP network m)
  cases k with
  | subnet s =>
    refine .subnet ⟨rfl, rfl, rfl, ?_, fun writes input => ?_, fun _ _ => rfl⟩
    · cases s.outputNode? with
      | none => exact .none
      | some o => exact .some ⟨hP s.network o, hfound s.network o.id⟩
    · exact List.forall₂_same.mpr fun i _ => hfound s.network i
  | _ => exact .leaf nofun

section Removal

variable (hn : g.node? dead = some n) (hdead : ¬g.Serves roots n)

/-- An identity that stands for a node that serves, or for none, still does. -/
theorem Graph.found_remove {i : NodeId} (hne : i ≠ dead)
    (hserves : ∀ m, g.node? i = some m → g.Serves roots m) :
    Found id (g.Kept dead roots) g (g.remove dead).2 i i := by
  refine ⟨rfl, ?_⟩
  rw [Graph.node?_remove hne]
  cases hm : g.node? i with
  | none => exact .none
  | some m => exact .some (.top (hserves m hm))

include hn hdead

theorem Graph.found_remove_of_mem {root : NodeId} (hroot : root ∈ roots) :
    Found id (g.Kept dead roots) g (g.remove dead).2 root root :=
  Graph.found_remove (Graph.Serves.root_ne hn hdead hroot) fun _ hm => .root hroot hm

/-- **What serves matches itself** in the graph without a node that does not. -/
theorem Graph.pairing_remove : Pairing id (g.Kept dead roots) where
  injective := Function.injective_id
  id := fun h => by rw [h.cases.1]; rfl
  name := fun h => by rw [h.cases.1]
  kind := fun h => by
    rw [h.cases.1]
    exact .refl .inside _
  feed := by
    intro network m network' m' h input hinput
    obtain ⟨rfl, ⟨rfl, rfl, hm⟩ | rfl⟩ := h.cases
    · rw [hm.inputSource?_remove hn hdead hinput]
      cases hc : network.inputSource? m'.id input with
      | none => exact .none
      | some c =>
        refine .some ⟨rfl, Graph.found_remove (hm.source_ne hn hdead hinput hc) fun s hs => ?_⟩
        exact hm.feed ⟨input, hinput, c, hc, hs⟩
    · cases network'.inputSource? m'.id input with
      | none => exact .none
      | some c =>
        refine .some ⟨rfl, rfl, ?_⟩
        cases network'.node? c.source with
        | none => exact .none
        | some s => exact .some (.inside network' s)

/-- A node acts as before if it serves whenever it acts. -/
theorem Node.acts_remove {writes : Kind → Bool} {input : String}
    (hserves : m.acts writes input g = true → g.Serves roots m)
    (hinput : writes m.kind = true → input ∈ m.inputNames) :
    m.acts writes input (g.remove dead).2 = m.acts writes input g := by
  by_cases hsubnet : ∃ s, m.kind = .subnet s
  · obtain ⟨s, hk⟩ := hsubnet
    unfold Node.acts
    rw [hk]
  · have hleaf : ∀ s, m.kind ≠ .subnet s := fun s hk => hsubnet ⟨s, hk⟩
    rw [Node.acts_of_leaf hleaf] at hserves ⊢
    rw [Node.acts_of_leaf hleaf]
    cases hwrites : writes m.kind with
    | false => rfl
    | true =>
      rw [hwrites, Bool.true_and] at hserves
      cases hc : g.inputSource? m.id input with
      | none =>
        have hnone : (g.remove dead).2.inputSource? m.id input = g.inputSource? m.id input :=
          Graph.inputSource?_remove fun c hsome => by rw [hc] at hsome; cases hsome
        rw [hnone, hc]
      | some c =>
        have hm : g.Serves roots m := hserves (by rw [hc]; rfl)
        rw [hm.inputSource?_remove hn hdead (hinput hwrites), hc]

/-- The nodes that act by themselves are the same if they are among the roots. -/
theorem Graph.sideRoots_remove {writes : Kind → Bool} {input : String}
    (hids : (g.nodes.map (·.id)).Nodup) (hroots : g.sideRoots writes input ⊆ roots)
    (hinput : ∀ k, writes k = true → input ∈ k.inputs.map (·.name)) :
    (g.remove dead).2.sideRoots writes input = g.sideRoots writes input := by
  rw [Graph.sideRoots_eq, Graph.sideRoots_eq, Graph.nodes_remove hn, List.filter_filter]
  refine congrArg _ (List.filter_congr fun m hm => ?_)
  have hserves : m.acts writes input g = true → g.Serves roots m := fun hacts =>
    .root (hroots (Graph.mem_sideRoots.mpr ⟨m, hm, hacts, rfl⟩)) (Graph.node?_of_mem hids hm)
  rw [Node.acts_remove hn hdead hserves (hinput m.kind)]
  by_cases hid : m.id = dead
  · -- it is the node that is removed, which does not act
    have hidle : m.acts writes input g = false := by
      rw [Bool.eq_false_iff]
      exact fun hacts => (hserves hacts).id_ne hn hdead hid
    rw [hidle, Bool.false_and]
  · simp [hid]

/-- Every kind that writes has the input that it writes. -/
theorem Backend.sideRoots_remove (hids : (g.nodes.map (·.id)).Nodup)
    (hroots : b.sideRoots g ⊆ roots) : b.sideRoots (g.remove dead).2 = b.sideRoots g := by
  have hvarying : ∀ k : Kind, k.isVaryingWrite = true → "value" ∈ k.inputs.map (·.name) := by
    intro k hk
    cases k <;> first | exact List.mem_cons_self | cases hk
  have hattribute : ∀ k : Kind, k.isAttribute = true →
      Kind.exportInput ∈ k.inputs.map (·.name) := by
    intro k hk
    cases k <;> first | exact List.mem_cons_self | cases hk
  cases b with
  | material => exact Graph.sideRoots_remove hn hdead hids hroots hvarying
  | particles table => exact Graph.sideRoots_remove hn hdead hids hroots hattribute
  | points => exact Graph.sideRoots_remove hn hdead hids hroots hattribute

end Removal

/-! ## §4. Programs without a node -/

/-- **Whether a program does without a node** that the pass does not depend on.  Two things are
    asked of the graph as a whole: which outputs of a node are used, and what is fed under the
    identity of an output node, wherever that stands. -/
structure Backend.DoesWithout (b : Backend) (g : Graph) (context : Context) (dead : NodeId) :
    Prop where
  /-- What the node uses of host values and attributes that a stage comes to, another one uses. -/
  shared : ∀ s, b.Meets g context s → s.graph = g → b.Heeds s.node.kind → ∀ c ∈ g.connections,
    c.source = s.node.id → c.target = dead → c.output ∈ s.node.outputs.map (·.name) →
      ∃ c' ∈ g.connections, c'.source = c.source ∧ c'.output = c.output ∧ c'.target ≠ dead
  /-- No connection of the node is taken for one that feeds an output node inside a subnet. -/
  apart : b.target = .particles → ∀ output, g.outputNode b.target = .ok output → ∀ v,
    g.Reaches (Scope.root g.name).path .deep followAll (output :: g.exports) v → v.frames ≠ [] →
      (∃ target, v.node.kind = .output target) → ∀ c ∈ g.connections, c.involves dead = true →
        c.input ∈ Particles.outputAttributes → c.target ≠ v.node.id

/-- What the remaining nodes use is used as before where the node shares its uses. -/
theorem Backend.DoesWithout.usedAs (hwithout : b.DoesWithout g context dead)
    (hn : g.node? dead = some n) (hdead : ¬g.Serves roots n) {s s' : Site}
    (hs : b.Meets g context s) (halike : s.Alike (g.Kept dead roots) s') : s.UsedAs b s' := by
  intro hheeds output houtput
  obtain ⟨hnode, ⟨hgraph, hgraph', hserves⟩ | hsame⟩ := halike.node.cases
  · rw [hnode, hgraph', hgraph, Bool.eq_iff_iff]
    unfold Graph.isOutputConnected
    simp only [List.any_eq_true, Bool.and_eq_true, beq_iff_eq, Graph.mem_connections_remove]
    constructor
    · rintro ⟨c, ⟨hc, -, -⟩, huses⟩
      exact ⟨c, hc, huses⟩
    · rintro ⟨c, hc, hsource, hname⟩
      have hne : s.node.id ≠ dead := hserves.id_ne hn hdead
      by_cases htarget : c.target = dead
      · obtain ⟨c', hc', hsource', hname', hother⟩ :=
          hwithout.shared s hs hgraph hheeds c hc hsource htarget (hname ▸ houtput)
        rw [hsource] at hsource'
        exact ⟨c', ⟨hc', hsource' ▸ hne, hother⟩, hsource', hname'.trans hname⟩
      · exact ⟨c, ⟨hc, hsource ▸ hne, htarget⟩, hsource, hname⟩
  · rw [hnode, hsame]

/-- Fewer nodes have fewer variables. -/
theorem Graph.checkVariables_remove {scope : Scope} (h : g.checkVariables scope = .ok ()) :
    (g.remove dead).2.checkVariables scope = .ok () := by
  rw [Graph.checkVariables_iff] at h ⊢
  have hnodes : (g.remove dead).2.nodes.Sublist g.nodes := by
    unfold Graph.remove
    split
    · exact .refl _
    · exact List.filter_sublist
  have hvariables : ((g.remove dead).2.variables scope).Sublist (g.variables scope) := by
    rw [Graph.variables_eq, Graph.variables_eq]
    exact hnodes.flatMap _
  exact ⟨hvariables.nodup h.1, fun name hname => h.2 name (hvariables.subset hname)⟩

/-- **A graph and itself without such a node match.** -/
theorem Graph.matches_remove {output : NodeId} {p : Progress}
    (hids : (g.nodes.map (·.id)).Nodup) (hn : g.node? dead = some n)
    (hpass : b.pass g context = .ok p) (houtput : g.outputNode b.target = .ok output)
    (hdead : ¬g.Serves (output :: b.sideRoots g) n) (hwithout : b.DoesWithout g context dead) :
    g.Matches id (g.Kept dead (output :: b.sideRoots g)) b context (g.remove dead).2 := by
  obtain ⟨_, _, hrest⟩ := bind_eq_ok.mp hpass
  obtain ⟨_, hchecked, hrest⟩ := bind_eq_ok.mp hrest
  obtain ⟨_, hnamed, _⟩ := bind_eq_ok.mp hrest
  have hfound : ∀ root ∈ output :: b.sideRoots g,
      Found id (g.Kept dead (output :: b.sideRoots g)) g (g.remove dead).2 root root :=
    fun root hroot => Graph.found_remove_of_mem hn hdead hroot
  have hne : output ≠ dead := Graph.Serves.root_ne hn hdead List.mem_cons_self
  -- the two graphs are asked for an output node, side roots, kinds and names of variables
  refine ⟨Graph.name_remove g dead, ?_, ?_, ?_, ?_, fun s s' hs halike =>
    hwithout.usedAs hn hdead hs halike⟩
  · rw [houtput, Graph.outputNode_remove hn houtput hne]
    exact .ok (hfound output List.mem_cons_self)
  · rw [Backend.sideRoots_remove hn hdead hids (List.subset_cons_self _ _)]
    exact List.forall₂_same.mpr fun root hroot => hfound root (List.mem_cons_of_mem _ hroot)
  · have hkinds : b.checkNodes (g.remove dead).2 (Scope.root g.name) = .ok () := by
      rw [Backend.checkNodes_eq_ok] at hchecked ⊢
      exact fun m hm => hchecked m (Graph.nodes_remove_subset g dead hm)
    rw [hchecked, hkinds]
    exact .ok rfl
  · rw [hnamed, Graph.checkVariables_remove hnamed]
    exact .ok rfl

/-- What is taken for the inputs of output nodes is fed as before, wherever these stand. -/
theorem Graph.fedAlike_remove {table : Allocations} {output : NodeId} {p : Progress}
    (hn : g.node? dead = some n) (hpass : (Backend.particles table).pass g context = .ok p)
    (houtput : g.outputNode .particles = .ok output)
    (hdead : ¬g.Serves (output :: g.exports) n)
    (hwithout : (Backend.particles table).DoesWithout g context dead) :
    Particles.FedAlike (g.Kept dead (output :: g.exports)) (Scope.root g.name).path g
      (output :: g.exports) (g.remove dead).2 (output :: g.exports) := by
  rintro v w hvw hv hw ⟨target, hk⟩ name hname
  have hid : w.node.id = v.node.id := by rw [hvw.node.cases.1]
  rw [hid]
  by_cases hf : v.frames = []
  · have hf' : w.frames = [] := by
      have hframes := hvw.frames
      rwa [hf, List.forall₂_nil_left_iff] at hframes
    have hgraph : v.graph = g := hv.located.graph_eq hf
    have hgraph' : w.graph = (g.remove dead).2 := hw.located.graph_eq hf'
    obtain ⟨-, ⟨-, -, hserves⟩ | hsame⟩ := hvw.node.cases
    · -- it is an output node of the graph itself, which is one for particles
      obtain ⟨_, _, hrest⟩ := bind_eq_ok.mp hpass
      obtain ⟨_, hchecked, _⟩ := bind_eq_ok.mp hrest
      have hmem : v.node ∈ g.nodes := Graph.mem_of_node? hserves.node?_eq
      have htarget : Particles.supports v.node.kind = true :=
        Backend.checkNodes_eq_ok.mp hchecked v.node hmem
      rw [hk, Particles.supports, beq_iff_eq] at htarget
      have hinput : name ∈ v.node.inputNames := by
        unfold Node.inputNames Node.inputs
        rw [hk, htarget]
        exact hname
      rw [hserves.inputSource?_remove hn hdead hinput]
    · rw [hgraph, hgraph'] at hsame
      rw [hsame]
  · -- inside a network the removed node, if it is meant at all, feeds no output node
    have hkept : (g.remove dead).2.inputSource? v.node.id name =
        g.inputSource? v.node.id name := by
      refine Graph.inputSource?_remove fun c hc => ?_
      obtain ⟨hends, hinput⟩ := Graph.ends_of_inputSource? hc
      rw [Bool.eq_false_iff]
      intro hinvolves
      exact hwithout.apart rfl output houtput v hv hf ⟨target, hk⟩ c
        (Graph.mem_of_inputSource? hc) hinvolves (hinput ▸ hname) hends
    rw [hkept]

/-- **Removing a node that serves nothing leaves the program**, as long as the graph does without
    the node.  If a graph whose nodes have identities of their own compiles, it compiles without
    the node, too, to the same program with the same texts, parameters, flags and places. -/
theorem Backend.compile_remove {program : Program} (hids : (g.nodes.map (·.id)).Nodup)
    (hn : g.node? dead = some n) (hdead : ¬b.Serves g n)
    (h : b.compile g context = (left, .ok program))
    (hwithout : left.DoesWithout g context dead) :
    b.compile (g.remove dead).2 context = (left, .ok program) := by
  have hleft : (b.compile g context).1 = left := congrArg Prod.fst h
  obtain ⟨p, hpass⟩ := Backend.pass_of_compile (congrArg Prod.snd h)
  rw [← Backend.serves_compile b g context] at hdead
  rw [hleft] at hpass hdead
  obtain ⟨output, houtput, _⟩ := bind_eq_ok.mp hpass
  have hidle : ¬g.Serves (output :: left.sideRoots g) n :=
    fun hserves => hdead ⟨output, houtput, hserves⟩
  have hP := Graph.pairing_remove hn hidle
  have hmatches := Graph.matches_remove hids hn hpass houtput hidle hwithout
  have hallocate : ∀ table, b = .particles table →
      Concurs id Eq (Particles.allocate table g context)
        (Particles.allocate table (g.remove dead).2 context) := by
    rintro table rfl
    obtain ⟨table', _, _, rfl, -⟩ := Backend.particles_of_compile h
    have hne : output ≠ dead := Graph.Serves.root_ne hn hidle List.mem_cons_self
    have houtput' := Graph.outputNode_remove hn houtput hne
    refine Particles.concurs_allocate hP table context hmatches.name hmatches.output
      hmatches.sideRoots fun o o' ho ho' => ?_
    obtain rfl : output = o := Except.ok.inj (houtput.symm.trans ho)
    obtain rfl : output = o' := Except.ok.inj (houtput'.symm.trans ho')
    have hexports : (g.remove dead).2.exports = g.exports :=
      Backend.sideRoots_remove (b := .particles table') hn hidle hids (List.subset_cons_self _ _)
    rw [hexports]
    exact Graph.fedAlike_remove hn hpass houtput hidle hwithout
  have hpasses : Concurs id (fun p p' => p' = p.rename id) ((b.compile g context).1.pass g context)
      ((b.compile g context).1.pass (g.remove dead).2 context) := by
    rw [hleft]
    exact hmatches.concurs_pass hP
  rw [Backend.compile_of_concurs hallocate hpasses, h]
  rfl

/-! ## §5. A node that idles -/

/-- A node that computes a sine that nothing uses. -/
def idler (type : PortType) : Node := .make ⟨3⟩ "wave" (.math .sin type)

/-- A material that leaves vertices where they are, and computes a sine of some host value. -/
def idling (value : String) (type : PortType) : Graph :=
  { Graph.empty "g" with
    nodes := [.make ⟨1⟩ "glob" .globals, .make ⟨2⟩ "out" (.output .material), idler type]
    connections :=
      [⟨⟨4⟩, ⟨1⟩, "position", ⟨2⟩, "position"⟩, ⟨⟨5⟩, ⟨1⟩, value, ⟨3⟩, "x"⟩]
    version := 5 }

/-- The output node depends on the host values alone. -/
theorem idling_unserved (value : String) (type : PortType) :
    ¬Backend.material.Serves (idling value type) (idler type) := by
  rintro ⟨output, houtput, root, hroot, m, hm, hpath⟩
  obtain rfl : (⟨2⟩ : NodeId) = output := Except.ok.inj houtput
  obtain rfl : root = ⟨2⟩ := List.mem_singleton.mp hroot
  obtain rfl : Node.make ⟨2⟩ "out" (.output .material) = m := Option.some.inj hm
  have hclosed : ∀ k, ReflTransGen (idling value type).Needs
      (.make ⟨2⟩ "out" (.output .material)) k →
        k = .make ⟨2⟩ "out" (.output .material) ∨ k = .make ⟨1⟩ "glob" .globals := by
    intro k hk
    induction hk with
    | refl => exact .inl rfl
    | tail _ hneeds ih =>
      obtain ⟨input, hinput, c, hc, hsource⟩ := hneeds
      rcases ih with rfl | rfl
      · have hinput : input ∈ ["position", "normal", "color", "alpha"] := hinput
        simp only [List.mem_cons, List.not_mem_nil, or_false] at hinput
        rcases hinput with rfl | rfl | rfl | rfl
        · cases hc
          exact .inr (Option.some.inj hsource).symm
        · cases hc
        · cases hc
        · cases hc
      · cases hinput
  rcases hclosed _ hpath with h | h <;> cases h

/-- A second use of a host value leaves no trace. -/
theorem idling_pruned :
    ∃ program, Backend.material.compile (idling "position" .vector3) {} =
        (.material, .ok program) ∧
      Backend.material.compile ((idling "position" .vector3).remove ⟨3⟩).2 {} =
        (.material, .ok program) := by
  have hpass : (Backend.material.pass (idling "position" .vector3) {}).map (fun _ => ()) =
      .ok () := by
    decide +kernel
  obtain ⟨p, hp, _⟩ := map_eq_ok.mp hpass
  obtain ⟨program, hcompile, -⟩ := Backend.compile_material rfl hp
  have hwithout : Backend.material.DoesWithout (idling "position" .vector3) {} ⟨3⟩ := by
    refine ⟨fun s _ _ _ c hc _ htarget _ => ?_, nofun⟩
    -- what the sine uses is what the output node uses
    refine ⟨_, List.mem_cons_self, ?_⟩
    simp only [idling, List.mem_cons, List.not_mem_nil, or_false] at hc
    rcases hc with rfl | rfl
    · cases htarget
    · exact ⟨rfl, rfl, by decide⟩
  exact ⟨_, hcompile, Backend.compile_remove (n := idler .vector3) (by decide) rfl
    (idling_unserved _ _) hcompile hwithout⟩

/-- A material says whether it depends on time as its pass noted it. -/
theorem MaterialProgram.timeDependent_of_compile {program : MaterialProgram}
    (h : Backend.material.compile g context = (.material, .ok (.material program))) :
    (Backend.material.pass g context).map (·.needs.timeDependent) = .ok program.timeDependent := by
  obtain ⟨p, hp, h⟩ := bind_eq_ok.mp (congrArg Prod.snd h)
  obtain ⟨kept, hkept, h⟩ := bind_eq_ok.mp h
  obtain ⟨vertex, _, h'⟩ := bind_eq_ok.mp hkept
  obtain ⟨fragment, _, h'⟩ := bind_eq_ok.mp h'
  cases pure_eq_ok.mp h'
  cases pure_eq_ok.mp h
  rw [hp]
  rfl

/-- **A node that serves nothing makes a program depend on time**: the only use of the time is
    one that is never computed, yet the time is declared and the host is asked for it. -/
theorem idling_timed :
    ¬Backend.material.Serves (idling "time" .float) (idler .float) ∧
      ∃ program program',
        Backend.material.compile (idling "time" .float) {} =
          (.material, .ok (.material program)) ∧
        Backend.material.compile ((idling "time" .float).remove ⟨3⟩).2 {} =
          (.material, .ok (.material program')) ∧
        program.timeDependent = true ∧ program'.timeDependent = false := by
  have hpass : (Backend.material.pass (idling "time" .float) {}).map
      (·.needs.timeDependent) = .ok true := by
    decide +kernel
  have hpass' : (Backend.material.pass ((idling "time" .float).remove ⟨3⟩).2 {}).map
      (·.needs.timeDependent) = .ok false := by
    decide +kernel
  obtain ⟨p, hp, _⟩ := map_eq_ok.mp hpass
  obtain ⟨p', hp', _⟩ := map_eq_ok.mp hpass'
  obtain ⟨program, hcompile, -⟩ := Backend.compile_material rfl hp
  obtain ⟨program', hcompile', -⟩ := Backend.compile_material rfl hp'
  rw [MaterialProgram.timeDependent_of_compile hcompile] at hpass
  rw [MaterialProgram.timeDependent_of_compile hcompile'] at hpass'
  exact ⟨idling_unserved _ _, program, program', hcompile, hcompile', Except.ok.inj hpass,
    Except.ok.inj hpass'⟩

end ShaderFlow
