/-
  ShaderFlow.Proofs.Agreement — no contradiction between declarations is passed over.

  Of several declarations of one category and name a stage keeps the first.  The others are
  dropped, which is harmless as long as they read the same; if one does not, the conflict has to
  end the compilation.  Conflicts are only looked at when a node has been added, so the proof
  needs that every compilation comes to some node, or has nothing to look at.

  Main definitions:
    * `Backend.Offered`            — what a stage is asked to declare, by whomever.

  Main statements:
    * `Backend.quiet_of_compile`   — a compilation that went well has seen no conflict;
    * `Backend.keeps_offered`      — so all that was offered agrees and is kept once.
-/

import ShaderFlow.Proofs.Definitions
import ShaderFlow.Proofs.Templates
import ShaderFlow.Proofs.Writes

namespace ShaderFlow

open Contribution

variable {b left : Backend} {g : Graph} {context : Context} {output : NodeId} {p : Progress}
  {builds : List (Stage × List Part)} {program : Program}

/-! ## §1. Where a pass starts -/

/-- A pass starts without a conflict, unless it starts from samplers: a state texture may bear
    the name of another uniform. -/
theorem Backend.conflicts_begin (hb : ∀ table, b ≠ .particles table) :
    (b.begin context.config output).listing.conflicts = [] := by
  cases b with
  | material => rfl
  | particles table => exact absurd rfl (hb table)
  | points => rfl

/-- A pass without a conflict at its start has none in the end, whether or not it came to a
    node. -/
theorem Backend.Builds.quiet_of_begin (h : b.Builds g context output builds p)
    (hbegin : (b.begin context.config output).listing.conflicts = []) :
    p.listing.conflicts = [] := by
  by_cases hsome : ∃ build ∈ builds, build.2 ≠ []
  · exact h.quiet hsome
  · -- without a part nothing is added
    have hidle : ∀ (builds : List (Stage × List Part)) (p : Progress),
        (∀ build ∈ builds, build.2 = []) →
          builds.foldl (fun p build => p.addParts build.2) p = p := by
      intro builds
      induction builds with
      | nil =>
        intro p _
        rfl
      | cons build builds ih =>
        intro p hnone
        rw [List.foldl_cons, hnone build List.mem_cons_self]
        exact ih p fun other hother => hnone other (List.mem_cons_of_mem _ hother)
    rw [h.result, hidle builds _ fun build hbuild => by
      by_contra hparts
      exact hsome ⟨build, hbuild, hparts⟩]
    exact hbegin

/-- A stage that has something to do at the output node comes to a node, so its conflicts are
    looked at. -/
theorem Backend.Builds.quiet_of_concerns (h : b.Builds g context output builds p) {stage : Stage}
    (hstage : stage ∈ b.stages) (hconcerns : b.concerns g stage output = true) :
    p.listing.conflicts = [] := by
  obtain ⟨parts, hbuild⟩ := h.exists_build hstage
  obtain ⟨n, hn, -⟩ := (h.emits _ hbuild).schedules.started output
    (List.mem_filter.mpr ⟨List.mem_cons_self, hconcerns⟩)
  apply h.quiet ⟨_, hbuild, ?_⟩
  rintro hnone
  rw [hnone] at hn
  cases hn

/-! ## §2. The first node of a particle system -/

/-- **The first root is listed**, whatever else has its identity: nothing was reached before it,
    and it is not met again below itself. -/
theorem Graph.listed_of_first {path : String} {mode : TraversalMode} {filter : Node → InputFilter}
    {root : NodeId} {roots : List NodeId} {n : Node} {t : Traversal}
    (h : g.traverse path mode filter (root :: roots) = .ok t) (hn : g.node? root = some n) :
    { path, node := n } ∈ t.ordered := by
  have hwalk := g.walks_traverse path mode filter (root :: roots)
  rw [h, Graph.rootSteps, List.map_cons, hn] at hwalk
  cases hwalk with
  | known _ hknown _ => exact absurd hknown (by simp [Traversal.hasReached])
  | entered _ _ _ hrest =>
    -- the first visit ends with its own node, and what is listed is kept
    obtain ⟨-, hkept, -⟩ := hrest.listed (P := fun _ => True) (fun _ _ => trivial)
      (fun r _ => ⟨{ graph := g, path := r.path, node := r.node }, trivial, rfl⟩)
      fun _ _ => trivial
    exact hkept (List.mem_append_right _ List.mem_cons_self)

namespace Particles

variable {table table' : Allocations}

/-- What the node asks for that has the identity of the output node is asked for. -/
theorem requests_of_first {levels : Nat} {path : String} {roots : List NodeId} {n : Node}
    {requests : List AttributeRequest} {name : String} {type : PortType}
    (h : collectRequests levels g path (output :: roots) = .ok requests)
    (hn : g.node? output = some n) (hk : n.kind = .attribute name type) :
    ∃ r ∈ requests, r.name = name := by
  obtain ⟨t, ht, hlisted⟩ := exists_listed_of_collectRequests h
  obtain ⟨own, hown, hsub⟩ := hlisted _ (Graph.listed_of_first ht hn)
  unfold requestsOf at hown
  simp only [hk] at hown
  cases hown
  exact ⟨_, hsub List.mem_cons_self, rfl⟩

/-- **Some stage has something to do at the output node**: the position is always stored. -/
theorem exists_concerns (htable : Allocations.Reached table)
    (hallocate : allocate table g context = .ok table')
    (houtput : g.outputNode .particles = .ok output) :
    ∃ stage ∈ stages table', (Backend.particles table').concerns g stage output = true := by
  obtain ⟨output', houtput', hallocate⟩ := bind_eq_ok.mp hallocate
  obtain rfl := Except.ok.inj (houtput.symm.trans houtput')
  obtain ⟨requests, hrequests, hallocate⟩ := bind_eq_ok.mp hallocate
  obtain ⟨⟨changed, built⟩, hupdate, hbuilt⟩ := bind_eq_ok.mp hallocate
  obtain rfl : built = table' := pure_eq_ok.mp hbuilt
  have howned : ∀ ask ∈ Allocations.asked requests,
      ∃ stage ∈ stages built, isOwned built ask.1 stage = true := by
    intro ask hask
    obtain ⟨a, ha, hstage⟩ := Allocations.stage_of_asked htable hupdate hask
    exact ⟨_, hstage, isOwned_iff.mpr ⟨a, ha, rfl⟩⟩
  obtain ⟨stage, hstage, hposition⟩ := howned (positionName, .vector3) List.mem_cons_self
  unfold Backend.concerns
  cases hn : g.node? output with
  | none => exact ⟨stage, hstage, rfl⟩
  | some n =>
    cases hk : n.kind with
    | «attribute» name type =>
      obtain ⟨r, hr, rfl⟩ := requests_of_first hrequests hn hk
      obtain ⟨stage, hstage, hname⟩ :=
        howned (r.name, r.type) (List.mem_cons_of_mem _ (List.mem_map_of_mem hr))
      refine ⟨stage, hstage, ?_⟩
      simp [Backend.follows, follows, hk, hname, InputFilter.isEmpty]
    | output target =>
      refine ⟨stage, hstage, ?_⟩
      have hmem : "position" ∈ outputAttributes.filter (isOwned built · stage) :=
        List.mem_filter.mpr ⟨by decide, hposition⟩
      have hsome : (outputAttributes.filter (isOwned built · stage)).isEmpty = false :=
        List.isEmpty_eq_false_iff.mpr (List.ne_nil_of_mem hmem)
      simp [Backend.follows, follows, hk, InputFilter.isEmpty, hsome]
    | _ =>
      refine ⟨stage, hstage, ?_⟩
      simp [Backend.follows, follows, hk, InputFilter.isEmpty]

end Particles

/-! ## §3. What stages are offered -/

/-- Among things with different keys, one has its key alone. -/
theorem filter_key_eq {α κ : Type} [BEq κ] [LawfulBEq κ] {key : α → κ} {x : α} :
    ∀ {xs : List α}, (xs.map key).Nodup → x ∈ xs → xs.filter (fun y => key y == key x) = [x]
  | y :: ys, hnodup, hx => by
    rw [List.map_cons, List.nodup_cons] at hnodup
    obtain ⟨hnew, hnodup⟩ := hnodup
    rcases List.mem_cons.mp hx with rfl | hx
    · have hrest : ys.filter (fun y => key y == key x) = [] := by
        rw [List.filter_eq_nil_iff]
        intro y hy hkey
        apply hnew
        rw [← eq_of_beq hkey]
        exact List.mem_map_of_mem hy
      rw [List.filter_cons, hrest, if_pos (beq_self_eq_true _)]
    · have hother : (key y == key x) = false := by
        rw [beq_eq_false_iff_ne]
        intro hkey
        apply hnew
        rw [hkey]
        exact List.mem_map_of_mem hx
      rw [List.filter_cons, hother]
      exact filter_key_eq hnodup hx

namespace Backend

/-- **A compilation that went well has seen no conflict**, in any stage. -/
theorem quiet_of_compile (htable : Allocations.Reached b.allocations)
    (h : b.compile g context = (left, .ok program)) :
    ∃ p, left.pass g context = .ok p ∧ p.listing.conflicts = [] := by
  have hpass := pass_of_compile (congrArg Prod.snd h)
  rw [h] at hpass
  obtain ⟨p, hp⟩ := hpass
  refine ⟨p, hp, ?_⟩
  obtain ⟨output, builds, hbuilds⟩ := builds_of_pass hp
  cases b with
  | particles table =>
    -- the only backend that may start with a conflict comes to its output node
    obtain ⟨table', -, -, rfl, -, hallocate, -, -⟩ := particles_of_compile h
    obtain ⟨stage, hstage, hconcerns⟩ :=
      Particles.exists_concerns htable hallocate hbuilds.found
    exact hbuilds.quiet_of_concerns hstage hconcerns
  | material =>
    obtain ⟨rfl, -⟩ := Prod.mk.inj h
    exact hbuilds.quiet_of_begin (conflicts_begin nofun)
  | points =>
    obtain ⟨rfl, -⟩ := Prod.mk.inj h
    exact hbuilds.quiet_of_begin (conflicts_begin nofun)

/-- What a stage is offered: what it declares from the start, and what any node that some stage
    comes to has for it, at whatever depth.  A subnet offers what its network does. -/
inductive Offered (b : Backend) (g : Graph) (context : Context) (stage : Stage)
    (d : Declaration) : Prop
  | start (hstage : stage ∈ b.stages) (hd : d ∈ b.declarations context.config stage)
  | node {s : Site} {cs : List Contribution} (hs : b.Meets g context s)
      (hemit : s.node.kind.emit b s = .ok cs) (hd : d ∈ Contribution.declarations stage cs)

/-- What is offered is declared in the same words, unless there was a conflict. -/
theorem declares_of_offered (hp : b.pass g context = .ok p) (hquiet : p.listing.conflicts = [])
    {stage : Stage} {d : Declaration} (hd : b.Offered g context stage d) : p.Declares stage d := by
  cases hd with
  | start hstage hd =>
    obtain ⟨output, builds, hbuilds⟩ := builds_of_pass hp
    have hpass := hbuilds.collects stage
    have hasked : d ∈ Contribution.declarations stage
        (b.stages.map fun stage => .define stage (b.declarations context.config stage)) := by
      refine List.mem_flatMap.mpr ⟨_, List.mem_map_of_mem hstage, ?_⟩
      rw [Contribution.declarationsFor, if_pos rfl]
      exact hd
    have hbegin := (Builds.collects_begin b context output stage).met (hpass.quiet hquiet) d hasked
    exact hbegin.mono hpass.kept.subset
  | node hs hemit hd =>
    obtain ⟨cs, hemit', hdeclares, -⟩ := includes_of_meets hp hs
    rw [hemit] at hemit'
    cases hemit'
    exact hdeclares stage d hd

/-- **No contradiction is passed over.**  When a graph compiles, whatever places its attributes
    had before, declarations of one category and name that a stage was offered read the same,
    whichever nodes they come from, and of each the stage keeps exactly one, in these words. -/
theorem keeps_offered (htable : Allocations.Reached b.allocations)
    (h : b.compile g context = (left, .ok program)) :
    ∃ p, left.pass g context = .ok p ∧ ∀ stage,
      (∀ d d', left.Offered g context stage d → left.Offered g context stage d' →
        d.key = d'.key → d.line = d'.line) ∧
      ∀ d, left.Offered g context stage d → ∃ kept,
        (p.listing.definitionsOf stage).filter (·.declaration.key == d.key) = [kept] ∧
          kept.declaration.line = d.line := by
  obtain ⟨p, hp, hquiet⟩ := quiet_of_compile htable h
  refine ⟨p, hp, fun stage => ?_⟩
  have hnodup := nodup_definitions hp stage
  have hone : ∀ d, left.Offered g context stage d → ∃ kept,
      (p.listing.definitionsOf stage).filter (·.declaration.key == d.key) = [kept] ∧
        kept.declaration.line = d.line := by
    intro d hd
    obtain ⟨kept, hkept, hkey, hline⟩ := declares_of_offered hp hquiet hd
    refine ⟨kept, ?_, hline⟩
    rw [← hkey]
    exact filter_key_eq hnodup hkept
  refine ⟨?_, hone⟩
  intro d d' hd hd' hkey
  -- both are spelled like the one that is kept
  obtain ⟨kept, hkept, hline⟩ := hone d hd
  obtain ⟨kept', hkept', hline'⟩ := hone d' hd'
  rw [hkey, hkept', List.cons.injEq] at hkept
  rw [← hline, ← hline', hkept.1]

/-- A subnet around a parameter `s` that has the type of the given value. -/
def inlet (value : Value) : Subnet where
  inputs := []
  outputs := [⟨"y", value.portType⟩]
  block := .always
  network :=
    { Graph.empty "inlet" with
      nodes :=
        [.make ⟨10⟩ "output" (.subnetOutput [⟨"y", value.portType⟩]),
         .make ⟨11⟩ "s" (.param "s" value.portType value)]
      connections := [⟨⟨20⟩, ⟨11⟩, "value", ⟨10⟩, "y"⟩]
      version := 3 }

/-- A material whose position is the sum of a parameter `s` and of one inside a subnet. -/
def doubled (value : Value) : Graph :=
  { Graph.empty "g" with
    nodes :=
      [.make ⟨1⟩ "out" (.output .material),
       .make ⟨2⟩ "a" (.param "s" .vector3 (.vector3 .zero .zero .zero)),
       .make ⟨3⟩ "b" (.subnet (inlet value)),
       .make ⟨4⟩ "sum" (.math .add .vector3)]
    connections :=
      [⟨⟨5⟩, ⟨2⟩, "value", ⟨4⟩, "a"⟩, ⟨⟨6⟩, ⟨3⟩, "y", ⟨4⟩, "b"⟩,
       ⟨⟨7⟩, ⟨4⟩, "result", ⟨1⟩, "position"⟩]
    version := 7 }

/-- Both parameters have the same uniform for the vertex stage, which keeps one of them. -/
theorem doubled_keeps_offered : Allocations.Reached Backend.material.allocations ∧
    ∃ program p kept,
      Backend.material.compile (doubled (.vector3 .zero .zero .zero)) {} =
        (.material, .ok program) ∧
      Backend.material.pass (doubled (.vector3 .zero .zero .zero)) {} = .ok p ∧
      Backend.material.Offered (doubled (.vector3 .zero .zero .zero)) {} .vertex
        (.uniform .vector3 "param_s") ∧
      (p.listing.definitionsOf .vertex).filter
        (·.declaration.key == (.uniform, "param_s")) = [kept] ∧
      kept.declaration.line = "uniform vec3 param_s;" := by
  have hpass : (Backend.material.pass (doubled (.vector3 .zero .zero .zero)) {}).map (fun p =>
      (p.listing.definitionsOf .vertex).any (·.declaration == .uniform .vector3 "param_s")) =
      .ok true := by
    decide +kernel
  obtain ⟨p, hp, hany⟩ := map_eq_ok.mp hpass
  obtain ⟨program, hcompile, -⟩ := compile_material rfl hp
  have hoffered : Backend.material.Offered (doubled (.vector3 .zero .zero .zero)) {} .vertex
      (.uniform .vector3 "param_s") := by
    obtain ⟨d, hd, hdecl⟩ := List.any_eq_true.mp hany
    rw [beq_iff_eq] at hdecl
    -- what is declared but not from the start was offered by a node
    rcases Backend.origin hp hd with ⟨-, hstart⟩ | ⟨s, cs, hs, hemit, hleaf, hd⟩
    · rw [hdecl] at hstart
      simp [declarations] at hstart
    · rw [hdecl] at hd
      rw [← Kind.emit_of_leaf hleaf] at hemit
      exact .node hs hemit hd
  obtain ⟨p', hp', hkeeps⟩ := keeps_offered (b := .material) .empty hcompile
  obtain rfl := Except.ok.inj (hp.symm.trans hp')
  obtain ⟨kept, hkept, hline⟩ := (hkeeps .vertex).2 _ hoffered
  exact ⟨.empty, _, p, kept, hcompile, hp, hoffered, hkept, hline⟩

/-- A second type for the uniform ends the compilation. -/
example : (Backend.material.pass (doubled (.float .one)) {}).map (fun _ => ()) =
    .error (.conflictingDefinition (NodeRef.of "/g" (.make ⟨3⟩ "b" (.subnet (inlet (.float .one)))))
      (.uniform .vector3 "param_s") (.uniform .float "param_s")) := by
  decide +kernel

end Backend

end ShaderFlow
