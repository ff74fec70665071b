/-
  ShaderFlow.Proofs.Attempts — what a host keeps of compilations that succeed and that fail.

  A particle backend brings its table of places in line with a graph before it builds the
  stages, so a compilation that fails in a stage has moved the places already.  The table and
  the program that is kept then belong to different generations.

  Main definitions:
    * `Attempt`             — a graph that a host has compiled, with the settings at the time;
    * `Attempt.Rebuilds`    — whether the places that a graph asks for are not those of a table;
    * `Artifact.run`        — an artifact after attempts, one after the other.

  Main statements:
    * `Backend.table_of_compile`            — what one compilation does to the table;
    * `Artifact.backend_run`                — what attempts that all fail do to it;
    * `Artifact.table_changes_iff_rebuilds` — when the table is still that of the program that is
      kept, and which one it is otherwise.
-/

import ShaderFlow.Artifact
import ShaderFlow.Proofs.Packing
import ShaderFlow.Proofs.Templates

namespace ShaderFlow

open Allocations

/-! ## §1. One compilation -/

/-- What a particle graph asks for. -/
def Particles.requests (g : Graph) : Except CompileError (List AttributeRequest) := do
  let output ← g.outputNode .particles
  collectRequests g.depth g (Scope.root g.name).path (output :: g.exports)

/-- A compilation by a host: a graph as it is then, and the settings. -/
structure Attempt where
  graph : Graph
  context : Context

/-- Whether an attempt has a table built anew, and to which one: what its graph asks for can be
    stored, and is not what the table was built for. -/
def Attempt.RebuildsTo (x : Attempt) (table table' : Allocations) : Prop :=
  ∃ requests, Particles.requests x.graph = .ok requests ∧
    table.update requests x.context.config.particles = .ok (true, table')

/-- Whether an attempt has a table built anew. -/
def Attempt.Rebuilds (x : Attempt) (table : Allocations) : Prop :=
  ∃ table', x.RebuildsTo table table'

variable {table table' : Allocations} {x : Attempt}

theorem Particles.allocate_eq_ok {g : Graph} {context : Context} :
    allocate table g context = .ok table' ↔ ∃ requests changed,
      Particles.requests g = .ok requests ∧
        table.update requests context.config.particles = .ok (changed, table') := by
  unfold allocate Particles.requests
  simp only [bind_eq_ok, pure_eq_ok]
  constructor
  · rintro ⟨output, houtput, requests, hrequests, ⟨changed, t⟩, hupdate, rfl⟩
    exact ⟨requests, changed, ⟨output, houtput, hrequests⟩, hupdate⟩
  · rintro ⟨requests, changed, ⟨output, houtput, hrequests⟩, hupdate⟩
    exact ⟨output, houtput, requests, hrequests, (changed, table'), hupdate, rfl⟩

/-- The table after a compilation: the places come first, whatever becomes of the rest. -/
theorem Backend.compile_fst (table : Allocations) (g : Graph) (context : Context) :
    ((Backend.particles table).compile g context).1 =
      .particles (match Particles.allocate table g context with
        | .ok table' => table'
        | .error _ => table) := by
  unfold Backend.compile
  cases hallocate : Particles.allocate table g context with
  | ok table' => simp only [hallocate]
  | error e => simp only [hallocate]

/-- **What one compilation does to the table**: an attempt that does not rebuild it leaves it as
    it was, and one that does leaves what it was built to, the next generation, both whatever else
    becomes of it. -/
theorem Backend.table_of_compile (table : Allocations) (x : Attempt) :
    ∃ table', ((Backend.particles table).compile x.graph x.context).1 = .particles table' ∧
      ((¬x.Rebuilds table ∧ table' = table) ∨
        (x.RebuildsTo table table' ∧ table'.generation = table.generation + 1)) := by
  refine ⟨_, compile_fst table x.graph x.context, ?_⟩
  cases hallocate : Particles.allocate table x.graph x.context with
  | error e =>
    refine .inl ⟨?_, rfl⟩
    rintro ⟨table', requests, hrequests, hupdate⟩
    rw [Particles.allocate_eq_ok.mpr ⟨requests, true, hrequests, hupdate⟩] at hallocate
    cases hallocate
  | ok table' =>
    obtain ⟨requests, changed, hrequests, hupdate⟩ := Particles.allocate_eq_ok.mp hallocate
    -- an update that went well either found the table in line or built it anew
    obtain ⟨-, heq⟩ := update_eq_ok.mp hupdate
    split at heq
    next hsettled =>
      cases heq
      refine .inl ⟨?_, rfl⟩
      rintro ⟨built, requests', hrequests', hbuilt⟩
      rw [hrequests, Except.ok.injEq] at hrequests'
      subst hrequests'
      rw [hupdate] at hbuilt
      cases hbuilt
    next =>
      cases heq
      exact .inr ⟨⟨requests, hrequests, hupdate⟩, rfl⟩

/-- A program holds the table that its compilation leaves. -/
theorem Backend.allocations_of_compile {program : Program}
    (h : ((Backend.particles table).compile x.graph x.context).2 = .ok program) :
    ∃ kept, program = .particles kept ∧
      ((Backend.particles table).compile x.graph x.context).1 = .particles kept.allocations := by
  obtain ⟨table', p, kept, hleft, rfl, -, -, hkept⟩ := Backend.particles_of_compile (Prod.ext rfl h)
  obtain ⟨shaders, -, hkept⟩ := bind_eq_ok.mp hkept
  rw [pure_eq_ok] at hkept
  subst hkept
  exact ⟨_, rfl, hleft⟩

/-- A pass that fails comes after the places. -/
theorem Backend.compile_of_pass_error {e : CompileError}
    (htable : Particles.allocate table x.graph x.context = .ok table')
    (hpass : (Backend.particles table').pass x.graph x.context = .error e) :
    (Backend.particles table).compile x.graph x.context = (.particles table', .error e) := by
  unfold Backend.compile
  simp only [htable, hpass]
  rfl

/-! ## §2. Attempts one after the other -/

namespace Artifact

/-- An artifact after one more attempt. -/
def attempt (a : Artifact) (x : Attempt) : Artifact := (a.compile x.graph x.context).1

/-- What comes of an attempt. -/
def result (a : Artifact) (x : Attempt) : Except CompileError Program :=
  (a.compile x.graph x.context).2.2

/-- An artifact after attempts, one after the other. -/
def run (a : Artifact) (attempts : List Attempt) : Artifact := attempts.foldl attempt a

/-- Attempts that all fail, one after the other. -/
def Fails (a : Artifact) : List Attempt → Prop
  | [] => True
  | x :: rest => (∃ e, a.result x = .error e) ∧ Fails (a.attempt x) rest

/-- Attempts none of which has the table built anew. -/
def Settles (a : Artifact) : List Attempt → Prop
  | [] => True
  | x :: rest => ¬x.Rebuilds a.backend.allocations ∧ Settles (a.attempt x) rest

variable {a : Artifact}

theorem backend_attempt (a : Artifact) (x : Attempt) :
    (a.attempt x).backend = (a.backend.compile x.graph x.context).1 := by
  unfold attempt compile
  rcases a.backend.compile x.graph x.context with ⟨b, p | e⟩ <;> rfl

theorem result_eq (a : Artifact) (x : Attempt) :
    a.result x = (a.backend.compile x.graph x.context).2 := by
  unfold result compile
  rcases a.backend.compile x.graph x.context with ⟨b, p | e⟩ <;> rfl

theorem output_of_result {program : Program} (h : a.result x = .ok program) :
    (a.attempt x).output = some program := by
  rw [result_eq] at h
  unfold attempt compile
  rcases hcompile : a.backend.compile x.graph x.context with ⟨b, p | e⟩
  · rw [hcompile] at h
    cases h
  · rw [hcompile] at h
    cases h
    rfl

theorem output_of_failure {e : CompileError} (h : a.result x = .error e) :
    (a.attempt x).output = a.output := by
  rw [result_eq] at h
  unfold attempt compile
  rcases hcompile : a.backend.compile x.graph x.context with ⟨b, p | e⟩
  · rfl
  · rw [hcompile] at h
    cases h

/-- A program that was kept is kept by attempts that fail. -/
theorem output_run :
    ∀ {failed : List Attempt} {a : Artifact}, a.Fails failed → (a.run failed).output = a.output
  | [], _, _ => rfl
  | x :: failed, a, h => by
    obtain ⟨⟨e, he⟩, hrest⟩ := h
    exact (output_run hrest).trans (output_of_failure he)

/-- **What attempts do to the table**: they leave it as it was if and only if none of them has it
    built anew, and otherwise leave a later generation. -/
theorem backend_run :
    ∀ {a : Artifact} {table : Allocations}, a.backend = .particles table →
      ∀ attempts : List Attempt,
        ∃ table', (a.run attempts).backend = .particles table' ∧
          table.generation ≤ table'.generation ∧ (table' = table ↔ a.Settles attempts)
  | a, table, ha, [] => ⟨table, ha, Nat.le_refl _, iff_of_true rfl trivial⟩
  | a, table, ha, x :: attempts => by
    obtain ⟨next, hnext, hstep⟩ := Backend.table_of_compile table x
    have hattempt : (a.attempt x).backend = .particles next := by
      rw [backend_attempt, ha, hnext]
    obtain ⟨table', hrun, hle, hiff⟩ := backend_run hattempt attempts
    have htable : a.backend.allocations = table := by rw [ha]; rfl
    refine ⟨table', hrun, ?_, ?_⟩
    · rcases hstep with ⟨-, rfl⟩ | ⟨-, hgeneration⟩
      · exact hle
      · omega
    · show table' = table ↔ ¬x.Rebuilds a.backend.allocations ∧ (a.attempt x).Settles attempts
      rw [htable]
      rcases hstep with ⟨hkept, rfl⟩ | ⟨hbuilt, hgeneration⟩
      · exact hiff.trans (and_iff_right hkept).symm
      · -- generations never fall, so a table that was built anew is not met again
        refine iff_of_false (fun heq => ?_) fun hsettles => hsettles.1 ⟨next, hbuilt⟩
        rw [heq] at hle
        omega

/-- **What a host keeps.**  An attempt leaves the table as it was if and only if it does not have
    it built anew; if it does, it leaves the table that was built, which is of the next generation.
    Both hold whether the attempt fails or not.  When an attempt succeeds and others fail after it,
    its program is kept, and the table is the one of that program if and only if none of the
    failed ones has had it built anew. -/
theorem table_changes_iff_rebuilds (ha : a.backend = .particles table) :
    (∀ x, (a.attempt x).backend = .particles table ↔ ¬x.Rebuilds table) ∧
      (∀ x, x.Rebuilds table → ∃ requests table', Particles.requests x.graph = .ok requests ∧
        table.update requests x.context.config.particles = .ok (true, table') ∧
        (a.attempt x).backend = .particles table' ∧ table'.generation = table.generation + 1) ∧
      ∀ good failed program, a.result good = .ok program → (a.attempt good).Fails failed →
        ∃ kept, ((a.attempt good).run failed).output = some (.particles kept) ∧
          program = .particles kept ∧
          (((a.attempt good).run failed).backend = .particles kept.allocations ↔
            (a.attempt good).Settles failed) := by
  refine ⟨fun x => ?_, fun x hx => ?_, fun good failed program hgood hfails => ?_⟩
  · obtain ⟨next, hnext, hstep⟩ := Backend.table_of_compile table x
    rw [backend_attempt, ha, hnext, Backend.particles.injEq]
    rcases hstep with ⟨hkept, rfl⟩ | ⟨hbuilt, hgeneration⟩
    · exact iff_of_true rfl hkept
    · refine iff_of_false (fun heq => ?_) (not_not.mpr ⟨next, hbuilt⟩)
      rw [heq] at hgeneration
      omega
  · obtain ⟨next, hnext, ⟨hkept, -⟩ | ⟨⟨requests, hrequests, hupdate⟩, hgeneration⟩⟩ :=
      Backend.table_of_compile table x
    · exact absurd hx hkept
    · refine ⟨requests, next, hrequests, hupdate, ?_, hgeneration⟩
      rw [backend_attempt, ha, hnext]
  · have houtput := output_of_result hgood
    rw [result_eq, ha] at hgood
    obtain ⟨kept, rfl, hkept⟩ := Backend.allocations_of_compile hgood
    have hbackend : (a.attempt good).backend = .particles kept.allocations := by
      rw [backend_attempt, ha, hkept]
    obtain ⟨table', hrun, -, hiff⟩ := backend_run hbackend failed
    refine ⟨kept, (output_run hfails).trans houtput, rfl, ?_⟩
    rw [hrun, Backend.particles.injEq]
    exact hiff

/-- An attempt with the standard settings. -/
def plainly (g : Graph) : Attempt where
  graph := g
  context := {}

/-- Particles that nothing moves. -/
def resting : Graph :=
  { Graph.empty "g" with
    nodes := [.make ⟨1⟩ "out" (.output .particles)]
    version := 1 }

/-- The same, with a node that no particle stage can have. -/
def blocked : Graph :=
  { Graph.empty "g" with
    nodes := resting.nodes ++ [.make ⟨2⟩ "stray" (.varyingRead "v" .float)]
    version := 2 }

/-- The same again, with a wind that moves the particles. -/
def blown : Graph :=
  { Graph.empty "g" with
    nodes := blocked.nodes ++ [.make ⟨3⟩ "wind" (.attribute "wind" .vector3)]
    connections := [⟨⟨4⟩, ⟨3⟩, "value", ⟨1⟩, "velocity"⟩]
    version := 4 }

/-- An artifact that has a program for particles at rest. -/
def rested : Artifact := (Artifact.new .particles).attempt (plainly resting)

/-- The places of particles at rest. -/
def restedTable : Allocations := rebuilt {} [] {}

theorem exists_rested : ∃ kept,
    (Artifact.new .particles).result (plainly resting) = .ok (.particles kept) ∧
      kept.allocations = restedTable ∧ rested.output = some (.particles kept) ∧
      rested.backend = .particles restedTable := by
  have htable : Particles.allocate {} resting {} = .ok restedTable := by decide +kernel
  have hpass : ((Backend.particles restedTable).pass resting {}).map (fun _ => ()) = .ok () := by
    decide +kernel
  obtain ⟨p, hp, _⟩ := map_eq_ok.mp hpass
  obtain ⟨kept, hcompile, hallocations, -⟩ := Backend.compile_particles htable hp
  have hresult : (Artifact.new .particles).result (plainly resting) = .ok (.particles kept) :=
    (result_eq _ _).trans (congrArg Prod.snd hcompile)
  exact ⟨kept, hresult, hallocations, output_of_result hresult,
    (backend_attempt _ _).trans (congrArg Prod.fst hcompile)⟩

/-- What comes of an attempt with a node that no stage can have, once there are places. -/
theorem rested_fails {g : Graph} {table : Allocations}
    (htable : Particles.allocate restedTable g {} = .ok table)
    (hpass : (Backend.particles table).pass g {} =
      .error (.unsupportedNode ⟨⟨2⟩, "/g/stray"⟩ .particles)) :
    rested.result (plainly g) = .error (.unsupportedNode ⟨⟨2⟩, "/g/stray"⟩ .particles) ∧
      (rested.attempt (plainly g)).backend = .particles table := by
  obtain ⟨-, -, -, -, hbackend⟩ := exists_rested
  have hcompile : (Backend.particles restedTable).compile g {} = _ :=
    Backend.compile_of_pass_error (x := plainly g) htable hpass
  constructor
  · rw [result_eq, hbackend]
    exact congrArg Prod.snd hcompile
  · rw [backend_attempt, hbackend]
    exact congrArg Prod.fst hcompile

/-- An attempt with the wind fails, and leaves a table of the second generation. -/
theorem exists_blown : ∃ table,
    rested.result (plainly blown) = .error (.unsupportedNode ⟨⟨2⟩, "/g/stray"⟩ .particles) ∧
      (rested.attempt (plainly blown)).backend = .particles table ∧ table.generation = 2 := by
  have htable : (Particles.allocate restedTable blown {}).map (·.generation) = .ok 2 := by
    decide +kernel
  obtain ⟨table, htable, hgeneration⟩ := map_eq_ok.mp htable
  obtain ⟨hresult, hbackend⟩ := rested_fails htable rfl
  exact ⟨table, hresult, hbackend, hgeneration⟩

/-- Where nothing else is asked for, a failed attempt leaves the table of the program; one that
    asks for a wind has the table built anew and leaves that, though it fails as well. -/
theorem rested_keeps : ∃ kept,
    (Artifact.new .particles).result (plainly resting) = .ok (.particles kept) ∧
      rested.Fails [plainly blocked] ∧
      (rested.run [plainly blocked]).output = some (.particles kept) ∧
      (rested.run [plainly blocked]).backend = .particles kept.allocations ∧
      (plainly blown).Rebuilds restedTable ∧ ∃ requests table',
        Particles.requests blown = .ok requests ∧
        restedTable.update requests {} = .ok (true, table') ∧
        (rested.attempt (plainly blown)).backend = .particles table' ∧
        table'.generation = restedTable.generation + 1 := by
  have htable : Particles.allocate restedTable blocked {} = .ok restedTable := by decide +kernel
  obtain ⟨hresult, hblocked⟩ := rested_fails htable rfl
  obtain ⟨kept, hrested, -, -, hbackend⟩ := exists_rested
  have hfails : rested.Fails [plainly blocked] := ⟨⟨_, hresult⟩, trivial⟩
  obtain ⟨kept', houtput, hprogram, hiff⟩ :=
    (table_changes_iff_rebuilds (a := Artifact.new .particles) rfl).2.2 _ _ _ hrested hfails
  cases hprogram
  obtain ⟨hsame, hbuilt, -⟩ := table_changes_iff_rebuilds hbackend
  -- the table after the failed attempt is the one before it, so it was not built anew
  have hsettled : ¬(plainly blocked).Rebuilds rested.backend.allocations := by
    rw [hbackend]
    exact (hsame _).mp hblocked
  -- and the table after the wind is of another generation, so it was
  have hblown : (plainly blown).Rebuilds restedTable := by
    obtain ⟨table, -, hleft, hgeneration⟩ := exists_blown
    have hfirst : restedTable.generation = 1 := rfl
    by_contra hnot
    rw [(hsame _).mpr hnot, Backend.particles.injEq] at hleft
    rw [← hleft] at hgeneration
    omega
  exact ⟨kept, hrested, hfails, houtput, hiff.mpr ⟨hsettled, trivial⟩, hblown, hbuilt _ hblown⟩

/-- The wind has a place after an attempt that fails: the table is neither what it was nor that
    of the program that is kept. -/
theorem rested_blown : ∃ kept e,
    rested.output = some (.particles kept) ∧ rested.backend = .particles kept.allocations ∧
      rested.result (plainly blown) = .error e ∧
      (rested.attempt (plainly blown)).output = some (.particles kept) ∧
      (rested.attempt (plainly blown)).backend ≠ .particles kept.allocations := by
  obtain ⟨table, hresult, hbackend, hgeneration⟩ := exists_blown
  obtain ⟨kept, -, hkept, houtput, hrested⟩ := exists_rested
  refine ⟨kept, _, houtput, hkept ▸ hrested, hresult, (output_of_failure hresult).trans houtput,
    fun heq => ?_⟩
  -- the table is of the second generation, that of the program of the first
  rw [hbackend, hkept, Backend.particles.injEq] at heq
  have hfirst : restedTable.generation = 1 := rfl
  rw [heq] at hgeneration
  omega

end Artifact

end ShaderFlow
