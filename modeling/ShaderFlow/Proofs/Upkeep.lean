/-
  ShaderFlow.Proofs.Upkeep — what a host sees of an artifact over time.

  A host compiles graphs, or has them compiled if they changed, in any order.  Its artifact keeps
  the last program that came of it and the error of the last compilation; a graph that was
  compiled shows that error and no other, and is otherwise what it was.

  Main definitions:
    * `Artifact.Call`     — a call of a host;
    * `Artifact.outcomes` — what the compilations of a run return;
    * `Graph.Shows`       — what a graph shows of its compilation.

  Main statements:
    * `Artifact.output_calls`, `Artifact.error_calls` — what is kept over a run;
    * `Graph.shows_compile`                      — one compilation;
    * `Artifact.output_error_and_shows_of_calls` — every call of a run.
-/

import ShaderFlow.Proofs.Attempts
import ShaderFlow.Proofs.Origins
import ShaderFlow.Proofs.Staleness

namespace ShaderFlow

/-! ## §1. Runs -/

namespace Artifact

/-- A call of a host: a graph is compiled, or is compiled if it changed. -/
inductive Call where
  | compile (x : Attempt)
  | update (x : Attempt)

/-- The graph and the settings of a call. -/
def Call.attempt : Call → Attempt
  | .compile x | .update x => x

/-- An artifact and the graph after a call. -/
def call (a : Artifact) : Call → Artifact × Graph
  | .compile x =>
    let (a, g, _) := a.compile x.graph x.context
    (a, g)
  | .update x => a.update x.graph x.context

/-- Whether a call compiles. -/
def compiles (a : Artifact) : Call → Bool
  | .compile _ => true
  | .update x => a.isStale x.graph

/-- What the compilation of a call returns, if there is one. -/
def outcome? (a : Artifact) (c : Call) : Option (Except CompileError Program) :=
  if a.compiles c then some (a.result c.attempt) else none

/-- An artifact after calls, one after the other. -/
def calls (a : Artifact) (cs : List Call) : Artifact := cs.foldl (fun a c => (a.call c).1) a

/-- What the compilations of calls return, in order. -/
def outcomes (a : Artifact) : List Call → List (Except CompileError Program)
  | [] => []
  | c :: cs => (a.outcome? c).toList ++ outcomes (a.call c).1 cs

/-- Why a compilation failed, if it did. -/
def failure? : Except CompileError Program → Option CompileError
  | .ok _ => none
  | .error e => some e

variable {a : Artifact} {c : Call}

theorem call_compile (a : Artifact) (x : Attempt) : (a.call (.compile x)).1 = a.attempt x := rfl

/-- A call that compiles is an attempt. -/
theorem call_of_compiles (h : a.compiles c = true) :
    a.call c = (a.attempt c.attempt,
      (a.compile c.attempt.graph c.attempt.context).2.1) := by
  cases c with
  | compile x => rfl
  | update x =>
    have hstale : a.isStale x.graph = true := h
    rw [call, update, if_pos hstale]
    rfl

/-- A call that does not compile does nothing. -/
theorem call_of_not_compiles (h : a.compiles c = false) : a.call c = (a, c.attempt.graph) := by
  cases c with
  | compile x => cases h
  | update x =>
    have hfresh : a.isStale x.graph = false := h
    rw [call, update, hfresh]
    rfl

/-! ## §2. What is kept -/

theorem error_attempt (a : Artifact) (x : Attempt) :
    (a.attempt x).error = failure? (a.result x) := by
  unfold attempt result compile
  rcases a.backend.compile x.graph x.context with ⟨b, p | e⟩ <;> rfl

theorem output_attempt (a : Artifact) (x : Attempt) :
    (a.attempt x).output = (a.result x).toOption.or a.output := by
  cases h : a.result x with
  | ok program => exact output_of_result h
  | error e => exact output_of_failure h

theorem output_call (a : Artifact) (c : Call) :
    (a.call c).1.output = ((a.outcome? c).bind Except.toOption).or a.output := by
  cases h : a.compiles c with
  | false => rw [call_of_not_compiles h, outcome?, h]; rfl
  | true => rw [call_of_compiles h, outcome?, h]; exact output_attempt a c.attempt

theorem error_call (a : Artifact) (c : Call) :
    (a.call c).1.error = ((a.outcome? c).map failure?).getD a.error := by
  cases h : a.compiles c with
  | false => rw [call_of_not_compiles h, outcome?, h]; rfl
  | true => rw [call_of_compiles h, outcome?, h]; exact error_attempt a c.attempt

/-- **The program that is kept over a run** is the last one that came of it. -/
theorem output_calls :
    ∀ (cs : List Call) (a : Artifact),
      (a.calls cs).output = ((a.outcomes cs).filterMap Except.toOption).getLast?.or a.output
  | [], a => by
    rw [outcomes]
    rfl
  | c :: cs, a => by
    show ((a.call c).1.calls cs).output = _
    rw [output_calls cs (a.call c).1, output_call, outcomes, List.filterMap_append,
      List.getLast?_append, Option.or_assoc]
    congr 2
    rcases a.outcome? c with _ | _ | _ <;> rfl

/-- **The error that is kept over a run** is that of the last compilation. -/
theorem error_calls :
    ∀ (cs : List Call) (a : Artifact),
      (a.calls cs).error = ((a.outcomes cs).getLast?.map failure?).getD a.error
  | [], a => by
    rw [outcomes]
    rfl
  | c :: cs, a => by
    show ((a.call c).1.calls cs).error = _
    rw [error_calls cs (a.call c).1, error_call, outcomes, List.getLast?_append]
    cases (outcomes (a.call c).1 cs).getLast? <;> cases a.outcome? c <;> rfl

end Artifact

/-! ## §3. What is shown -/

/-- What a graph shows of its compilation: that it is not dirty, the content that it had, and no
    error, or one. -/
structure Graph.Shows (g compiled : Graph) (r : Except CompileError Program) : Prop where
  clean : compiled.isDirty = false
  content : compiled.bare = g.bare
  /-- There is no error anywhere when there is a program. -/
  fine : ∀ program, r = .ok program → compiled.errors = []
  /-- Else there is the error that was returned, on the node that it names or on no node. -/
  single : ∀ e, r = .error e → compiled.errors = [(e.node?.map (·.id), e.message)]
  /-- The node that an error names is one of the hierarchy. -/
  named : ∀ e, r = .error e → ∀ ref, e.node? = some ref → ref.id ∈ compiled.ids
  /-- An error that names none is on the graph itself, not on a network inside. -/
  unnamed : ∀ e, r = .error e → e.node? = none → compiled.error = some e.message

/-- **One compilation**, where identities are different. -/
theorem Graph.shows_compile {g : Graph} (a : Artifact) (context : Context) (hids : g.ids.Nodup) :
    g.Shows (a.compile g context).2.1 (a.backend.compile g context).2 := by
  have hbare := a.bare_compile g context
  have hnames := a.backend.failsAt_compile context hids
  -- the nodes of a compiled graph are those that it had
  have hsame : (a.compile g context).2.1.ids = g.ids := by
    rw [← Graph.ids_bare, hbare, Graph.ids_bare]
  have hmarks : ∀ e, (a.backend.compile g context).2 = .error e →
      (a.compile g context).2.1.errors = [(e.node?.map (·.id), e.message)] ∧
        (e.node?.map (·.id) = none → (a.compile g context).2.1.error = some e.message) := by
    intro e he
    rw [a.graph_compile, he]
    refine Graph.errors_attachError (by rwa [Graph.ids_bare]) g.errors_bare fun id hid => ?_
    obtain ⟨ref, href, rfl⟩ := Option.map_eq_some_iff.mp hid
    rw [Graph.ids_bare]
    exact hnames e he ref href
  refine ⟨a.isDirty_compile g context, hbare, ?_, fun e he => (hmarks e he).1, ?_, ?_⟩
  · intro program hprogram
    rw [a.graph_compile, hprogram]
    exact g.errors_bare
  · intro e he ref href
    rw [hsame]
    exact hnames e he ref href
  · intro e he hnone
    exact (hmarks e he).2 (by rw [hnone]; rfl)

/-- **What a host sees.**  Take an artifact around any backend, one that has been in use included.
    After any calls, on any graphs and with any settings, the program that is kept is the last one
    that came of a compilation, and the error is that of the last compilation if it failed.  A call
    that compiles a graph whose nodes have identities of their own leaves what the graph shows of
    it; a call that does not compile changes nothing. -/
theorem Artifact.output_error_and_shows_of_calls (b : Backend) (cs : List Call) :
    ((Artifact.ofBackend b).calls cs).output =
        (((Artifact.ofBackend b).outcomes cs).filterMap Except.toOption).getLast? ∧
    ((Artifact.ofBackend b).calls cs).error =
        ((Artifact.ofBackend b).outcomes cs).getLast?.bind failure? ∧
    ∀ c : Call,
      (c.attempt.graph.ids.Nodup → ∀ r, ((Artifact.ofBackend b).calls cs).outcome? c = some r →
        c.attempt.graph.Shows (((Artifact.ofBackend b).calls cs).call c).2 r) ∧
      (((Artifact.ofBackend b).calls cs).outcome? c = none →
        ((Artifact.ofBackend b).calls cs).call c =
          ((Artifact.ofBackend b).calls cs, c.attempt.graph)) := by
  refine ⟨?_, ?_, fun c => ⟨fun hids r hr => ?_, fun hnone => ?_⟩⟩
  · rw [output_calls]
    exact Option.or_none
  · rw [error_calls]
    cases ((Artifact.ofBackend b).outcomes cs).getLast? <;> rfl
  · unfold outcome? at hr
    split at hr
    next hcompiles =>
      obtain rfl := Option.some.inj hr
      rw [call_of_compiles hcompiles, result_eq]
      exact Graph.shows_compile _ _ hids
    next => cases hr
  · unfold outcome? at hnone
    split at hnone
    next => cases hnone
    next hcompiles => exact call_of_not_compiles (by simpa using hcompiles)

namespace Artifact

/-- A material that a constant feeds. -/
def lit : Graph :=
  Edit.applyAll
    [.add ⟨1⟩ "k" (.constant (.float .one)),
     .add ⟨2⟩ "out" (.output .material),
     .connect ⟨3⟩ ⟨1⟩ "value" ⟨2⟩ "alpha"] (.empty "g")

/-- The same, with a call of a function that the library does not have. -/
def misled : Graph :=
  Edit.applyAll
    [.add ⟨4⟩ "f" (.function "nope" [] .float),
     .connect ⟨5⟩ ⟨4⟩ "result" ⟨2⟩ "color"] lit

/-- A material artifact that has compiled it. -/
def lamp : Artifact := (Artifact.ofBackend .material).attempt (plainly lit)

theorem call_lamp : ((Artifact.ofBackend .material).call (.compile (plainly lit))).1 = lamp :=
  call_compile _ _

/-- What comes of a graph of another version that does not compile. -/
theorem lamp_fails {g : Graph} {e : CompileError} (hversion : lit.version ≠ g.version)
    (h : (Backend.material.compile g {}).2 = .error e) :
    lamp.outcome? (.update (plainly g)) = some (.error e) := by
  have hstale : lamp.compiles (.update (plainly g)) = true := by
    rw [compiles, isStale, lamp, attempt, version_compile, Bool.or_eq_true]
    exact .inl (bne_iff_ne.mpr fun heq => hversion (Option.some.inj heq))
  have hresult : lamp.result (plainly g) = .error e := by
    rw [result_eq, lamp, backend_attempt]
    exact h
  rw [outcome?, if_pos hstale]
  exact congrArg some hresult

/-- The program stays when a function is missing, and the error is on the node that calls it; an
    error that no node is to blame for is on the graph. -/
theorem lamp_misled : ∃ program,
    (ofBackend .material).outcomes [.compile (plainly lit), .update (plainly misled)] =
      [.ok program, .error (.unknownFunction ⟨⟨4⟩, "/g/f"⟩ "nope")] ∧
    ((ofBackend .material).calls [.compile (plainly lit), .update (plainly misled)]).output =
      some program ∧
    ((ofBackend .material).calls [.compile (plainly lit), .update (plainly misled)]).error =
      some (.unknownFunction ⟨⟨4⟩, "/g/f"⟩ "nope") ∧
    (lamp.call (.update (plainly misled))).2.errors =
      [(some ⟨4⟩, "/g/f: unknown function 'nope'")] ∧
    (lamp.call (.update (plainly (.empty "g")))).2.errors =
      [(none, "g: one output node is required")] := by
  have hpass : (Backend.material.pass lit {}).map (fun _ => ()) = .ok () := by decide +kernel
  obtain ⟨p, hp, -⟩ := map_eq_ok.mp hpass
  obtain ⟨program, hlit, -⟩ : ∃ program,
      Backend.material.compile lit {} = (.material, .ok (.material program)) ∧ _ :=
    Backend.compile_material rfl hp
  have hfirst : (ofBackend .material).outcome? (.compile (plainly lit)) =
      some (.ok (.material program)) := by
    have hresult := (ofBackend .material).result_eq (plainly lit)
    exact congrArg some (hresult.trans (congrArg Prod.snd hlit))
  have hmisled := lamp_fails (g := misled) (by decide)
    (e := .unknownFunction ⟨⟨4⟩, "/g/f"⟩ "nope") (by decide +kernel)
  have hempty := lamp_fails (g := .empty "g") (by decide) (e := .missingOutputNode "g") rfl
  have hboth : (ofBackend .material).outcomes [.compile (plainly lit), .update (plainly misled)] =
      [.ok (.material program), .error (.unknownFunction ⟨⟨4⟩, "/g/f"⟩ "nope")] := by
    rw [outcomes, outcomes, outcomes, hfirst, call_lamp, hmisled]
    rfl
  obtain ⟨houtput, herror, -⟩ :=
    output_error_and_shows_of_calls .material [.compile (plainly lit), .update (plainly misled)]
  obtain ⟨-, -, hcalls⟩ := output_error_and_shows_of_calls .material [.compile (plainly lit)]
  rw [hboth] at houtput herror
  rw [calls, List.foldl_cons, List.foldl_nil, call_lamp] at hcalls
  refine ⟨_, hboth, houtput, herror, ?_, ?_⟩
  · exact ((hcalls (.update (plainly misled))).1 (by decide) _ hmisled).single _ rfl
  · exact ((hcalls (.update (plainly (.empty "g")))).1 (by decide) _ hempty).single _ rfl

end Artifact

end ShaderFlow
