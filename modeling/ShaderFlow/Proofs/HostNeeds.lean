/-
  ShaderFlow.Proofs.HostNeeds — what a program tells its host.

  The host of a program has to set its parameters, to provide the time, and for a point function
  to fill in the fields that are read, to take those that are written, and to declare the uniforms
  that the code names.  Nodes note such needs while they are emitted, wherever they stand, and what
  the host is told comes from these notes alone; but the code comes from what the nodes declare and
  write.  The two agree, but for the lengths of arrays: a free variable is told by the name of its
  type, which has none.

  Main definitions:
    * `Needs.Accounts`    — what the host is told, said from what was noted;
    * `Site.binding?`     — the parameter that a node asks for;
    * `Program.Tells`     — a program tells its host what its code needs;
    * `FreeVariable.line` — how the host declares a free variable.

  Main statements:
    * `Needs.accounts_ofNotes`            — each name once, where it was first noted;
    * `Backend.time_of_emitLeaf`          — which nodes need the time;
    * `Backend.timeDependent_iff`         — a program needs the time if it declares it;
    * `Backend.tells_of_compile`          — every program tells its host what its code needs;
    * `Backend.freeVariables_declare_iff` — when free variables are declared as the code has them.
-/

import ShaderFlow.Proofs.Agreement
import ShaderFlow.Proofs.Fields
import ShaderFlow.Proofs.Interface

namespace ShaderFlow

open Contribution

variable {b left : Backend} {context : Context} {g : Graph} {p : Progress} {program : Program}
  {s : Site} {cs : List Contribution} {sites : List Site} {record : String}

/-! ## §1. Needs from notes -/

namespace Access

/-- The field that is read. -/
def read? : Access → Option String
  | .read field => some field
  | .write _ => none

/-- The field that is written. -/
def write? : Access → Option String
  | .read _ => none
  | .write field => some field

@[simp] theorem filterMap_read?_list (reads writes : List String) :
    (list reads writes).filterMap read? = reads := by
  simp [list, List.filterMap_map, Function.comp_def, read?]

@[simp] theorem filterMap_write?_list (reads writes : List String) :
    (list reads writes).filterMap write? = writes := by
  simp [list, List.filterMap_map, Function.comp_def, write?]

end Access

namespace Needs

/-- What the host is told, said from what was noted: each name once, in the order in which names
    were first noted. -/
structure Accounts (n : Needs) (notes : List Note) : Prop where
  params : n.params.keys = ((notes.filterMap Note.binding?).map (·.param)).eraseDups
  reads : n.reads = ((notes.filterMap Note.access?).filterMap Access.read?).eraseDups
  writes : n.writes = ((notes.filterMap Note.access?).filterMap Access.write?).eraseDups
  time : n.timeDependent = true ↔ .time ∈ notes

theorem meet_eraseDups (names : List String) (name : String) :
    meet names.eraseDups name = (names ++ [name]).eraseDups := by
  rw [eraseDups_append_singleton, meet]
  simp only [List.contains_iff_mem, List.mem_eraseDups]

theorem keys_keep_of_keys {t : Table String ParamBinding} {names : List String}
    (h : t.keys = names.eraseDups) (name : String) (binding : ParamBinding) :
    (t.keep name binding).keys = (names ++ [name]).eraseDups := by
  rw [← meet_eraseDups, ← h, Table.keep, meet]
  simp only [Table.has_eq_true, List.contains_iff_mem]
  split
  · rfl
  · exact Table.keys_append t [(name, binding)]

/-- One more note. -/
theorem Accounts.note {notes : List Note} {n : Needs} (h : n.Accounts notes) (more : Note) :
    (n.note more).Accounts (notes ++ [more]) := by
  -- what a note says nothing of stays as it is
  have hparams : more.binding? = none →
      n.params.keys = (((notes ++ [more]).filterMap Note.binding?).map (·.param)).eraseDups := by
    intro hnone
    simp [hnone, h.params]
  have haccesses : more.access? = none →
      (notes ++ [more]).filterMap Note.access? = notes.filterMap Note.access? := by
    intro hnone
    simp [hnone]
  have htime : more ≠ .time → (n.timeDependent = true ↔ .time ∈ notes ++ [more]) := by
    intro hne
    simp [h.time, Ne.symm hne]
  cases more with
  | param binding =>
    refine ⟨?_, by rw [haccesses rfl]; exact h.reads, by rw [haccesses rfl]; exact h.writes,
      htime (by simp)⟩
    rw [List.filterMap_append, List.map_append]
    exact keys_keep_of_keys h.params binding.param binding
  | time =>
    exact ⟨hparams rfl, by rw [haccesses rfl]; exact h.reads, by rw [haccesses rfl]; exact h.writes,
      by simp [Needs.note]⟩
  | resolution =>
    exact ⟨hparams rfl, by rw [haccesses rfl]; exact h.reads, by rw [haccesses rfl]; exact h.writes,
      htime (by simp)⟩
  | reads name =>
    refine ⟨hparams rfl, ?_, ?_, htime (by simp)⟩
    · rw [List.filterMap_append, List.filterMap_append, Needs.note, h.reads, meet_eraseDups]
      rfl
    · rw [List.filterMap_append, List.filterMap_append, Needs.note, h.writes]
      exact congrArg List.eraseDups (List.append_nil _).symm
  | writes name =>
    refine ⟨hparams rfl, ?_, ?_, htime (by simp)⟩
    · rw [List.filterMap_append, List.filterMap_append, Needs.note, h.reads]
      exact congrArg List.eraseDups (List.append_nil _).symm
    · rw [List.filterMap_append, List.filterMap_append, Needs.note, h.writes, meet_eraseDups]
      rfl

/-- **What the host is told**, of all that was noted. -/
theorem accounts_ofNotes (notes : List Note) : (ofNotes notes).Accounts notes := by
  induction notes using List.reverseRecOn with
  | nil => exact ⟨rfl, rfl, rfl, by simp [ofNotes]⟩
  | append_singleton notes n ih =>
    rw [ofNotes, List.foldl_append]
    exact ih.note n

end Needs

/-! ## §2. Parameters of nodes -/

/-- The parameter that a node asks its host for. -/
def Site.binding? (s : Site) : Option ParamBinding :=
  match s.node.kind with
  | .param name type default =>
    some { node := s.ref.path, param := name, uniform := Backend.paramUniform name, type, default }
  | _ => none

/-- A node notes the parameter that it asks for, and no other. -/
theorem Backend.bindings_of_emitLeaf (h : b.emitLeaf s s.node.kind = .ok cs) :
    (notes cs).filterMap Note.binding? = s.binding?.toList := by
  by_cases hparam : ∃ name type default, s.node.kind = .param name type default
  · obtain ⟨name, type, default, hk⟩ := hparam
    rw [hk] at h
    cases h
    simp [Site.binding?, hk, emitParam, Note.binding?]
  · have hnone : s.binding? = none := by
      unfold Site.binding?
      split
      next hk => exact absurd ⟨_, _, _, hk⟩ hparam
      next => rfl
    rw [hnone, Option.toList_none, List.filterMap_eq_nil_iff]
    intro n hn
    have hforeign := emitLeaf_foreign h
      (fun name type default hk => hparam ⟨name, type, default, hk⟩) _ (mem_notes.mp hn)
    cases n with
    | param binding => cases hforeign
    | _ => rfl

/-! ## §3. The time -/

theorem Site.Samples.ne_time {c : Contribution} (h : s.Samples c) : c ≠ .note .time := by
  cases h <;> nofun

theorem Material.time_of_readAttribute (name : String) (type : PortType) :
    .note .time ∉ (readAttribute s name type).contributions := by
  unfold readAttribute
  split <;> simp

/-- Of the values of the host only the time needs the time. -/
theorem Backend.ReadsGlobal.time_iff {output : String} {r : Reading}
    (h : b.ReadsGlobal s output r) : .note .time ∈ r.contributions ↔ output = "time" := by
  have hother : output ∉ Kind.builtins → output ≠ "time" := by
    rintro hnot rfl
    exact hnot (by decide)
  cases h with
  | time => simp [Site.readTime]
  | resolution _ => simp [Site.readResolution]
  | noted | fragCoord _ => simp
  | position => exact iff_of_false (Material.time_of_readAttribute _ _) (by decide)
  | uv houtput =>
    exact iff_of_false (Material.time_of_readAttribute _ _)
      (hother (List.not_mem_of_not_mem_cons houtput))
  | sampled hread =>
    exact iff_of_false (fun hmem => (Particles.samples_read hread _ hmem).ne_time rfl) (by decide)
  | place houtput =>
    exact iff_of_false (List.not_mem_nil) (hother (List.not_mem_of_not_mem_cons houtput))
  | field houtput =>
    exact iff_of_false (fun hmem => (Points.samples_readField _ _ hmem).ne_time rfl)
      (hother houtput)

/-- What samples attributes and writes others needs no time. -/
theorem time_of_exchange {readings : List Reading} {writes : List (Contribution × Statement)}
    (hreadings : ∀ r ∈ readings, ∀ c ∈ r.contributions, s.Samples c)
    (hwrites : ∀ write ∈ writes, ∃ name, write.1 = .note (.writes name)) :
    .note .time ∉ s.exchange readings writes := by
  intro htime
  refine Site.forall_mem_exchange (fun r hr c hc => (hreadings r hr c hc).ne_time) ?_ ?_ _ htime rfl
  · intro write hwrite
    obtain ⟨name, hnote⟩ := hwrites write hwrite
    simp [hnote]
  · simp [Contribution.statements]

/-- Nor does the output node of a material. -/
theorem Material.time_of_vertex {position : Reading} {definitions : List Contribution}
    {body last : List Statement} (hposition : Material.position s = .ok position)
    (hnormal : Material.normal s = .ok (definitions, body)) :
    .note .time ∉ position.contributions ++ definitions ++ [.statements s.stage last] := by
  have hquiet : .note .time ∉ position.contributions := by
    rcases Material.position_cases hposition with ⟨o, _, _, rfl⟩ | ⟨_, rfl⟩
    · simp
    · exact Material.time_of_readAttribute _ _
  rcases Material.normal_cases hnormal with ⟨_, rfl, _⟩ | ⟨o, _, _, rfl, _⟩ <;>
    simpa [Contribution.statements] using hquiet

/-- **Which nodes need the time**: those that provide it to something. -/
theorem Backend.time_of_emitLeaf (hfound : s.graph.node? s.node.id = some s.node)
    (h : b.emitLeaf s s.node.kind = .ok cs) :
    .note .time ∈ cs ↔
      s.node.kind = .globals ∧ s.graph.isOutputConnected s.node.id "time" = true := by
  cases Site.emits_of_emitLeaf h with
  | globals hk hreadings =>
    have hconnected : "time" ∈ s.graph.connectedOutputs s.node.id ↔
        s.graph.isOutputConnected s.node.id "time" = true := by
      rw [Site.mem_connectedOutputs hk hfound, and_iff_right (by decide)]
    rw [hk, eq_self, true_and, ← hconnected]
    constructor
    · intro hmem
      rcases List.mem_append.mp hmem with hmem | hmem
      · obtain ⟨r, hr, hmem⟩ := List.mem_flatMap.mp hmem
        obtain ⟨output, houtput, hread⟩ := exists_mem_of_forall₂ hreadings.flip r hr
        rw [← hread.time_iff.mp hmem]
        exact houtput
      · cases List.mem_singleton.mp hmem
    · intro hmem
      obtain ⟨r, hr, hread⟩ := exists_mem_of_forall₂ hreadings "time" hmem
      exact List.mem_append_left _ (List.mem_flatMap.mpr ⟨r, hr, hread.time_iff.mpr rfl⟩)
  | @«attribute» name type _ hk h =>
    rw [hk]
    refine iff_of_false ?_ (by simp)
    cases h with
    | read => simpa [Contribution.statements] using Material.time_of_readAttribute name type
    | exchanged _ hreadings hwrites =>
      refine time_of_exchange hreadings.samples fun write hwrite => ?_
      exact ⟨_, hwrites.note_eq write hwrite⟩
  | output hk h =>
    rw [hk]
    refine iff_of_false ?_ (by simp)
    cases h with
    | vertex _ hposition hnormal => exact Material.time_of_vertex hposition hnormal
    | fragment _ _ _ => simp [Contribution.statements]
    | written _ hwrites =>
      refine time_of_exchange (List.forall_mem_nil _) fun write hwrite => ?_
      obtain ⟨name, _, hnote⟩ := hwrites.note_eq write hwrite
      exact ⟨name, hnote⟩
  | param hk => simp [hk, emitParam, Contribution.statements]
  -- these only compute
  | constant hk | math hk _ | varyingWrite hk _ | varyingRead hk | function hk _ _
  | subnetOutput hk _ =>
    refine iff_of_false (fun hmem => ?_) (by simp [hk])
    have hcomputation := isComputation_of_emitLeaf (by rw [hk]; rfl) h _ hmem
    cases hcomputation
  | subnet hk | subnetInput hk => exact iff_of_false List.not_mem_nil (by simp [hk])

/-- What is declared under the name of the time is the time, for a node that provides it, or in a
    particle system a sampler. -/
theorem Backend.time_cases (hp : b.pass g context = .ok p) {stage : Stage} {d : Declaration}
    (hd : d ∈ p.declared stage) (hkey : d.key = (.uniform, "time")) :
    (d = .uniform .float "time" ∧ ∃ s, b.Meets g context s ∧ s.node.kind = .globals ∧
        s.graph.isOutputConnected s.node.id "time" = true) ∨
      ∃ table texture, b = .particles table ∧ d = .uniform .texture texture := by
  -- either every stage has it or a node asks for it; only the table may name a texture like this
  rcases asks_of_declared hp hd with ⟨-, hbase⟩ | ⟨s, hs, hasks⟩
  · right
    cases b with
    | particles table =>
      simp only [declarations, Particles.declarations, List.mem_cons, List.not_mem_nil,
        or_false] at hbase
      rcases hbase with rfl | rfl | rfl
      · cases (Prod.mk.inj hkey).1
      · exact absurd (Prod.mk.inj hkey).2 (by decide)
      · exact ⟨table, _, rfl, rfl⟩
    | material =>
      rw [List.mem_singleton.mp hbase] at hkey
      cases (Prod.mk.inj hkey).1
    | points => cases hbase
  · cases hasks with
    | param _ _ hd =>
      subst hd
      have hname := congrArg (·.toList.head?) (Prod.mk.inj hkey).2
      simp [Declaration.name, paramUniform] at hname
    | time hk hused _ hd => exact .inl ⟨hd, s, hs, hk, hused⟩
    | resolution _ _ _ _ hd =>
      subst hd
      exact absurd (Prod.mk.inj hkey).2 (by decide)
    | channels hb _ _ _ hd => exact .inr ⟨_, _, hb, hd⟩
    | function _ _ _ hd | varying _ _ hd | written _ _ _ hd | normal _ _ _ _ _ hd
    | «attribute» _ _ _ hd | relay _ _ _ _ hd =>
      subst hd
      cases (Prod.mk.inj hkey).1

/-- **A program needs the time if and only if it declares it.** -/
theorem Backend.timeDependent_iff (hp : b.pass g context = .ok p) :
    p.needs.timeDependent = true ↔ ∃ stage, .uniform .float "time" ∈ p.declared stage := by
  rw [Progress.needs, (Needs.accounts_ofNotes p.notes).time]
  constructor
  · intro hnote
    obtain ⟨s, cs, hs, hemit, hmem⟩ := meets_of_pass_note hp hnote
    have hmet := hs
    obtain ⟨_, _, _, hmet⟩ := hmet
    obtain ⟨hk, hused⟩ := (time_of_emitLeaf hmet.found hemit).mp hmem
    exact ⟨s.stage, declared_of_asks hp hs (.time hk hused rfl rfl) (by decide)⟩
  · rintro ⟨stage, hdeclared⟩
    rcases time_cases hp hdeclared rfl with ⟨-, s, hs, hk, hused⟩ | ⟨_, _, -, hsampler⟩
    · obtain ⟨cs, hemit, -, hnoted⟩ := declares_of_meets hp hs (by simp [hk])
      obtain ⟨_, _, _, hmet⟩ := hs
      exact hnoted _ ((time_of_emitLeaf hmet.found hemit).mpr ⟨hk, hused⟩)
    · cases hsampler

/-- Outside of particle systems, whose samplers may have any names, the name alone tells. -/
theorem Backend.time_mem_keys_iff (hp : b.pass g context = .ok p)
    (hb : ∀ table, b ≠ .particles table) (stage : Stage) :
    (.uniform, "time") ∈ p.keys stage ↔ .uniform .float "time" ∈ p.declared stage := by
  rw [Progress.keys_eq, List.mem_map]
  constructor
  · rintro ⟨d, hd, hkey⟩
    rcases time_cases hp hd hkey with ⟨rfl, -⟩ | ⟨table, _, hparticles, -⟩
    · exact hd
    · exact absurd hparticles (hb table)
  · exact fun hd => ⟨_, hd, rfl⟩

/-! ## §4. Passes -/

/-- **The parameters that a pass notes** are those of its nodes, in order. -/
theorem Backend.Visits.bindings (hp : b.pass g context = .ok p)
    (hsites : b.Visits g context sites) :
    p.notes.filterMap Note.binding? = sites.filterMap Site.binding? := by
  obtain ⟨output, builds, hbuilds⟩ := builds_of_pass hp
  obtain ⟨sites', hsites', hgather⟩ := hbuilds.visits
  obtain rfl := hsites.unique hsites'
  have hgathers : ∀ stage ∈ b.stages, Gathers b context stage
      (fun cs => (notes cs).filterMap Note.binding?) fun s => s.binding?.toList :=
    fun _ _ => gathers_notes fun _ hemit => bindings_of_emitLeaf hemit
  rw [hbuilds.notes_eq, List.filterMap_eq_flatMap_toList Site.binding?, ← hgather hgathers,
    List.filterMap_flatMap]
  simp only [List.filterMap_flatMap]

/-- A body reads fields as its nodes do, if it does with them what its nodes do, and writes them
    as its nodes do. -/
theorem fields_of_accesses {body : List Statement}
    (h : body.flatMap (Statement.accesses record) = sites.flatMap Site.accesses) :
    body.flatMap (Statement.fieldsRead record) = sites.flatMap Site.fieldsRead ∧
      body.flatMap (Statement.fieldsWritten record) = sites.flatMap Site.fieldsWritten := by
  have hread := congrArg (List.filterMap Access.read?) h
  have hwritten := congrArg (List.filterMap Access.write?) h
  simp only [List.filterMap_flatMap, Statement.accesses, Site.accesses,
    Access.filterMap_read?_list, Access.filterMap_write?_list] at hread hwritten
  exact ⟨hread, hwritten⟩

/-! ## §5. Programs -/

/-- What a program tells its host, said from the nodes that it was built from and from its code. -/
structure Program.Tells (program : Program) (b : Backend) (config : Config) (p : Progress)
    (sites : List Site) : Prop where
  /-- Each parameter once, in the order in which nodes first ask for one of its name. -/
  names : program.params.keys = ((sites.filterMap Site.binding?).map (·.param)).eraseDups
  /-- As the first node has it. -/
  bindings : ∀ name, program.params.get? name =
    (sites.filterMap Site.binding?).find? (·.param == name)
  time : (∀ table, b ≠ .particles table) →
    (program.timeDependent = true ↔ ∃ stage, (.uniform, "time") ∈ p.keys stage)
  /-- The fields that statements of a point function read, which are those that its nodes read. -/
  reads : ∀ m, program = .points m →
    m.reads = ((p.statements .point).flatMap
        (Statement.fieldsRead config.points.pointVariable)).eraseDups ∧
      m.reads = (sites.flatMap Site.fieldsRead).eraseDups
  /-- The fields that they assign, which are those that its nodes write. -/
  writes : ∀ m, program = .points m →
    m.writes = ((p.statements .point).flatMap
        (Statement.fieldsWritten config.points.pointVariable)).eraseDups ∧
      m.writes = (sites.flatMap Site.fieldsWritten).eraseDups

namespace Backend

/-- Only a point builder makes a point program. -/
theorem points_of_program {m : PointProgram} (h : b.compile g context = (left, .ok (.points m))) :
    b = .points := by
  cases b with
  | points => rfl
  | material =>
    obtain ⟨-, hcompiled⟩ := Prod.mk.inj h
    obtain ⟨p, -, hcompiled⟩ := bind_eq_ok.mp hcompiled
    obtain ⟨other, -, hprogram⟩ := bind_eq_ok.mp hcompiled
    cases hprogram
  | particles table =>
    obtain ⟨_, _, _, -, hprogram, -⟩ := particles_of_compile h
    cases hprogram

/-- **Every program tells its host what its code needs.** -/
theorem tells_of_compile (h : b.compile g context = (left, .ok program)) :
    ∃ p sites, left.pass g context = .ok p ∧ left.Visits g context sites ∧
      program.Tells left context.config p sites := by
  obtain ⟨p, hp, hparams, htime⟩ := needs_of_compile h
  obtain ⟨output, builds, hbuilds⟩ := builds_of_pass hp
  obtain ⟨sites, hsites, -⟩ := hbuilds.visits
  have hneeds := Needs.accounts_ofNotes p.notes
  have hbindings := hsites.bindings hp
  -- what a point builder does with its point it does at its nodes, and so it notes it
  have hpoints : ∀ m, program = .points m → m.reads = p.needs.reads ∧ m.writes = p.needs.writes ∧
      (p.statements .point).flatMap (Statement.accesses context.config.points.pointVariable) =
        sites.flatMap Site.accesses ∧
      p.notes.filterMap Note.access? = sites.flatMap Site.accesses := by
    rintro m rfl
    obtain rfl := points_of_program h
    obtain ⟨p', m', rfl, hm', hp', hassemble⟩ := points_of_compile h
    cases hm'
    obtain rfl := Except.ok.inj (hp.symm.trans hp')
    obtain ⟨-, -, hreads, hwrites, -⟩ := PointProgram.of_assemble hassemble
    obtain ⟨sites', hsites', hbody, hnotes⟩ := accesses_of_pass hp
    obtain rfl := hsites.unique hsites'
    exact ⟨hreads, hwrites, hbody, hnotes⟩
  refine ⟨p, sites, hp, hsites, ?_, ?_, ?_, ?_, ?_⟩
  · rw [hparams, Progress.needs, hneeds.params, hbindings]
  · intro name
    rw [hparams, Progress.needs, Needs.get?_params, hbindings]
  · intro hb
    rw [htime, timeDependent_iff hp]
    simp only [time_mem_keys_iff hp hb]
  · intro m hm
    obtain ⟨hreads, -, hbody, hnotes⟩ := hpoints m hm
    have hnoted : m.reads = (sites.flatMap Site.fieldsRead).eraseDups := by
      rw [hreads, Progress.needs, hneeds.reads, hnotes, List.filterMap_flatMap]
      simp only [Site.accesses, Access.filterMap_read?_list]
    exact ⟨(fields_of_accesses hbody).1 ▸ hnoted, hnoted⟩
  · intro m hm
    obtain ⟨-, hwrites, hbody, hnotes⟩ := hpoints m hm
    have hnoted : m.writes = (sites.flatMap Site.fieldsWritten).eraseDups := by
      rw [hwrites, Progress.needs, hneeds.writes, hnotes, List.filterMap_flatMap]
      simp only [Site.accesses, Access.filterMap_write?_list]
    exact ⟨(fields_of_accesses hbody).2 ▸ hnoted, hnoted⟩

/-- A point that stays where it is, and whose size is the time and two parameters `s`, one of them
    inside a subnet. -/
def growing : Graph :=
  { Graph.empty "g" with
    nodes :=
      [.make ⟨1⟩ "out" (.output .points),
       .make ⟨2⟩ "glob" .globals,
       .make ⟨3⟩ "inner" (.subnet (inlet (.float .one))),
       .make ⟨4⟩ "outer" (.param "s" .float (.float .zero)),
       .make ⟨5⟩ "both" (.math .add .float),
       .make ⟨6⟩ "later" (.math .add .float),
       .make ⟨7⟩ "size" (.attribute "size" .float)]
    connections :=
      [⟨⟨8⟩, ⟨2⟩, "position", ⟨1⟩, "position"⟩, ⟨⟨9⟩, ⟨3⟩, "y", ⟨5⟩, "a"⟩,
       ⟨⟨12⟩, ⟨4⟩, "value", ⟨5⟩, "b"⟩, ⟨⟨13⟩, ⟨5⟩, "result", ⟨6⟩, "a"⟩,
       ⟨⟨14⟩, ⟨2⟩, "time", ⟨6⟩, "b"⟩, ⟨⟨15⟩, ⟨6⟩, "result", ⟨7⟩, "export"⟩]
    version := 15 }

/-- The parameter is told once, as the subnet has it. -/
theorem growing_tells : ∃ m p sites,
    Backend.points.compile growing {} = (.points, .ok (.points m)) ∧
      Backend.points.pass growing {} = .ok p ∧ Backend.points.Visits growing {} sites ∧
      (Program.points m).Tells .points {} p sites ∧
      m.params.map (fun entry => (entry.1, entry.2.node)) = [("s", "/g/inner/s")] ∧
      m.reads = ["position"] ∧ m.writes = ["position", "size"] ∧ m.timeDependent = true := by
  have hpass : (Backend.points.pass growing {}).map (fun p =>
      (p.needs.params.map fun entry => (entry.1, entry.2.node),
        (p.statements .point).flatMap (Statement.fieldsRead "point"),
        (p.statements .point).flatMap (Statement.fieldsWritten "point"),
        p.keys .point)) =
      .ok ([("s", "/g/inner/s")], ["position"], ["position", "size"],
        [(.uniform, "time"), (.uniform, "param_s")]) := by
    decide +kernel
  obtain ⟨p, hp, heval⟩ := map_eq_ok.mp hpass
  obtain ⟨hparams, hreads, hwrites, hkeys⟩ : _ ∧ _ ∧ _ ∧ _ := by
    simpa only [Prod.mk.injEq] using heval
  obtain ⟨m, hcompile, htold⟩ := compile_points hp
  obtain ⟨p', sites, hp', hsites, htells⟩ := tells_of_compile hcompile
  obtain rfl := Except.ok.inj (hp.symm.trans hp')
  refine ⟨m, p, sites, hcompile, hp, hsites, htells, htold ▸ hparams, ?_, ?_, ?_⟩
  · rw [(htells.reads m rfl).1]
    exact congrArg List.eraseDups hreads
  · rw [(htells.writes m rfl).1]
    exact congrArg List.eraseDups hwrites
  · refine (htells.time nofun).mpr ⟨.point, ?_⟩
    rw [hkeys]
    exact List.mem_cons_self

end Backend

/-! ## §6. Free variables -/

/-- How the host declares a free variable. -/
def FreeVariable.line (v : FreeVariable) : String := "uniform " ++ v.type ++ " " ++ v.name ++ ";"

theorem PortType.lengthSuffix_eq_empty {type : PortType} :
    type.lengthSuffix = "" ↔ ∀ element length, type ≠ .array element length := by
  cases type with
  | array element length =>
    refine iff_of_false (fun h => ?_) fun h => h element length rfl
    simpa [lengthSuffix] using congrArg String.toList h
  | _ => exact iff_of_true rfl (by simp)

namespace PointProgram

/-- A free variable is declared as its uniform is, unless that is an array. -/
theorem line_freeVariable_iff (type : PortType) (name : String) :
    (⟨name, type.glslName⟩ : FreeVariable).line = (Declaration.uniform type name).line ↔
      ∀ element length, type ≠ .array element length := by
  rw [← PortType.lengthSuffix_eq_empty, FreeVariable.line, Declaration.line, PortType.declare_eq,
    ← String.toList_inj, ← String.toList_inj]
  simp [String.toList_append]

/-- Free variables have the names of the uniforms. -/
theorem names_freeVariables (definitions : List Definition) :
    ((definitions.filterMap freeVariable?).map (·.name)).map (Prod.mk DefinitionKind.uniform) =
      (definitions.map (·.declaration.key)).filter (·.1 == .uniform) := by
  induction definitions with
  | nil => rfl
  | cons d definitions ih =>
    rw [List.filterMap_cons, List.map_cons, List.filter_cons, ← ih, freeVariable?]
    cases d.declaration <;> rfl

theorem mem_freeVariables {definitions : List Definition} {v : FreeVariable} :
    v ∈ definitions.filterMap freeVariable? ↔ ∃ type,
      .uniform type v.name ∈ definitions.map (·.declaration) ∧ v.type = type.glslName := by
  rw [List.mem_filterMap]
  constructor
  · rintro ⟨d, hd, hv⟩
    unfold freeVariable? at hv
    split at hv
    next type name hdecl =>
      cases hv
      exact ⟨type, List.mem_map.mpr ⟨d, hd, hdecl⟩, rfl⟩
    next => cases hv
  · rintro ⟨type, hd, htype⟩
    obtain ⟨d, hd, hdecl⟩ := List.mem_map.mp hd
    refine ⟨d, hd, ?_⟩
    rw [freeVariable?, hdecl]
    exact congrArg (fun word => some (FreeVariable.mk v.name word)) htype.symm

end PointProgram

/-- **When free variables are declared as the code has them.**  A point function has one free
    variable for each uniform that it declares, and no other.  Declaring a free variable by its
    type and name is what the uniform says exactly if it is no array, and for all of them if no
    node that the function comes to is a parameter that holds an array. -/
theorem Backend.freeVariables_declare_iff {m : PointProgram}
    (h : b.compile g context = (left, .ok (.points m))) :
    ∃ p, Backend.points.pass g context = .ok p ∧
      (∀ type name, .uniform type name ∈ p.declared .point →
        ∃ v, m.freeVariables.filter (·.name == name) = [v] ∧
          (v.line = (Declaration.uniform type name).line ↔
            ∀ element length, type ≠ .array element length)) ∧
      (∀ v ∈ m.freeVariables, ∃ type, .uniform type v.name ∈ p.declared .point) ∧
      ((∀ type name, .uniform type name ∈ p.declared .point →
          ∃ v ∈ m.freeVariables, v.name = name ∧ v.line = (Declaration.uniform type name).line) ↔
        ∀ name element length,
          ¬Backend.points.Uses g context .point name (.array element length)) := by
  obtain rfl := points_of_program h
  obtain ⟨p, m', rfl, hm', hp, hassemble⟩ := points_of_compile h
  cases hm'
  obtain ⟨-, -, -, -, hfree⟩ := PointProgram.of_assemble hassemble
  have hnodup : (m.freeVariables.map (·.name)).Nodup := by
    refine List.Nodup.of_map (Prod.mk DefinitionKind.uniform) ?_
    rw [hfree, PointProgram.names_freeVariables]
    exact (nodup_definitions hp .point).filter _
  have hone : ∀ type name, .uniform type name ∈ p.declared .point →
      m.freeVariables.filter (·.name == name) = [⟨name, type.glslName⟩] := by
    intro type name hd
    have hv : (⟨name, type.glslName⟩ : FreeVariable) ∈ m.freeVariables := by
      rw [hfree, PointProgram.mem_freeVariables]
      exact ⟨type, hd, rfl⟩
    exact filter_key_eq hnodup hv
  refine ⟨p, hp, ?_, ?_, ?_, ?_⟩
  · intro type name hd
    exact ⟨_, hone type name hd, PointProgram.line_freeVariable_iff type name⟩
  · intro v hv
    rw [hfree, PointProgram.mem_freeVariables] at hv
    obtain ⟨type, hd, -⟩ := hv
    exact ⟨type, hd⟩
  · intro hall name element length huses
    obtain ⟨d, hd, hdecl⟩ := declares_of_uses hp huses
    have hdeclared := hdecl ▸ List.mem_map_of_mem (f := Definition.declaration) hd
    obtain ⟨v, hv, hname, hline⟩ := hall _ _ hdeclared
    -- the free variable of this name is the one of the parameter
    have hmem : v ∈ m.freeVariables.filter (·.name == paramUniform name) :=
      List.mem_filter.mpr ⟨hv, beq_iff_eq.mpr hname⟩
    rw [hone _ _ hdeclared, List.mem_singleton] at hmem
    rw [hmem] at hline
    exact (PointProgram.line_freeVariable_iff _ _).mp hline element length rfl
  · intro hnone type name hd
    have hmem := (hone type name hd).symm ▸ List.mem_singleton_self _
    refine ⟨_, List.mem_of_mem_filter hmem, rfl, ?_⟩
    rw [PointProgram.line_freeVariable_iff]
    rintro element length rfl
    -- only parameters are declared as arrays
    rcases asks_of_declared hp hd with ⟨-, hbase⟩ | ⟨s, hs, hasks⟩
    · cases hbase
    · cases hasks with
      | param hk htarget hd =>
        cases hd
        exact hnone _ element length ⟨s, _, hs, htarget.symm, hk⟩
      | _ => simp_all

/-- A function of weights that have the given type. -/
def weigh (type : PortType) : ShaderFunction where
  name := "weigh"
  description := "Weighs a point"
  inputs := [⟨"weights", type⟩]
  output := .vector3
  source := Library.definition ("vec3 weigh(" ++ type.declare "weights" ++ ")")
    ["return vec3(1.0);"]

/-- A library of this function alone. -/
def weighingContext (type : PortType) : Context where
  library := Library.register {} (weigh type)

/-- A point whose position comes from weights, which are a parameter. -/
def weighing (type : PortType) : Graph :=
  { Graph.empty "g" with
    nodes :=
      [.make ⟨1⟩ "out" (.output .points),
       .make ⟨2⟩ "weights" (.param "weights" type (.float .one)),
       .make ⟨3⟩ "weigh" (.function "weigh" [⟨"weights", type⟩] .vector3)]
    connections :=
      [⟨⟨4⟩, ⟨2⟩, "value", ⟨3⟩, "weights"⟩, ⟨⟨5⟩, ⟨3⟩, "result", ⟨1⟩, "position"⟩]
    version := 5 }

/-- One weight is declared as the code has it. -/
theorem weighing_one : ∃ m p,
    Backend.points.compile (weighing .float) (weighingContext .float) =
        (.points, .ok (.points m)) ∧
      Backend.points.pass (weighing .float) (weighingContext .float) = .ok p ∧
      .uniform .float "param_weights" ∈ p.declared .point ∧
      (∃ v, m.freeVariables.filter (·.name == "param_weights") = [v] ∧
        v.line = "uniform float param_weights;") ∧
      ∀ name element length, ¬Backend.points.Uses (weighing .float) (weighingContext .float) .point
        name (.array element length) := by
  have hpass : (Backend.points.pass (weighing .float) (weighingContext .float)).map
      (fun p => (p.declared .point).filter (·.kind == .uniform)) =
      .ok [.uniform .float "param_weights"] := by
    decide +kernel
  obtain ⟨p, hp, huniforms⟩ := map_eq_ok.mp hpass
  have hmem : ∀ d, (d ∈ p.declared .point ∧ d.kind = .uniform) ↔
      d = .uniform .float "param_weights" := by
    intro d
    have hfiltered := List.mem_singleton (a := d) (b := .uniform .float "param_weights")
    rw [← huniforms] at hfiltered
    simpa using hfiltered
  have hdeclared := ((hmem _).mpr rfl).1
  obtain ⟨m, hcompile, -⟩ := Backend.compile_points hp
  obtain ⟨p', hp', hone, -, hall⟩ := Backend.freeVariables_declare_iff hcompile
  obtain rfl := Except.ok.inj (hp.symm.trans hp')
  obtain ⟨v, hv, hiff⟩ := hone _ _ hdeclared
  have hline := hiff.mpr nofun
  refine ⟨m, p, hcompile, hp, hdeclared, ⟨v, hv, hline⟩, hall.mp fun type name hd => ?_⟩
  obtain ⟨rfl, rfl⟩ := Declaration.uniform.inj ((hmem _).mp ⟨hd, rfl⟩)
  obtain ⟨hfree, hname⟩ := List.mem_filter.mp (hv.symm ▸ List.mem_singleton_self v)
  exact ⟨v, hfree, eq_of_beq hname, hline⟩

/-- Four weights are an array in the code, and one number for the host. -/
theorem weighing_four : ∃ m p,
    Backend.points.compile (weighing (.array .float 4)) (weighingContext (.array .float 4)) =
        (.points, .ok (.points m)) ∧
      Backend.points.pass (weighing (.array .float 4)) (weighingContext (.array .float 4)) =
        .ok p ∧
      (.uniform (.array .float 4) "param_weights") ∈ p.declared .point ∧
      (Declaration.uniform (.array .float 4) "param_weights").line =
        "uniform float param_weights[4];" ∧
      m.freeVariables.map FreeVariable.line = ["uniform float param_weights;"] := by
  have hpass : (Backend.points.pass (weighing (.array .float 4))
      (weighingContext (.array .float 4))).map (fun p =>
        ((p.declared .point).contains (.uniform (.array .float 4) "param_weights"),
          ((p.listing.definitionsOf .point).filterMap PointProgram.freeVariable?).map
            FreeVariable.line)) = .ok (true, ["uniform float param_weights;"]) := by
    decide +kernel
  obtain ⟨p, hp, heval⟩ := map_eq_ok.mp hpass
  obtain ⟨hdeclared, hlines⟩ := Prod.mk.inj heval
  obtain ⟨m, hcompile, -⟩ := Backend.compile_points hp
  obtain ⟨p', m', -, hm', hp', hassemble⟩ := Backend.points_of_compile hcompile
  cases hm'
  obtain rfl := Except.ok.inj (hp.symm.trans hp')
  obtain ⟨-, -, -, -, hfree⟩ := PointProgram.of_assemble hassemble
  refine ⟨m, p, hcompile, hp, List.contains_iff_mem.mp hdeclared, by decide, ?_⟩
  rw [hfree]
  exact hlines

end ShaderFlow
