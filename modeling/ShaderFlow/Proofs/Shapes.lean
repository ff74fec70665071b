/-
  ShaderFlow.Proofs.Shapes — what a node without a network adds, kind by kind.

  What the functions that emit code come to is read off them once.  There is one case for each
  kind of node, and one for each way in which a backend handles outputs, attributes and values
  of the host; a case names what was computed on the way.  What is proved of leaves elsewhere
  goes through these cases and opens none of the functions.

  Main definitions:
    * `Backend.ReadsGlobal` — how a value of the host is read;
    * `Site.exchange`       — values of the host that are read, and others that are written;
    * `Site.Emits`          — what a node adds.

  Main statements:
    * `Backend.readsGlobal_of_readGlobal`, `Site.emits_of_emitLeaf` — there are no other cases.
-/

import ShaderFlow.Compile.Emission
import ShaderFlow.Proofs.Basic

namespace ShaderFlow

variable {b : Backend} {s : Site} {cs : List Contribution}

/-! ## §1. Values of the host -/

/-- The values that have the same name in every backend and are no attributes. -/
def Kind.builtins : List String := ["time", "resolution", "frag_coord"]

/-- How a value of the host is read. -/
inductive Backend.ReadsGlobal (s : Site) : Backend → String → Reading → Prop where
  | time {b : Backend} : ReadsGlobal s b "time" s.readTime
  | resolution {b : Backend} (hb : ∀ table, b ≠ .particles table) :
      ReadsGlobal s b "resolution" s.readResolution
  /-- Every stage of particles declares the uniform on its own. -/
  | noted {table : Allocations} :
      ReadsGlobal s (.particles table) "resolution"
        { contributions := [.note .resolution], operand := .uniform "resolution" }
  | fragCoord {b : Backend} {operand : Operand}
      (hoperand : operand = .zero .vector4 ∨ operand = .builtin "gl_FragCoord") :
      ReadsGlobal s b "frag_coord" { operand }
  | position :
      ReadsGlobal s .material "position" (Material.readAttribute s "position" .vector3)
  | uv {output : String} (houtput : output ∉ "position" :: Kind.builtins) :
      ReadsGlobal s .material output (Material.readAttribute s "uv" .vector2)
  | sampled {table : Allocations} {r : Reading}
      (hread : Particles.read table s "position" .vector3 = .ok r) :
      ReadsGlobal s (.particles table) "position" r
  | place {table : Allocations} {output : String} (houtput : output ∉ "position" :: Kind.builtins) :
      ReadsGlobal s (.particles table) output { operand := .builtin "particleUV" }
  | field {output : String} (houtput : output ∉ Kind.builtins) :
      ReadsGlobal s .points output (Points.readField s output)

/-- A value of the host is read in one of these ways. -/
theorem Backend.readsGlobal_of_readGlobal {output : String} {r : Reading}
    (h : b.readGlobal s output = .ok r) : b.ReadsGlobal s output r := by
  cases b with
  | material =>
    simp only [readGlobal, Material.readGlobal] at h
    split at h
    · cases h
      exact .time
    · cases h
      exact .resolution (by simp)
    · split at h <;> cases h <;> exact .fragCoord (by simp)
    · cases h
      exact .position
    · cases h
      exact .uv (by simp_all [Kind.builtins])
  | particles table =>
    simp only [readGlobal, Particles.readGlobal] at h
    split at h
    · cases h
      exact .time
    · cases h
      exact .noted
    · cases h
      exact .fragCoord (.inr rfl)
    · exact .sampled h
    · cases h
      exact .place (by simp_all [Kind.builtins])
  | points =>
    simp only [readGlobal, Points.readGlobal] at h
    split at h
    · cases h
      exact .time
    · cases h
      exact .resolution (by simp)
    · cases h
      exact .fragCoord (.inl rfl)
    · cases h
      exact .field (by simp_all [Kind.builtins])

/-- The one value of the host that is left has the name of an attribute. -/
theorem Kind.eq_uv_of_mem_globalOutputs {output : String}
    (houtput : output ∈ globalOutputs.map (·.name)) (hother : output ∉ "position" :: builtins) :
    output = "uv" := by
  simp_all [globalOutputs, builtins, Port.output]

namespace Site

/-- The outputs of a node that provides values of the host which something asks for. -/
theorem mem_connectedOutputs (hk : s.node.kind = .globals)
    (hfound : s.graph.node? s.node.id = some s.node) {output : String} :
    output ∈ s.graph.connectedOutputs s.node.id ↔
      output ∈ Kind.globalOutputs.map (·.name) ∧
        s.graph.isOutputConnected s.node.id output = true := by
  rw [Graph.connectedOutputs, hfound, List.mem_filter, Node.outputs, hk]
  rfl

/-- Declares outputs with what was read for them. -/
def declareAll (s : Site) (outputs : List String) (readings : List Reading) : List Statement :=
  List.zipWith (fun output (r : Reading) => s.declare output (.operand r.operand)) outputs readings

theorem mem_declareAll {outputs : List String} {readings : List Reading} {st : Statement}
    (h : st ∈ s.declareAll outputs readings) :
    ∃ output, ∃ r ∈ readings, st = s.declare output (.operand r.operand) := by
  rw [declareAll, ← List.map_uncurry_zip_eq_zipWith, List.mem_map] at h
  obtain ⟨⟨output, r⟩, hmem, rfl⟩ := h
  exact ⟨output, r, (List.of_mem_zip hmem).2, rfl⟩

/-! ## §2. Exchange with the host -/

/-- What a node adds that reads values of the host into its output and writes others back. -/
def exchange (s : Site) (readings : List Reading) (writes : List (Contribution × Statement)) :
    List Contribution :=
  readings.flatMap (·.contributions) ++ writes.map (·.1) ++
    [.statements s.stage
      ((readings.map fun r => s.declare "value" (.operand r.operand)) ++ writes.map (·.2))]

/-- What holds of what is read, of what is written and of all code holds of what is exchanged. -/
theorem forall_mem_exchange {P : Contribution → Prop} {readings : List Reading}
    {writes : List (Contribution × Statement)}
    (hreadings : ∀ r ∈ readings, ∀ c ∈ r.contributions, P c) (hwrites : ∀ write ∈ writes, P write.1)
    (hbody : ∀ body, P (.statements s.stage body)) : ∀ c ∈ s.exchange readings writes, P c := by
  simp only [exchange, List.forall_mem_append, List.forall_mem_flatMap, List.forall_mem_map]
  exact ⟨⟨hreadings, hwrites⟩, List.forall_mem_singleton.mpr (hbody _)⟩

end Site

/-- What an attribute of particles is read as, if its value feeds something. -/
def Particles.readings (table : Allocations) (s : Site) (name : String) (type : PortType) :
    Except CompileError (List Reading) :=
  if s.graph.isOutputConnected s.node.id "value" then
    (Particles.read table s name type).map ([·])
  else pure []

/-- What is stored of an attribute of particles, in the stage that computes its texture. -/
def Particles.writes (table : Allocations) (s : Site) (name : String) (type : PortType) :
    Except CompileError (List (Contribution × Statement)) :=
  if s.isFed Kind.exportInput && Particles.isOwned table name s.stage then do
    let value ← s.input Kind.exportInput
    (Particles.write table s name type value).map ([·])
  else pure []

theorem Particles.emitAttribute_eq (table : Allocations) (s : Site) (name : String)
    (type : PortType) :
    Particles.emitAttribute table s name type = (do
      let readings ← Particles.readings table s name type
      let writes ← Particles.writes table s name type
      pure (s.exchange readings writes)) := by
  unfold Particles.emitAttribute Particles.readings Particles.writes
  split
  · split <;> simp only [bind_assoc] <;> rfl
  · split <;> rfl

namespace Backend

/-- How an attribute is read outside of materials. -/
inductive Gets (s : Site) (name : String) (type : PortType) : Backend → Reading → Prop where
  | particles {table : Allocations} {r : Reading}
      (hread : Particles.read table s name type = .ok r) : Gets s name type (.particles table) r
  | points : Gets s name type .points (Points.readField s name)

/-- How an attribute is written outside of materials. -/
inductive Puts (s : Site) (name : String) (type : PortType) (value : Operand) :
    Backend → Contribution × Statement → Prop where
  | particles {table : Allocations} {write : Contribution × Statement}
      (hwrite : Particles.write table s name type value = .ok write) :
      Puts s name type value (.particles table) write
  | points : Puts s name type value .points (Points.writeField s name value)

/-- Whether a stage is where an attribute is written. -/
def owns (name : String) (stage : Stage) : Backend → Bool
  | .particles table => Particles.isOwned table name stage
  | _ => true

/-- What an attribute node reads: nothing, if nothing asks for the value. -/
inductive GetsUsed (b : Backend) (s : Site) (name : String) (type : PortType) :
    List Reading → Prop where
  | unused (hunused : s.graph.isOutputConnected s.node.id "value" = false) :
      b.GetsUsed s name type []
  | used {r : Reading} (hused : s.graph.isOutputConnected s.node.id "value" = true)
      (hr : b.Gets s name type r) : b.GetsUsed s name type [r]

/-- What an attribute node writes: nothing, if nothing feeds its export or the attribute is
    written in another stage. -/
inductive PutsFed (b : Backend) (s : Site) (name : String) (type : PortType) :
    List (Contribution × Statement) → Prop where
  | idle (hidle : (s.isFed Kind.exportInput && b.owns name s.stage) = false) :
      b.PutsFed s name type []
  | fed {value : Operand} {write : Contribution × Statement}
      (hfed : s.isFed Kind.exportInput = true) (howned : b.owns name s.stage = true)
      (hvalue : s.input Kind.exportInput = .ok value) (hwrite : b.Puts s name type value write) :
      b.PutsFed s name type [write]

/-- The inputs of an output node that are written, outside of materials. -/
def outputNames (s : Site) : Backend → List String
  | .material => []
  | .particles table =>
    Particles.outputAttributes.filter fun name =>
      Particles.isOwned table name s.stage && s.isFed name
  | .points => Points.outputFields.filter s.isFed

/-- What an output node writes outside of materials. -/
def PutsAll (b : Backend) (s : Site) (writes : List (Contribution × Statement)) : Prop :=
  List.Forall₂ (fun name write => ∃ value, s.input name = .ok value ∧
    b.Puts s name .vector3 value write) (b.outputNames s) writes

/-- Outside of materials an attribute node exchanges values with the host. -/
theorem exchange_of_emitAttribute {name : String} {type : PortType} (hb : b ≠ .material)
    (h : b.emitAttribute s name type = .ok cs) :
    ∃ readings writes, cs = s.exchange readings writes ∧ b.GetsUsed s name type readings ∧
      b.PutsFed s name type writes := by
  cases b with
  | material => exact absurd rfl hb
  | particles table =>
    simp only [emitAttribute, Particles.emitAttribute_eq] at h
    obtain ⟨readings, hreadings, h⟩ := bind_eq_ok.mp h
    obtain ⟨writes, hwrites, h⟩ := bind_eq_ok.mp h
    refine ⟨readings, writes, (pure_eq_ok.mp h).symm, ?_, ?_⟩
    · unfold Particles.readings at hreadings
      split at hreadings
      next hused =>
        obtain ⟨r, hr, rfl⟩ := map_eq_ok.mp hreadings
        exact .used hused (.particles hr)
      next hunused =>
        rw [← pure_eq_ok.mp hreadings]
        exact .unused (by simpa using hunused)
    · unfold Particles.writes at hwrites
      split at hwrites
      next hfed =>
        obtain ⟨value, hvalue, hwrites⟩ := bind_eq_ok.mp hwrites
        obtain ⟨write, hwrite, rfl⟩ := map_eq_ok.mp hwrites
        rw [Bool.and_eq_true] at hfed
        exact .fed hfed.1 hfed.2 hvalue (.particles hwrite)
      next hidle =>
        rw [← pure_eq_ok.mp hwrites]
        exact .idle (Bool.eq_false_iff.mpr hidle)
  | points =>
    simp only [emitAttribute, Points.emitAttribute] at h
    have hreadings : Backend.points.GetsUsed s name type
        (if s.graph.isOutputConnected s.node.id "value" then [Points.readField s name] else []) := by
      split
      next hused => exact .used hused .points
      next hunused => exact .unused (by simpa using hunused)
    split at h
    · cases h
    · split at h
      next hfed =>
        obtain ⟨writes, hwrites, h⟩ := bind_eq_ok.mp h
        obtain ⟨value, hvalue, rfl⟩ := map_eq_ok.mp hwrites
        exact ⟨_, _, (pure_eq_ok.mp h).symm, hreadings, .fed hfed rfl hvalue .points⟩
      next hidle =>
        obtain ⟨writes, hwrites, h⟩ := bind_eq_ok.mp h
        rw [pure_eq_ok] at hwrites h
        subst hwrites h
        exact ⟨_, _, rfl, hreadings, .idle (by simp [hidle])⟩

/-- So does an output node. -/
theorem exchange_of_emitOutput (hb : b ≠ .material) (h : b.emitOutput s = .ok cs) :
    ∃ writes, cs = s.exchange [] writes ∧ b.PutsAll s writes := by
  cases b with
  | material => exact absurd rfl hb
  | particles table =>
    obtain ⟨writes, hwrites, h⟩ := bind_eq_ok.mp h
    refine ⟨writes, (pure_eq_ok.mp h).symm, (mapM_eq_ok.mp hwrites).imp fun name write h => ?_⟩
    obtain ⟨value, hvalue, hwrite⟩ := bind_eq_ok.mp h
    exact ⟨value, hvalue, .particles hwrite⟩
  | points =>
    obtain ⟨writes, hwrites, h⟩ := bind_eq_ok.mp h
    refine ⟨writes, (pure_eq_ok.mp h).symm, (mapM_eq_ok.mp hwrites).imp fun name write h => ?_⟩
    obtain ⟨value, hvalue, rfl⟩ := map_eq_ok.mp h
    exact ⟨value, hvalue, .points⟩

end Backend

/-! ## §3. Attributes and outputs -/

namespace Material

/-- The position is what feeds it, or else an attribute. -/
theorem position_cases {r : Reading} (h : position s = .ok r) :
    (∃ o, s.isFed "position" = true ∧ s.input "position" = .ok o ∧ r = { operand := o }) ∨
      (s.isFed "position" = false ∧ r = readAttribute s "position" .vector3) := by
  unfold position at h
  split at h
  next hfed =>
    obtain ⟨o, ho, rfl⟩ := map_eq_ok.mp h
    exact .inl ⟨o, hfed, ho, rfl⟩
  next hfed =>
    cases h
    exact .inr ⟨by simpa using hfed, rfl⟩

/-- The normal is declared and assigned where it is fed. -/
theorem normal_cases {definitions : List Contribution} {body : List Statement}
    (h : normal s = .ok (definitions, body)) :
    (s.isFed "normal" = false ∧ definitions = [] ∧ body = []) ∨
      ∃ o, s.isFed "normal" = true ∧ s.input "normal" = .ok o ∧
        definitions = [.define .vertex [.varying .vector3 "v_normal"],
          .define .fragment [.varying .vector3 "v_normal"]] ∧
        body = [.assign (.varying "v_normal") (.viewNormal o)] := by
  unfold normal at h
  split at h
  next hfed =>
    obtain ⟨o, ho, heq⟩ := map_eq_ok.mp h
    rw [Prod.mk.injEq] at heq
    exact .inr ⟨o, hfed, ho, heq.1.symm, heq.2.symm⟩
  next hfed =>
    simp only [Except.ok.injEq, Prod.mk.injEq] at h
    exact .inl ⟨by simpa using hfed, h.1.symm, h.2.symm⟩

end Material

/-- What an attribute node adds: it reads and writes the attribute, or only reads it in a
    material. -/
inductive Site.EmitsAttribute (s : Site) (name : String) (type : PortType) :
    Backend → List Contribution → Prop where
  | read : EmitsAttribute s name type .material
      ((Material.readAttribute s name type).contributions ++
        [.statements s.stage
          [s.declare "value" (.operand (Material.readAttribute s name type).operand)]])
  | exchanged {b : Backend} {readings : List Reading} {writes : List (Contribution × Statement)}
      (hb : b ≠ .material) (hreadings : b.GetsUsed s name type readings)
      (hwrites : b.PutsFed s name type writes) :
      EmitsAttribute s name type b (s.exchange readings writes)

theorem Site.emitsAttribute_of_emitAttribute {name : String} {type : PortType}
    (h : b.emitAttribute s name type = .ok cs) : s.EmitsAttribute name type b cs := by
  by_cases hb : b = .material
  · subst hb
    simp only [Backend.emitAttribute, Material.emitAttribute] at h
    split at h
    · cases h
    · cases h
      exact .read
  · obtain ⟨readings, writes, rfl, hreadings, hwrites⟩ := Backend.exchange_of_emitAttribute hb h
    exact .exchanged hb hreadings hwrites

/-- What an output node adds: in a material each stage declares its result. -/
inductive Site.EmitsOutput (s : Site) : Backend → List Contribution → Prop where
  | vertex {position : Reading} {definitions : List Contribution} {body : List Statement}
      (hvertex : s.stage = .vertex) (hposition : Material.position s = .ok position)
      (hnormal : Material.normal s = .ok (definitions, body)) :
      EmitsOutput s .material (position.contributions ++ definitions ++
        [.statements s.stage
          (.declare .vector3 "transformed" (.operand position.operand) :: body)])
  | fragment {color alpha : Operand} (hother : s.stage ≠ .vertex)
      (hcolor : s.input "color" = .ok color) (halpha : s.input "alpha" = .ok alpha) :
      EmitsOutput s .material
        [.statements s.stage [.declare .vector4 "diffuseColor" (.withAlpha color alpha)]]
  | written {b : Backend} {writes : List (Contribution × Statement)} (hb : b ≠ .material)
      (hwrites : b.PutsAll s writes) : EmitsOutput s b (s.exchange [] writes)

theorem Site.emitsOutput_of_emitOutput (h : b.emitOutput s = .ok cs) : s.EmitsOutput b cs := by
  by_cases hb : b = .material
  · subst hb
    simp only [Backend.emitOutput, Material.emitOutput] at h
    split at h
    next hvertex =>
      obtain ⟨position, hposition, h⟩ := bind_eq_ok.mp h
      obtain ⟨⟨definitions, body⟩, hnormal, h⟩ := bind_eq_ok.mp h
      obtain rfl := pure_eq_ok.mp h
      exact .vertex hvertex hposition hnormal
    next hother =>
      obtain ⟨color, hcolor, h⟩ := bind_eq_ok.mp h
      obtain ⟨alpha, halpha, h⟩ := bind_eq_ok.mp h
      obtain rfl := pure_eq_ok.mp h
      exact .fragment hother hcolor halpha
  · obtain ⟨writes, rfl, hwrites⟩ := Backend.exchange_of_emitOutput hb h
    exact .written hb hwrites

/-! ## §4. Every kind -/

/-- What a node without a network adds, one case for each kind. -/
inductive Site.Emits (b : Backend) (s : Site) : List Contribution → Prop where
  | constant {value : Value} (hk : s.node.kind = .constant value) :
      s.Emits b [.statements s.stage [s.declare "value" (.operand (.literal value))]]
  | param {name : String} {type : PortType} {default : Value}
      (hk : s.node.kind = .param name type default) :
      s.Emits b (Backend.emitParam s name type default)
  | math {op : MathOp} {type : PortType} {args : List Operand} (hk : s.node.kind = .math op type)
      (hargs : s.inputs (op.operands.map (·.1)) = .ok args) :
      s.Emits b [.statements s.stage [s.declare "result" (.math op args)]]
  | globals {readings : List Reading} (hk : s.node.kind = .globals)
      (hreadings : List.Forall₂ (b.ReadsGlobal s) (s.graph.connectedOutputs s.node.id) readings) :
      s.Emits b (readings.flatMap (·.contributions) ++
        [.statements s.stage (s.declareAll (s.graph.connectedOutputs s.node.id) readings)])
  | «attribute» {name : String} {type : PortType} {cs : List Contribution}
      (hk : s.node.kind = .attribute name type) (h : s.EmitsAttribute name type b cs) :
      s.Emits b cs
  | varyingWrite {name : String} {type : PortType} {value : Operand}
      (hk : s.node.kind = .varyingWrite name type) (hvalue : s.input "value" = .ok value) :
      s.Emits b ([.define s.stage [.varying type (Backend.varyingName name)]] ++
        (if s.stage = .vertex then
          [.define .fragment [.varying type (Backend.varyingName name)]] else []) ++
        [.statements s.stage [.assign (.varying (Backend.varyingName name)) (.operand value)]])
  | varyingRead {name : String} {type : PortType} (hk : s.node.kind = .varyingRead name type) :
      s.Emits b (Backend.emitVaryingRead s name type)
  | function {name : String} {inputs : List PortSpec} {output : PortType} {f : ShaderFunction}
      {args : List Operand} (hk : s.node.kind = .function name inputs output)
      (hf : s.context.library.get? name = some f)
      (hargs : s.inputs (inputs.map (·.name)) = .ok args) :
      s.Emits b [.define s.stage [.function f.output f.name f.source],
        .statements s.stage [s.declare "result" (.call f.name args)]]
  | output {target : Target} {cs : List Contribution} (hk : s.node.kind = .output target)
      (h : s.EmitsOutput b cs) : s.Emits b cs
  | subnet {subnet : Subnet} (hk : s.node.kind = .subnet subnet) : s.Emits b []
  | subnetInput {ports : List PortSpec} (hk : s.node.kind = .subnetInput ports) : s.Emits b []
  | subnetOutput {ports : List PortSpec} {body : List Statement}
      (hk : s.node.kind = .subnetOutput ports)
      (hbody : List.Forall₂ (fun name st => ∃ value, s.input name = .ok value ∧
          st = .assign (.var (s.scope.outputVar name)) (.operand value))
        (s.node.inputNames.filter s.isFed) body) :
      s.Emits b [.statements s.stage body]

namespace Site

theorem emits_of_emitCall {name : String} {inputs : List PortSpec} {output : PortType}
    (hk : s.node.kind = .function name inputs output)
    (h : Backend.emitCall s name inputs = .ok cs) : s.Emits b cs := by
  unfold Backend.emitCall at h
  split at h
  next => cases h
  next f hf =>
    obtain ⟨args, hargs, h⟩ := bind_eq_ok.mp h
    obtain rfl := pure_eq_ok.mp h
    exact .function hk hf hargs

theorem emits_of_emitBridge {ports : List PortSpec} (hk : s.node.kind = .subnetOutput ports)
    (h : Backend.emitBridge s = .ok cs) : s.Emits b cs := by
  obtain ⟨body, hbody, h⟩ := bind_eq_ok.mp h
  obtain rfl := pure_eq_ok.mp h
  refine .subnetOutput hk ((mapM_eq_ok.mp hbody).imp fun name st h => ?_)
  obtain ⟨value, hvalue, rfl⟩ := map_eq_ok.mp h
  exact ⟨value, hvalue, rfl⟩

/-- **What a node without a network adds** is what the case of its kind says, in every
    backend. -/
theorem emits_of_emitLeaf (h : b.emitLeaf s s.node.kind = .ok cs) : s.Emits b cs := by
  cases hk : s.node.kind with
  | constant value =>
    rw [hk] at h
    cases h
    exact .constant hk
  | param name type default =>
    rw [hk] at h
    cases h
    exact .param hk
  | math op type =>
    rw [hk] at h
    obtain ⟨args, hargs, h⟩ := bind_eq_ok.mp h
    obtain rfl := pure_eq_ok.mp h
    exact .math hk hargs
  | globals =>
    rw [hk] at h
    obtain ⟨readings, hreadings, h⟩ := bind_eq_ok.mp h
    obtain rfl := pure_eq_ok.mp h
    exact .globals hk
      ((mapM_eq_ok.mp hreadings).imp fun _ _ hread => b.readsGlobal_of_readGlobal hread)
  | «attribute» name type =>
    rw [hk] at h
    exact .attribute hk (emitsAttribute_of_emitAttribute h)
  | varyingWrite name type =>
    rw [hk] at h
    obtain ⟨value, hvalue, h⟩ := bind_eq_ok.mp h
    obtain rfl := pure_eq_ok.mp h
    exact .varyingWrite hk hvalue
  | varyingRead name type =>
    rw [hk] at h
    cases h
    exact .varyingRead hk
  | function name inputs output =>
    rw [hk] at h
    exact emits_of_emitCall hk h
  | output target =>
    rw [hk] at h
    exact .output hk (emitsOutput_of_emitOutput h)
  | subnet subnet =>
    rw [hk] at h
    cases h
    exact .subnet hk
  | subnetInput ports =>
    rw [hk] at h
    cases h
    exact .subnetInput hk
  | subnetOutput ports =>
    rw [hk] at h
    exact emits_of_emitBridge hk h

end Site

end ShaderFlow
