/-
  ShaderFlow.Proofs.Interface — what a stage declares, in terms of the nodes it comes to.

  Each kind of node asks for certain declarations: a parameter for its uniform, a call for its
  function, what reads an attribute for the attribute and, outside the vertex stage, for the
  varying that relays it.  A stage declares what every stage declares and what the nodes that
  any stage comes to ask of it, and nothing else.

  Main definitions:
    * `Material.Reads`, `Particles.Samples` — the attributes that a node reads;
    * `Backend.Asks`                        — what a node asks a stage to declare.

  Main statements:
    * `Backend.mem_declarations_iff` — a node contributes what it asks for;
    * `Backend.declares_iff`         — a stage declares what it is asked for.
-/

import ShaderFlow.Proofs.Parameters

namespace ShaderFlow

open Contribution

variable {b : Backend} {s : Site} {target : Stage} {d : Declaration} {cs : List Contribution}

/-! ## §1. Declarations of contributions -/

namespace Contribution

@[simp] theorem declarations_nil : declarations target [] = [] := rfl

@[simp] theorem declarations_append (more : List Contribution) :
    declarations target (cs ++ more) = declarations target cs ++ declarations target more :=
  List.flatMap_append

@[simp] theorem declarations_define (stage : Stage) (asked : List Declaration) :
    declarations target (.define stage asked :: cs) =
      (if stage = target then asked else []) ++ declarations target cs := rfl

@[simp] theorem declarations_note (n : Note) :
    declarations target (.note n :: cs) = declarations target cs := rfl

@[simp] theorem declarations_write (stage : Stage) (entries : List Entry)
    (repetition : Repetition) :
    declarations target (.write stage entries repetition :: cs) = declarations target cs := rfl

@[simp] theorem declarations_statements (stage : Stage) (body : List Statement) :
    declarations target (.statements stage body :: cs) = declarations target cs := rfl

theorem declarations_of_notes (h : ∀ c ∈ cs, ∃ n, c = .note n) : declarations target cs = [] := by
  rw [declarations, List.flatMap_eq_nil_iff]
  intro c hc
  obtain ⟨n, rfl⟩ := h c hc
  rfl

theorem declarations_subset {more : List Contribution} (h : cs ⊆ more) :
    declarations target cs ⊆ declarations target more := by
  intro d hd
  obtain ⟨c, hc, hd⟩ := List.mem_flatMap.mp hd
  exact List.mem_flatMap.mpr ⟨c, h hc, hd⟩

theorem mem_declarations_flatMap {α : Type} {f : α → List Contribution} {xs : List α} :
    d ∈ declarations target (xs.flatMap f) ↔ ∃ x ∈ xs, d ∈ declarations target (f x) := by
  rw [declarations, List.flatMap_assoc, List.mem_flatMap]
  rfl

end Contribution

/-! ## §2. What a node asks for -/

/-- An attribute that a node of a material reads, with its type. -/
inductive Material.Reads (s : Site) (name : String) (type : PortType) : Prop
  | named (hk : s.node.kind = .attribute name type)
  | geometry (hk : s.node.kind = .globals)
      (hname : (name, type) ∈ [("position", PortType.vector3), ("uv", .vector2)])
      (hused : s.graph.isOutputConnected s.node.id name = true)
  /-- The position of the output node is the attribute, unless it is fed. -/
  | output {target : Target} (hk : s.node.kind = .output target) (hstage : s.stage = .vertex)
      (hfed : s.isFed "position" = false) (hname : name = "position") (htype : type = .vector3)

/-- An attribute that a node of a particle system samples. -/
inductive Particles.Samples (s : Site) (name : String) : Prop
  | named {type : PortType} (hk : s.node.kind = .attribute name type)
      (hused : s.graph.isOutputConnected s.node.id "value" = true)
  | position (hk : s.node.kind = .globals)
      (hused : s.graph.isOutputConnected s.node.id "position" = true) (hname : name = "position")

/-- What a node asks a stage to declare. -/
inductive Backend.Asks (b : Backend) (s : Site) (target : Stage) (d : Declaration) : Prop
  | param {name : String} {type : PortType} {default : Value}
      (hk : s.node.kind = .param name type default) (htarget : target = s.stage)
      (hd : d = .uniform type (paramUniform name))
  | function {name : String} {inputs : List PortSpec} {output : PortType} {f : ShaderFunction}
      (hk : s.node.kind = .function name inputs output)
      (hf : s.context.library.get? name = some f) (htarget : target = s.stage)
      (hd : d = .function f.output f.name f.source)
  | time (hk : s.node.kind = .globals)
      (hused : s.graph.isOutputConnected s.node.id "time" = true) (htarget : target = s.stage)
      (hd : d = .uniform .float "time")
  /-- Particles have the size of the viewport from the start. -/
  | resolution (hk : s.node.kind = .globals)
      (hused : s.graph.isOutputConnected s.node.id "resolution" = true)
      (hb : ∀ table, b ≠ .particles table) (htarget : target = s.stage)
      (hd : d = .uniform .vector2 "resolution")
  | varying {name : String} {type : PortType}
      (hk : s.node.kind = .varyingWrite name type ∨ s.node.kind = .varyingRead name type)
      (htarget : target = s.stage) (hd : d = .varying type (varyingName name))
  /-- What the vertex stage writes the fragment stage declares, too; not so what it reads, nor
      what the fragment stage writes or reads. -/
  | written {name : String} {type : PortType} (hk : s.node.kind = .varyingWrite name type)
      (hstage : s.stage = .vertex) (htarget : target = .fragment)
      (hd : d = .varying type (varyingName name))
  | normal {result : Target} (hb : b = .material) (hk : s.node.kind = .output result)
      (hstage : s.stage = .vertex) (hfed : s.isFed "normal" = true)
      (htarget : target = .vertex ∨ target = .fragment) (hd : d = .varying .vector3 "v_normal")
  | attribute {name : String} {type : PortType} (hb : b = .material)
      (hreads : Material.Reads s name type) (htarget : target = .vertex)
      (hd : d = .attribute type name)
  | relay {name : String} {type : PortType} (hb : b = .material)
      (hreads : Material.Reads s name type) (hstage : s.stage ≠ .vertex)
      (htarget : target = .vertex ∨ target = s.stage)
      (hd : d = .varying type (Material.attributeVarying name))
  | channels {table : Allocations} {name : String} {a : AttributeAllocation}
      (hb : b = .particles table) (hsamples : Particles.Samples s name)
      (ha : table.get? name = some a) (htarget : target = s.stage)
      (hd : d = .uniform .texture (table.textureName a.texture))

/-! ## §3. Readings -/

/-- What reading an attribute of a material declares: the attribute in the vertex stage, and in
    any other stage the varying, in both. -/
theorem Material.mem_readAttribute {name : String} {type : PortType} :
    d ∈ declarations target (readAttribute s name type).contributions ↔
      (target = .vertex ∧ d = .attribute type name) ∨
        s.stage ≠ .vertex ∧ (target = .vertex ∨ target = s.stage) ∧
          d = .varying type (attributeVarying name) := by
  unfold readAttribute
  by_cases hstage : s.stage = .vertex
  · rw [if_pos hstage]
    simp only [declarations_note, declarations_define, declarations_nil, List.append_nil]
    by_cases htarget : target = .vertex <;> simp [htarget, hstage, eq_comm]
  · rw [if_neg hstage]
    simp only [List.cons_append, List.nil_append, declarations_note, declarations_define,
      declarations_write, declarations_nil, List.append_nil]
    by_cases htarget : target = .vertex
    · subst htarget
      simp [hstage]
    · by_cases hhome : target = s.stage
      · subst hhome
        simp [hstage, Ne.symm hstage]
      · simp [htarget, hhome, Ne.symm htarget, Ne.symm hhome]

theorem Particles.mem_read {table : Allocations} {name : String} {type : PortType} {r : Reading}
    (h : Particles.read table s name type = .ok r) :
    d ∈ Contribution.declarations target r.contributions ↔
      ∃ a, table.get? name = some a ∧ target = s.stage ∧
        d = .uniform .texture (table.textureName a.texture) := by
  obtain ⟨a, ha, h⟩ := bind_eq_ok.mp h
  rw [pure_eq_ok] at h
  subst h
  have hplace : table.get? name = some a := by
    unfold allocation at ha
    split at ha
    next a' hget =>
      cases ha
      exact hget
    next => cases ha
  by_cases htarget : target = s.stage
  · subst htarget
    simp [hplace]
  · simp [htarget, Ne.symm htarget]

/-- What reads an attribute of a material asks for all that the reading declares. -/
theorem Material.asks_of_mem_readAttribute {name : String} {type : PortType}
    (hreads : Reads s name type) (hd : d ∈ declarations target (readAttribute s name type).contributions) :
    Backend.material.Asks s target d := by
  rcases mem_readAttribute.mp hd with ⟨htarget, hd⟩ | ⟨hstage, htarget, hd⟩
  · exact .attribute rfl hreads htarget hd
  · exact .relay rfl hreads hstage htarget hd

/-- **What a value of the host declares** a node asks for. -/
theorem Backend.ReadsGlobal.asks {output : String} {r : Reading} (hk : s.node.kind = .globals)
    (houtput : output ∈ Kind.globalOutputs.map (·.name))
    (hused : s.graph.isOutputConnected s.node.id output = true) (h : b.ReadsGlobal s output r)
    (hd : d ∈ Contribution.declarations target r.contributions) : b.Asks s target d := by
  cases h with
  | time =>
    by_cases htarget : target = s.stage
    · exact .time hk hused htarget (by simpa [Site.readTime, htarget] using hd)
    · simp [Site.readTime, Ne.symm htarget] at hd
  | resolution hb =>
    by_cases htarget : target = s.stage
    · exact .resolution hk hused hb htarget (by simpa [Site.readResolution, htarget] using hd)
    · simp [Site.readResolution, Ne.symm htarget] at hd
  | noted => simp at hd
  | fragCoord _ | place _ => cases hd
  | position => exact Material.asks_of_mem_readAttribute (.geometry hk (by simp) hused) hd
  | uv hother =>
    obtain rfl := Kind.eq_uv_of_mem_globalOutputs houtput hother
    exact Material.asks_of_mem_readAttribute (.geometry hk (by simp) hused) hd
  | sampled hread =>
    obtain ⟨a, ha, htarget, hd⟩ := (Particles.mem_read hread).mp hd
    exact .channels rfl (.position hk hused rfl) ha htarget hd
  | field _ => simp [Points.readField] at hd

/-- What values of the host declare, output by output. -/
theorem Site.mem_emitGlobals {read : String → Except CompileError Reading}
    (h : s.emitGlobals read = .ok cs) :
    d ∈ declarations target cs ↔ ∃ output ∈ s.graph.connectedOutputs s.node.id,
      ∃ r, read output = .ok r ∧ d ∈ declarations target r.contributions := by
  obtain ⟨readings, hreadings, h⟩ := bind_eq_ok.mp h
  rw [pure_eq_ok] at h
  subst h
  rw [declarations_append, declarations_statements, declarations_nil, List.append_nil,
    mem_declarations_flatMap]
  constructor
  · rintro ⟨r, hr, hd⟩
    obtain ⟨output, houtput, hread⟩ := exists_of_mem_mapM hreadings hr
    exact ⟨output, houtput, r, hread, hd⟩
  · rintro ⟨output, houtput, r, hread, hd⟩
    obtain ⟨r', hr', hread'⟩ := exists_mem_of_mapM hreadings output houtput
    obtain rfl := Except.ok.inj (hread.symm.trans hread')
    exact ⟨r, hr', hd⟩

/-! ## §4. Every kind -/

/-- What is exchanged declares what is read. -/
theorem Site.declarations_exchange {readings : List Reading}
    {writes : List (Contribution × Statement)}
    (hwrites : ∀ write ∈ writes, ∃ n, write.1 = .note n) :
    declarations target (s.exchange readings writes) =
      declarations target (readings.flatMap (·.contributions)) := by
  have hnotes : declarations target (writes.map (·.1)) = [] := by
    refine declarations_of_notes fun c hc => ?_
    obtain ⟨write, hwrite, rfl⟩ := List.mem_map.mp hc
    exact hwrites write hwrite
  rw [exchange, declarations_append, declarations_append, hnotes, declarations_statements,
    declarations_nil, List.append_nil, List.append_nil]

/-- An attribute of particles declares the texture that it samples; the fields of a point are
    declared by its host. -/
theorem Backend.mem_declarations_exchanged {name : String} {type : PortType}
    {readings : List Reading} {writes : List (Contribution × Statement)}
    (hreadings : b.GetsUsed s name type readings) (hwrites : b.PutsFed s name type writes) :
    d ∈ Contribution.declarations target (s.exchange readings writes) ↔
      s.graph.isOutputConnected s.node.id "value" = true ∧
        ∃ table a, b = .particles table ∧ table.get? name = some a ∧ target = s.stage ∧
          d = .uniform .texture (table.textureName a.texture) := by
  rw [Site.declarations_exchange fun write hwrite => ⟨_, hwrites.note_eq write hwrite⟩]
  cases hreadings with
  | unused hunused => simp [hunused]
  | used hused hr =>
    rw [List.flatMap_singleton, and_iff_right hused]
    cases hr with
    | particles hread =>
      rw [Particles.mem_read hread]
      simp
    | points => simp [Points.readField]

/-- The results of particles and points are not declared. -/
theorem Backend.PutsAll.declarations_eq {writes : List (Contribution × Statement)}
    (h : b.PutsAll s writes) : Contribution.declarations target (s.exchange [] writes) = [] := by
  apply Site.declarations_exchange
  intro write hwrite
  obtain ⟨name, -, hnote⟩ := h.note_eq write hwrite
  exact ⟨_, hnote⟩

/-- The output node of a material declares the attribute that its position is by default, and
    the varying that carries its normal. -/
theorem Material.mem_emitsOutput (h : s.EmitsOutput .material cs) :
    d ∈ declarations target cs ↔ s.stage = .vertex ∧
      (s.isFed "position" = false ∧
          d ∈ declarations target (readAttribute s "position" .vector3).contributions ∨
        s.isFed "normal" = true ∧ (target = .vertex ∨ target = .fragment) ∧
          d = .varying .vector3 "v_normal") := by
  cases h with
  | @vertex position definitions _ hvertex hposition hnormal =>
    have hfirst : d ∈ declarations target position.contributions ↔ s.isFed "position" = false ∧
        d ∈ declarations target (readAttribute s "position" .vector3).contributions := by
      rcases Material.position_cases hposition with ⟨o, hfed, -, rfl⟩ | ⟨hfed, rfl⟩ <;> simp [hfed]
    have hsecond : d ∈ declarations target definitions ↔ s.isFed "normal" = true ∧
        (target = .vertex ∨ target = .fragment) ∧ d = .varying .vector3 "v_normal" := by
      rcases Material.normal_cases hnormal with ⟨hfed, rfl, -⟩ | ⟨o, hfed, -, rfl, -⟩
      · simp [hfed]
      · cases target <;> simp [hfed]
    rw [declarations_append, declarations_append, declarations_statements, declarations_nil,
      List.append_nil, List.mem_append, hfirst, hsecond, and_iff_right hvertex]
  | fragment hother _ _ => simp [hother]
  | written hb _ => exact absurd rfl hb

/-- A node declares only what it asks for. -/
theorem Backend.asks_of_mem (hfound : s.graph.node? s.node.id = some s.node)
    (h : b.emitLeaf s s.node.kind = .ok cs) (hd : d ∈ Contribution.declarations target cs) :
    b.Asks s target d := by
  -- each kind declares for itself, and values of the host as the backend reads them
  cases Site.emits_of_emitLeaf h with
  | constant _ | math _ _ | subnetOutput _ _ => simp at hd
  | subnet _ | subnetInput _ => cases hd
  | @param name type _ hk =>
    have hmem : target = s.stage ∧ d = .uniform type (paramUniform name) := by
      by_cases htarget : s.stage = target <;> simp_all [emitParam]
    exact .param hk hmem.1 hmem.2
  | globals hk hreadings =>
    rw [declarations_append, declarations_statements, declarations_nil, List.append_nil,
      mem_declarations_flatMap] at hd
    obtain ⟨r, hr, hd⟩ := hd
    obtain ⟨output, houtput, hread⟩ := exists_mem_of_forall₂ hreadings.flip r hr
    obtain ⟨hlisted, hused⟩ := (Site.mem_connectedOutputs hk hfound).mp houtput
    exact hread.asks hk hlisted hused hd
  | «attribute» hk h =>
    cases h with
    | read =>
      rw [declarations_append, declarations_statements, declarations_nil, List.append_nil] at hd
      exact Material.asks_of_mem_readAttribute (.named hk) hd
    | exchanged _ hreadings hwrites =>
      obtain ⟨hused, table, a, rfl, ha, htarget, hd⟩ :=
        (mem_declarations_exchanged hreadings hwrites).mp hd
      exact .channels rfl (.named hk hused) ha htarget hd
  | @varyingWrite name type _ hk _ =>
    rw [declarations_append, declarations_statements, declarations_nil, List.append_nil,
      declarations_append, List.mem_append] at hd
    rcases hd with hd | hd
    · have hmem : target = s.stage ∧ d = .varying type (varyingName name) := by
        by_cases htarget : s.stage = target <;> simp_all
      exact .varying (.inl hk) hmem.1 hmem.2
    · split at hd
      next hstage =>
        have hmem : target = .fragment ∧ d = .varying type (varyingName name) := by
          by_cases htarget : Stage.fragment = target <;> simp_all
        exact .written hk hstage hmem.1 hmem.2
      next => cases hd
  | @varyingRead name type hk =>
    have hmem : target = s.stage ∧ d = .varying type (varyingName name) := by
      by_cases htarget : s.stage = target <;> simp_all [emitVaryingRead]
    exact .varying (.inr hk) hmem.1 hmem.2
  | @function _ _ _ f _ hk hf _ =>
    have hmem : target = s.stage ∧ d = .function f.output f.name f.source := by
      by_cases htarget : s.stage = target <;> simp_all
    exact .function hk hf hmem.1 hmem.2
  | output hk h =>
    by_cases hb : b = .material
    · subst hb
      obtain ⟨hstage, ⟨hfed, hd⟩ | ⟨hfed, htarget, hd⟩⟩ := (Material.mem_emitsOutput h).mp hd
      · exact Material.asks_of_mem_readAttribute (.output hk hstage hfed rfl rfl) hd
      · exact .normal rfl hk hstage hfed htarget hd
    · cases h with
      | vertex _ _ _ | fragment _ _ _ => exact absurd rfl hb
      | written _ hwrites =>
        rw [hwrites.declarations_eq] at hd
        cases hd

/-- What reads an attribute of a material contributes all that the reading does. -/
theorem Material.subset_of_reads {name : String} {type : PortType} (hreads : Reads s name type)
    (hfound : s.graph.node? s.node.id = some s.node)
    (h : Backend.material.emitLeaf s s.node.kind = .ok cs) :
    (readAttribute s name type).contributions ⊆ cs := by
  -- an attribute is read by its own node, as a value of the host or by the output node
  cases hreads with
  | named hk =>
    rw [hk] at h
    have hemit : Backend.material.emitAttribute s name type = .ok cs := h
    cases Site.emitsAttribute_of_emitAttribute hemit with
    | read => exact List.subset_append_left _ _
    | exchanged hb _ _ => exact absurd rfl hb
  | geometry hk hname hused =>
    rw [hk] at h
    have houtput : name ∈ s.graph.connectedOutputs s.node.id := by
      refine (Site.mem_connectedOutputs hk hfound).mpr ⟨?_, hused⟩
      simp only [List.mem_cons, Prod.mk.injEq, List.not_mem_nil, or_false] at hname
      rcases hname with ⟨rfl, -⟩ | ⟨rfl, -⟩ <;> simp [Kind.globalOutputs, Port.output]
    have hread : readGlobal s name = .ok (readAttribute s name type) := by
      simp only [List.mem_cons, Prod.mk.injEq, List.not_mem_nil, or_false] at hname
      rcases hname with ⟨rfl, rfl⟩ | ⟨rfl, rfl⟩ <;> rfl
    obtain ⟨readings, hreadings, h⟩ := bind_eq_ok.mp h
    rw [pure_eq_ok] at h
    subst h
    obtain ⟨r, hr, hread'⟩ := exists_mem_of_mapM hreadings name houtput
    obtain rfl := Except.ok.inj (hread.symm.trans hread')
    intro c hc
    exact List.mem_append_left _ (List.mem_flatMap.mpr ⟨_, hr, hc⟩)
  | output hk hstage hfed hname htype =>
    subst hname htype
    rw [hk] at h
    have hemit : Backend.material.emitOutput s = .ok cs := h
    cases Site.emitsOutput_of_emitOutput hemit with
    | vertex _ hposition _ =>
      rcases position_cases hposition with ⟨o, hfed', -, -⟩ | ⟨-, rfl⟩
      · rw [hfed] at hfed'
        cases hfed'
      · rw [List.append_assoc]
        exact List.subset_append_left _ _
    | fragment hother _ _ => exact absurd hstage hother
    | written hb _ => exact absurd rfl hb

/-- A node declares all that it asks for. -/
theorem Backend.mem_of_asks (hfound : s.graph.node? s.node.id = some s.node)
    (h : b.emitLeaf s s.node.kind = .ok cs) (hd : b.Asks s target d) :
    d ∈ Contribution.declarations target cs := by
  have hglobals : ∀ output ∈ Kind.globalOutputs.map (·.name), s.node.kind = .globals →
      s.graph.isOutputConnected s.node.id output = true →
        output ∈ s.graph.connectedOutputs s.node.id := by
    exact fun output houtput hk hused =>
      (Site.mem_connectedOutputs hk hfound).mpr ⟨houtput, hused⟩
  cases hd with
  | param hk htarget hd =>
    subst htarget hd
    rw [hk] at h
    cases h
    simp [emitParam]
  | function hk hf htarget hd =>
    subst htarget hd
    rw [hk] at h
    unfold emitLeaf emitCall at h
    simp only [hf] at h
    obtain ⟨args, -, h⟩ := bind_eq_ok.mp h
    rw [pure_eq_ok] at h
    subst h
    simp
  | time hk hused htarget hd =>
    subst htarget hd
    rw [hk] at h
    refine (Site.mem_emitGlobals h).mpr
      ⟨"time", hglobals "time" (by decide) hk hused, s.readTime, ?_, by simp [Site.readTime]⟩
    cases b <;> rfl
  | resolution hk hused hb htarget hd =>
    subst htarget hd
    rw [hk] at h
    refine (Site.mem_emitGlobals h).mpr ⟨"resolution",
      hglobals "resolution" (by decide) hk hused, s.readResolution, ?_,
      by simp [Site.readResolution]⟩
    cases b with
    | particles table => exact absurd rfl (hb table)
    | _ => rfl
  | varying hk htarget hd =>
    subst htarget hd
    rcases hk with hk | hk
    · rw [hk] at h
      obtain ⟨value, -, h⟩ := bind_eq_ok.mp h
      rw [pure_eq_ok] at h
      subst h
      simp
    · rw [hk] at h
      cases h
      simp [emitVaryingRead]
  | written hk hstage htarget hd =>
    subst htarget hd
    rw [hk] at h
    obtain ⟨value, -, h⟩ := bind_eq_ok.mp h
    rw [pure_eq_ok] at h
    subst h
    simp [hstage]
  | normal hb hk hstage hfed htarget hd =>
    subst hb
    rw [hk] at h
    have hemit : Backend.material.emitOutput s = .ok cs := h
    exact (Material.mem_emitsOutput (Site.emitsOutput_of_emitOutput hemit)).mpr
      ⟨hstage, .inr ⟨hfed, htarget, hd⟩⟩
  | «attribute» hb hreads htarget hd =>
    subst hb
    exact declarations_subset (Material.subset_of_reads hreads hfound h)
      (Material.mem_readAttribute.mpr (.inl ⟨htarget, hd⟩))
  | relay hb hreads hstage htarget hd =>
    subst hb
    exact declarations_subset (Material.subset_of_reads hreads hfound h)
      (Material.mem_readAttribute.mpr (.inr ⟨hstage, htarget, hd⟩))
  | @channels table name _ hb hsamples ha htarget hd =>
    subst hb
    cases hsamples with
    | @named type hk hused =>
      rw [hk] at h
      have hemit : (Backend.particles table).emitAttribute s name type = .ok cs := h
      cases Site.emitsAttribute_of_emitAttribute hemit with
      | exchanged _ hreadings hwrites =>
        exact (mem_declarations_exchanged hreadings hwrites).mpr ⟨hused, _, _, rfl, ha, htarget, hd⟩
    | position hk hused hname =>
      subst hname
      rw [hk] at h
      have houtput := hglobals "position" (by decide) hk hused
      obtain ⟨readings, hreadings, -⟩ := bind_eq_ok.mp h
      obtain ⟨r, -, hread⟩ := exists_mem_of_mapM hreadings _ houtput
      exact (Site.mem_emitGlobals h).mpr
        ⟨_, houtput, r, hread, (Particles.mem_read hread).mpr ⟨_, ha, htarget, hd⟩⟩

/-- **A node contributes the declarations that it asks for**, whatever its kind and the
    backend. -/
theorem Backend.mem_declarations_iff (hfound : s.graph.node? s.node.id = some s.node)
    (h : b.emitLeaf s s.node.kind = .ok cs) :
    d ∈ Contribution.declarations target cs ↔ b.Asks s target d :=
  ⟨asks_of_mem hfound h, mem_of_asks hfound h⟩

/-! ## §5. Whole passes -/

variable {g : Graph} {context : Context} {p : Progress} {stage : Stage} {scope : Scope}
  {roots : List NodeId}

/-- What a stage comes to is the node of its identity. -/
theorem Graph.Meets.found (h : g.Meets b context stage scope roots s) :
    s.graph.node? s.node.id = some s.node := by
  induction h with
  | here horder hn _ => exact (Backend.schedules_of_stageOrder horder).found _ hn
  | inside _ _ _ _ _ ih => exact ih

/-- What a stage comes to can take part. -/
theorem Graph.Meets.supported (h : g.Meets b context stage scope roots s) :
    b.supports s.node.kind = true := by
  induction h with
  | @here scope roots g order n _ _ hsupported =>
    show b.supports n.kind = true
    by_contra hnot
    rw [Bool.not_eq_true] at hnot
    simp [Backend.checkSupported, hnot] at hsupported
  | inside _ _ _ _ _ ih => exact ih

/-- What asks for a declaration is a leaf. -/
theorem Backend.Asks.leaf (h : b.Asks s target d) (subnet : Subnet) :
    s.node.kind ≠ .subnet subnet := by
  intro hk
  cases h with
  | varying hkind _ _ => simp [hk] at hkind
  | «attribute» _ hreads _ _ => cases hreads <;> simp_all
  | relay _ hreads _ _ _ => cases hreads <;> simp_all
  | channels _ hsamples _ _ _ => cases hsamples <;> simp_all
  | _ => simp_all

/-- The declarations of a stage. -/
def Progress.declared (p : Progress) (stage : Stage) : List Declaration :=
  (p.listing.definitionsOf stage).map (·.declaration)

theorem Progress.keys_eq (p : Progress) (stage : Stage) :
    p.keys stage = (p.declared stage).map Declaration.key := by
  rw [keys, declared, List.map_map]
  rfl

/-- The words of a declaration around its declarator are no obstacle to `PortType.declare_inj`. -/
theorem PortType.eq_of_line {type type' : PortType} {name keyword : String}
    (h : keyword ++ type.declare name ++ ";" = keyword ++ type'.declare name ++ ";") :
    type = type' := by
  have htype : type.declare name = type'.declare name := by
    simpa [← String.toList_inj] using h
  exact PortType.declare_inj htype

/-- Declarations in the same words are the same; a function may be spelled like another one. -/
theorem Declaration.eq_of_line {d d' : Declaration} (hkey : d.key = d'.key)
    (hline : d.line = d'.line) (hkind : d.kind ≠ .function) : d = d' := by
  obtain ⟨hkinds, hname⟩ := Prod.mk.inj hkey
  cases d with
  | precision qualifier =>
    cases d' with
    | precision qualifier' =>
      cases qualifier <;> cases qualifier' <;> first | rfl | exact absurd hline (by decide)
    | _ => cases hkinds
  | «attribute» type name =>
    cases d' with
    | «attribute» type' name' =>
      obtain rfl : name = name' := hname
      rw [PortType.eq_of_line hline]
    | _ => cases hkinds
  | varying type name =>
    cases d' with
    | varying type' name' =>
      obtain rfl : name = name' := hname
      rw [PortType.eq_of_line hline]
    | _ => cases hkinds
  | uniform type name =>
    cases d' with
    | uniform type' name' =>
      obtain rfl : name = name' := hname
      rw [PortType.eq_of_line hline]
    | _ => cases hkinds
  | function _ _ _ => exact absurd rfl hkind

namespace Backend

/-- A stage declares what it is asked for. -/
theorem declared_of_asks (h : b.pass g context = .ok p) (hs : b.Meets g context s)
    (hd : b.Asks s stage d) (hkind : d.kind ≠ .function) : d ∈ p.declared stage := by
  obtain ⟨cs, hemit, hdeclares, -⟩ := declares_of_meets h hs hd.leaf
  obtain ⟨_, _, _, hmet⟩ := hs
  obtain ⟨kept, hkept, hkey, hline⟩ := hdeclares stage d (mem_of_asks hmet.found hemit hd)
  rw [Declaration.eq_of_line hkey.symm hline.symm hkind]
  exact List.mem_map_of_mem hkept

/-- Beyond what every stage declares it declares nothing else. -/
theorem asks_of_declared (h : b.pass g context = .ok p) (hd : d ∈ p.declared stage) :
    stage ∈ b.stages ∧ d ∈ b.declarations context.config stage ∨
      ∃ s, b.Meets g context s ∧ b.Asks s stage d := by
  obtain ⟨kept, hkept, rfl⟩ := List.mem_map.mp hd
  refine (origin h hkept).imp_right ?_
  rintro ⟨s, cs, hs, hemit, -, hd⟩
  have hmet := hs
  obtain ⟨_, _, _, hmet⟩ := hmet
  exact ⟨s, hs, asks_of_mem hmet.found hemit hd⟩

/-- What a stage is asked to declare, by category and name. -/
def Demands (b : Backend) (g : Graph) (context : Context) (stage : Stage) (key : Key) : Prop :=
  (stage ∈ b.stages ∧ key ∈ b.baseKeys context.config stage) ∨
    ∃ s d, b.Meets g context s ∧ b.Asks s stage d ∧ d.key = key

/-- **A stage declares what it is asked for**, by any node that any stage comes to, and nothing
    else. -/
theorem declares_iff (h : b.pass g context = .ok p) (key : Key) :
    key ∈ p.keys stage ↔ b.Demands g context stage key := by
  constructor
  · intro hkey
    rw [Progress.keys_eq] at hkey
    obtain ⟨d, hd, rfl⟩ := List.mem_map.mp hkey
    rcases asks_of_declared h hd with ⟨hstage, hbase⟩ | ⟨s, hs, hasks⟩
    · exact .inl ⟨hstage, List.mem_map_of_mem hbase⟩
    · exact .inr ⟨s, d, hs, hasks, rfl⟩
  · rintro (⟨hstage, hbase⟩ | ⟨s, d, hs, hasks, rfl⟩)
    · obtain ⟨output, builds, hbuilds⟩ := builds_of_pass h
      exact hbuilds.keys_of_base hstage hbase
    · obtain ⟨cs, hemit, hdeclares, -⟩ := declares_of_meets h hs hasks.leaf
      obtain ⟨_, _, _, hmet⟩ := hs
      obtain ⟨kept, hkept, hkey, -⟩ :=
        hdeclares stage d (mem_of_asks hmet.found hemit hasks)
      rw [← hkey]
      exact List.mem_map_of_mem hkept

end Backend

/-! ## §6. Identifiers -/

/-- What a stage gives names to outside its body: all that it declares but the precision. -/
def Progress.identifiers (p : Progress) (stage : Stage) : List String :=
  ((p.keys stage).filter (·.1 != .precision)).map (·.2)

namespace Backend

/-- Varyings are for materials, and their names begin with a `v`. -/
theorem varying_spec {name : String} (h : b.Demands g context stage (.varying, name)) :
    b = .material ∧ name.toList.head? = some 'v' := by
  rcases h with ⟨-, hbase⟩ | ⟨s, d, ⟨_, _, _, hmet⟩, hasks, hkey⟩
  · -- no stage declares one from the start
    exfalso
    cases b <;> simp [baseKeys, declarations, Particles.declarations, Declaration.key,
      Declaration.kind] at hbase
  · obtain ⟨hkind, hname⟩ := Prod.mk.inj hkey
    -- other backends refuse the nodes of varyings
    have hmaterial : ∀ type v, (s.node.kind = .varyingWrite v type ∨
        s.node.kind = .varyingRead v type) → b = .material := by
      intro type v hk
      have hsupported := hmet.supported
      rcases hk with hk | hk <;> rw [hk] at hsupported <;> cases b <;>
        first | rfl | cases hsupported
    cases hasks with
    | varying hk _ hd =>
      subst hd
      exact ⟨hmaterial _ _ hk, by simp [← hname, Declaration.name, varyingName]⟩
    | written hk _ _ hd =>
      subst hd
      exact ⟨hmaterial _ _ (.inl hk), by simp [← hname, Declaration.name, varyingName]⟩
    | normal hb _ _ _ _ hd =>
      subst hd
      exact ⟨hb, by simp [← hname, Declaration.name]⟩
    | relay hb _ _ _ hd =>
      subst hd
      exact ⟨hb, by simp [← hname, Declaration.name, Material.attributeVarying]⟩
    | _ => simp_all [Declaration.kind]

/-- The uniforms of a material are parameters and values of the host. -/
theorem uniform_spec {name : String}
    (h : Backend.material.Demands g context stage (.uniform, name)) :
    name.toList.head? ≠ some 'v' := by
  rcases h with ⟨-, hbase⟩ | ⟨s, d, -, hasks, hkey⟩
  · simp [baseKeys, declarations, Declaration.key, Declaration.kind] at hbase
  · obtain ⟨hkind, hname⟩ := Prod.mk.inj hkey
    cases hasks with
    | param _ _ hd =>
      subst hd
      simp [← hname, Declaration.name, paramUniform]
    | time _ _ _ hd =>
      subst hd
      simp [← hname, Declaration.name]
    | resolution _ _ _ _ hd =>
      subst hd
      simp [← hname, Declaration.name]
    | channels hb _ _ _ _ => cases hb
    | _ => simp_all [Declaration.kind]

variable {left : Backend} {program : Program}

/-- **When a stage names things apart.**  Of one category a stage never declares two things of
    one name, and no varying is ever named like a uniform.  So the identifiers of a stage are
    distinct exactly when no attribute is named like something else that the stage is asked to
    declare, and no function like a varying or a uniform. -/
theorem nodup_identifiers_iff (h : b.compile g context = (left, .ok program)) :
    ∃ p, left.pass g context = .ok p ∧ ∀ stage, (p.identifiers stage).Nodup ↔ ∀ name,
      (left.Demands g context stage (.attribute, name) →
        ¬left.Demands g context stage (.varying, name) ∧
        ¬left.Demands g context stage (.uniform, name) ∧
        ¬left.Demands g context stage (.function, name)) ∧
      (left.Demands g context stage (.function, name) →
        ¬left.Demands g context stage (.varying, name) ∧
        ¬left.Demands g context stage (.uniform, name)) := by
  have hpass := pass_of_compile (congrArg Prod.snd h)
  rw [h] at hpass
  obtain ⟨p, hp⟩ := hpass
  refine ⟨p, hp, fun stage => ?_⟩
  have hkeys : (p.keys stage).Nodup := nodup_definitions hp stage
  have hmem : ∀ kind name, (kind, name) ∈ (p.keys stage).filter (·.1 != .precision) ↔
      kind ≠ .precision ∧ left.Demands g context stage (kind, name) := by
    intro kind name
    rw [List.mem_filter, declares_iff hp, and_comm, bne_iff_ne]
  rw [Progress.identifiers, List.nodup_map_iff_inj_on (hkeys.filter _)]
  constructor
  · intro hinj name
    have hone : ∀ kind kind', kind ≠ .precision → kind' ≠ .precision → kind ≠ kind' →
        left.Demands g context stage (kind, name) →
          ¬left.Demands g context stage (kind', name) := by
      intro kind kind' hkind hkind' hne hdemands hdemands'
      apply hne
      exact congrArg Prod.fst (hinj _ ((hmem kind name).mpr ⟨hkind, hdemands⟩) _
        ((hmem kind' name).mpr ⟨hkind', hdemands'⟩) rfl)
    constructor
    · intro hattribute
      exact ⟨hone .attribute .varying (by decide) (by decide) (by decide) hattribute,
        hone .attribute .uniform (by decide) (by decide) (by decide) hattribute,
        hone .attribute .function (by decide) (by decide) (by decide) hattribute⟩
    · intro hfunction
      exact ⟨hone .function .varying (by decide) (by decide) (by decide) hfunction,
        hone .function .uniform (by decide) (by decide) (by decide) hfunction⟩
  · intro hapart
    rintro ⟨kind, name⟩ hkey ⟨kind', name'⟩ hkey' hname
    obtain rfl : name = name' := hname
    obtain ⟨hkind, hdemands⟩ := (hmem kind name).mp hkey
    obtain ⟨hkind', hdemands'⟩ := (hmem kind' name).mp hkey'
    obtain ⟨hattribute, hfunction⟩ := hapart name
    -- the only two categories that are kept apart by their names alone
    have hvarying : left.Demands g context stage (.varying, name) →
        ¬left.Demands g context stage (.uniform, name) := by
      intro hv hu
      obtain ⟨rfl, hhead⟩ := varying_spec hv
      exact uniform_spec hu hhead
    cases kind <;> cases kind' <;> simp_all

/-- A material whose position is the time plus an attribute of the given name. -/
def clocked (name : String) : Graph :=
  { Graph.empty "g" with
    nodes :=
      [.make ⟨1⟩ "glob" .globals,
       .make ⟨2⟩ "clock" (.attribute name .float),
       .make ⟨3⟩ "sum" (.math .add .float),
       .make ⟨4⟩ "out" (.output .material)]
    connections :=
      [⟨⟨5⟩, ⟨1⟩, "time", ⟨3⟩, "a"⟩, ⟨⟨6⟩, ⟨2⟩, "value", ⟨3⟩, "b"⟩,
       ⟨⟨7⟩, ⟨3⟩, "result", ⟨4⟩, "position"⟩]
    version := 7 }

/-- An attribute `age` is apart from the uniform for the time. -/
theorem clocked_named_apart : ∃ program p,
    Backend.material.compile (clocked "age") {} = (.material, .ok program) ∧
      Backend.material.pass (clocked "age") {} = .ok p ∧
      p.identifiers .vertex = ["time", "age"] ∧
      ∀ name, Backend.material.Demands (clocked "age") {} .vertex (.attribute, name) →
        ¬Backend.material.Demands (clocked "age") {} .vertex (.uniform, name) := by
  have hpass : (Backend.material.pass (clocked "age") {}).map (·.identifiers .vertex) =
      .ok ["time", "age"] := by
    decide +kernel
  obtain ⟨p, hp, hidentifiers⟩ := map_eq_ok.mp hpass
  obtain ⟨program, hcompile, -⟩ := compile_material rfl hp
  obtain ⟨p', hp', hiff⟩ := nodup_identifiers_iff hcompile
  obtain rfl := Except.ok.inj (hp.symm.trans hp')
  have hnodup : (p.identifiers .vertex).Nodup := by
    rw [hidentifiers]
    decide
  refine ⟨_, p, hcompile, hp, hidentifiers, fun name hattribute => ?_⟩
  exact (((hiff .vertex).mp hnodup name).1 hattribute).2.1

/-- An attribute `time` is not: the vertex stage declares two things of this name. -/
theorem clocked_named_twice : ∃ program p,
    Backend.material.compile (clocked "time") {} = (.material, .ok program) ∧
      Backend.material.pass (clocked "time") {} = .ok p ∧
      p.declared .vertex =
        [.precision .high, .uniform .float "time", .attribute .float "time"] ∧
      ¬(p.identifiers .vertex).Nodup := by
  have hpass : (Backend.material.pass (clocked "time") {}).map (fun p =>
      (p.declared .vertex, p.identifiers .vertex)) =
      .ok ([.precision .high, .uniform .float "time", .attribute .float "time"],
        ["time", "time"]) := by
    decide +kernel
  obtain ⟨p, hp, heval⟩ := map_eq_ok.mp hpass
  obtain ⟨hdeclared, hidentifiers⟩ := Prod.mk.inj heval
  obtain ⟨program, hcompile, -⟩ := compile_material rfl hp
  refine ⟨_, p, hcompile, hp, hdeclared, ?_⟩
  rw [hidentifiers]
  decide

end Backend

end ShaderFlow
