/-
  ShaderFlow.Proofs.Varyings — whether the stages of a material fit together.

  What the fragment stage declares as a varying the vertex stage has to declare, too, with the
  same type.  Attributes, the normal and what the vertex stage writes are declared in both
  stages.  A node that reads a varying declares it in its own stage only: a varying that nothing
  writes, or that is written with another type, is declared in the fragment stage alone.

  Main definitions:
    * `Progress.Links`         — each varying of the fragment stage is one of the vertex stage;
    * `Material.Interpolates`  — the varyings that a graph writes or reads by name.

  Main statements:
    * `Material.cases_varying` — where the varyings of a stage come from;
    * `Material.links_iff`     — when the stages fit together.
-/

import ShaderFlow.Proofs.Interface

namespace ShaderFlow

variable {s : Site} {g : Graph} {context : Context} {p : Progress} {stage target : Stage}
  {name v : String} {type : PortType}

/-- Each varying of the fragment stage is one of the vertex stage, with the same type. -/
def Progress.Links (p : Progress) : Prop :=
  ∀ type name, .varying type name ∈ p.declared .fragment →
    Declaration.varying type name ∈ p.declared .vertex

namespace Backend

theorem varyingName_inj {name other : String} (h : varyingName name = varyingName other) :
    name = other := by
  simpa [varyingName, String.toList_inj] using congrArg String.toList h

end Backend

namespace Material

/-! ## §1. Names of varyings -/

theorem attributeVarying_inj {name other : String}
    (h : attributeVarying name = attributeVarying other) : name = other := by
  simpa [attributeVarying, String.toList_inj] using congrArg String.toList h

/-- The varyings of nodes by name, of attributes and of the normal are told apart by the first
    letter behind `v_`. -/
theorem varyingName_ne (name other : String) :
    Backend.varyingName name ≠ attributeVarying other ∧ Backend.varyingName name ≠ "v_normal" := by
  constructor
  · intro h
    simpa [Backend.varyingName, attributeVarying] using congrArg String.toList h
  · intro h
    simpa [Backend.varyingName] using congrArg String.toList h

/-! ## §2. Where varyings come from -/

/-- Whether a node writes or reads a varying by name. -/
def Names (s : Site) (name : String) (type : PortType) : Prop :=
  s.node.kind = .varyingWrite name type ∨ s.node.kind = .varyingRead name type

/-- A stage comes to a node that writes or reads a varying by name. -/
def Interpolates (g : Graph) (context : Context) (stage : Stage) (name : String)
    (type : PortType) : Prop :=
  ∃ s, Backend.material.Meets g context s ∧ s.stage = stage ∧ Names s name type

/-- **What asks for a varying**: a node that names it, one that writes it in the vertex stage, the
    output node for its normal, or what reads an attribute outside the vertex stage. -/
theorem cases_varying (h : Backend.material.Asks s target (.varying type v)) :
    (∃ name, v = Backend.varyingName name ∧ target = s.stage ∧ Names s name type) ∨
    (∃ name, v = Backend.varyingName name ∧ target = .fragment ∧ s.stage = .vertex ∧
      s.node.kind = .varyingWrite name type) ∨
    (v = "v_normal" ∧ Backend.material.Asks s .vertex (.varying type v)) ∨
    (∃ name, v = attributeVarying name ∧ (target = .vertex ∨ target = s.stage) ∧
      s.stage ≠ .vertex ∧ Reads s name type) := by
  cases h with
  | varying hk htarget hd =>
    obtain ⟨rfl, rfl⟩ := Declaration.varying.inj hd
    exact .inl ⟨_, rfl, htarget, hk⟩
  | written hk hstage htarget hd =>
    obtain ⟨rfl, rfl⟩ := Declaration.varying.inj hd
    exact .inr (.inl ⟨_, rfl, htarget, hstage, hk⟩)
  | normal hb hk hstage hfed _ hd =>
    obtain ⟨rfl, rfl⟩ := Declaration.varying.inj hd
    exact .inr (.inr (.inl ⟨rfl, .normal hb hk hstage hfed (.inl rfl) rfl⟩))
  | relay _ hreads hstage htarget hd =>
    obtain ⟨rfl, rfl⟩ := Declaration.varying.inj hd
    exact .inr (.inr (.inr ⟨_, rfl, htarget, hstage, hreads⟩))
  | param _ _ hd | function _ _ _ hd | time _ _ _ hd | resolution _ _ _ _ hd
  | «attribute» _ _ _ hd | channels _ _ _ _ hd => cases hd

/-- What asks the fragment stage for a varying asks the vertex stage for it, too, unless it is a
    node of the fragment stage that names the varying. -/
theorem varying_of_asks (h : Backend.material.Asks s .fragment (.varying type v)) :
    Backend.material.Asks s .vertex (.varying type v) ∨
      ∃ name, v = Backend.varyingName name ∧ s.stage = .fragment ∧ Names s name type := by
  rcases cases_varying h with ⟨name, hv, htarget, hnames⟩ | ⟨name, rfl, -, hstage, hk⟩ |
    ⟨-, hasks⟩ | ⟨name, rfl, -, hstage, hreads⟩
  · exact .inr ⟨name, hv, htarget.symm, hnames⟩
  · exact .inl (.varying (.inl hk) hstage.symm rfl)
  · exact .inl hasks
  · exact .inl (.relay rfl hreads hstage (.inl rfl) rfl)

/-- A varying that is called by a name is asked for by a node with this name: one of the stage
    itself, or one of the vertex stage that writes it. -/
theorem names_of_asks
    (h : Backend.material.Asks s target (.varying type (Backend.varyingName name))) :
    Names s name type ∧ (s.stage = target ∨ s.stage = .vertex) := by
  rcases cases_varying h with ⟨other, hv, htarget, hnames⟩ | ⟨other, hv, -, hstage, hk⟩ |
    ⟨hv, -⟩ | ⟨other, hv, -, -, -⟩
  · rw [Backend.varyingName_inj hv]
    exact ⟨hnames, .inl htarget.symm⟩
  · rw [Backend.varyingName_inj hv]
    exact ⟨.inl hk, .inr hstage⟩
  · exact absurd hv (varyingName_ne name name).2
  · exact absurd hv (varyingName_ne name other).1

/-- A varying that is called like an attribute is asked for by what reads the attribute outside
    the vertex stage. -/
theorem reads_of_asks
    (h : Backend.material.Asks s target (.varying type (attributeVarying name))) :
    s.stage ≠ .vertex ∧ Reads s name type := by
  rcases cases_varying h with ⟨other, hv, -, -⟩ | ⟨other, hv, -, -, -⟩ | ⟨hv, -⟩ |
    ⟨other, hv, -, hstage, hreads⟩
  · exact absurd hv.symm (varyingName_ne other name).1
  · exact absurd hv.symm (varyingName_ne other name).1
  · simpa [attributeVarying] using congrArg String.toList hv
  · rw [attributeVarying_inj hv]
    exact ⟨hstage, hreads⟩

/-! ## §3. Both stages -/

/-- Varyings are declared where they are asked for; none is there from the start. -/
theorem varying_mem_declared (hp : Backend.material.pass g context = .ok p) :
    .varying type v ∈ p.declared stage ↔
      ∃ s, Backend.material.Meets g context s ∧
        Backend.material.Asks s stage (.varying type v) := by
  constructor
  · intro hd
    rcases Backend.asks_of_declared hp hd with ⟨-, hbase⟩ | hasks
    · simp [Backend.declarations] at hbase
    · exact hasks
  · rintro ⟨s, hs, hasks⟩
    refine Backend.declared_of_asks hp hs hasks fun hkind => ?_
    cases hkind

/-- A stage declares the varyings that its nodes name. -/
theorem declared_of_interpolates (hp : Backend.material.pass g context = .ok p)
    (h : Interpolates g context stage name type) :
    .varying type (Backend.varyingName name) ∈ p.declared stage := by
  obtain ⟨s, hs, hstage, hnames⟩ := h
  exact (varying_mem_declared hp).mpr ⟨s, hs, .varying hnames hstage.symm rfl⟩

variable {left : Backend} {program : Program}

/-- **When the stages of a material fit together.**  A varying that the vertex stage writes is
    declared in both stages.  Of the varyings that the fragment stage declares, those of
    attributes and of the normal are declared by the vertex stage with the same type; so are all
    others exactly when each varying that a node of the fragment stage writes or reads by its
    name is written or read in the vertex stage, under the same name and with the same type. -/
theorem links_iff (h : Backend.material.compile g context = (left, .ok program)) :
    ∃ p, Backend.material.pass g context = .ok p ∧
      (∀ s name type, Backend.material.Meets g context s → s.stage = .vertex →
        s.node.kind = .varyingWrite name type →
          .varying type (Backend.varyingName name) ∈ p.declared .vertex ∧
          .varying type (Backend.varyingName name) ∈ p.declared .fragment) ∧
      (∀ type v, .varying type v ∈ p.declared .fragment →
        .varying type v ∈ p.declared .vertex ∨
          ∃ name, v = Backend.varyingName name ∧ Interpolates g context .fragment name type) ∧
      (p.Links ↔ ∀ name type, Interpolates g context .fragment name type →
        Interpolates g context .vertex name type) := by
  obtain ⟨p, hp⟩ := Backend.pass_of_compile (congrArg Prod.snd h)
  have hp : Backend.material.pass g context = .ok p := hp
  have hfragment : ∀ type v, .varying type v ∈ p.declared .fragment →
      .varying type v ∈ p.declared .vertex ∨
        ∃ name, v = Backend.varyingName name ∧ Interpolates g context .fragment name type := by
    intro type v hd
    obtain ⟨s, hs, hasks⟩ := (varying_mem_declared hp).mp hd
    rcases varying_of_asks hasks with hasks | ⟨name, rfl, hstage, hnames⟩
    · exact .inl ((varying_mem_declared hp).mpr ⟨s, hs, hasks⟩)
    · exact .inr ⟨name, rfl, s, hs, hstage, hnames⟩
  refine ⟨p, hp, ?_, hfragment, ?_, ?_⟩
  · intro s name type hs hstage hk
    constructor
    · exact (varying_mem_declared hp).mpr ⟨s, hs, .varying (.inl hk) hstage.symm rfl⟩
    · exact (varying_mem_declared hp).mpr ⟨s, hs, .written hk hstage rfl rfl⟩
  · intro hlinks name type hreads
    have hd := hlinks _ _ (declared_of_interpolates hp hreads)
    obtain ⟨s, hs, hasks⟩ := (varying_mem_declared hp).mp hd
    obtain ⟨hnames, hstage⟩ := names_of_asks hasks
    exact ⟨s, hs, hstage.elim id id, hnames⟩
  · intro hnamed type v hd
    rcases hfragment type v hd with hd | ⟨name, rfl, hreads⟩
    · exact hd
    · exact declared_of_interpolates hp (hnamed name type hreads)

/-- A material whose alpha is a varying `height`, with the nodes and connections that write
    it. -/
def fading (writer : List Node) (feed : List Connection) : Graph :=
  { Graph.empty "g" with
    nodes :=
      [.make ⟨1⟩ "out" (.output .material),
       .make ⟨2⟩ "read" (.varyingRead "height" .float)] ++ writer
    connections := ⟨⟨3⟩, ⟨2⟩, "value", ⟨1⟩, "alpha"⟩ :: feed
    version := 5 }

/-- The varying written from a constant. -/
def faded : Graph :=
  fading
    [.make ⟨4⟩ "one" (.constant (.float .one)),
     .make ⟨5⟩ "write" (.varyingWrite "height" .float)]
    [⟨⟨6⟩, ⟨4⟩, "value", ⟨5⟩, "value"⟩]

/-- What is written in the vertex stage and read in the fragment stage links. -/
theorem faded_links : ∃ program p,
    Backend.material.compile faded {} = (.material, .ok program) ∧
      Backend.material.pass faded {} = .ok p ∧
      .varying .float "v_var_height" ∈ p.declared .fragment ∧ p.Links ∧
      ∀ name type, Interpolates faded {} .fragment name type →
        Interpolates faded {} .vertex name type := by
  have hpass : (Backend.material.pass faded {}).map (fun p =>
      (p.declared .fragment, p.declared .vertex)) =
      .ok ([.precision .high, .varying .float "v_var_height"],
        [.precision .high, .attribute .vector3 "position", .varying .float "v_var_height"]) := by
    decide +kernel
  obtain ⟨p, hp, heval⟩ := map_eq_ok.mp hpass
  obtain ⟨hfragment, hvertex⟩ := Prod.mk.inj heval
  obtain ⟨program, hcompile, -⟩ := Backend.compile_material rfl hp
  have hlinks : p.Links := by
    intro type name hd
    rw [hfragment] at hd
    rw [hvertex]
    simp only [List.mem_cons, reduceCtorEq, List.not_mem_nil, or_false, false_or] at hd ⊢
    exact hd
  obtain ⟨p', hp', -, -, hiff⟩ := links_iff hcompile
  obtain rfl := Except.ok.inj (hp.symm.trans hp')
  refine ⟨_, p, hcompile, hp, ?_, hlinks, hiff.mp hlinks⟩
  rw [hfragment]
  decide

/-- A varying that is only read is declared in the fragment stage alone. -/
theorem fading_dangles : ∃ program p,
    Backend.material.compile (fading [] []) {} = (.material, .ok program) ∧
      Backend.material.pass (fading [] []) {} = .ok p ∧
      p.declared .fragment = [.precision .high, .varying .float "v_var_height"] ∧
      p.declared .vertex = [.precision .high, .attribute .vector3 "position"] ∧
      ¬p.Links := by
  have hpass : (Backend.material.pass (fading [] []) {}).map (fun p =>
      (p.declared .fragment, p.declared .vertex)) =
      .ok ([.precision .high, .varying .float "v_var_height"],
        [.precision .high, .attribute .vector3 "position"]) := by
    decide +kernel
  obtain ⟨p, hp, heval⟩ := map_eq_ok.mp hpass
  obtain ⟨hfragment, hvertex⟩ := Prod.mk.inj heval
  obtain ⟨program, hcompile, -⟩ := Backend.compile_material rfl hp
  refine ⟨_, p, hcompile, hp, hfragment, hvertex, fun hlinks => ?_⟩
  have hd := hlinks .float "v_var_height" (by rw [hfragment]; decide)
  rw [hvertex] at hd
  exact absurd hd (by decide)

end Material

end ShaderFlow
