/-
  ShaderFlow.Proofs.Parameters — the types of parameters.

  Parameters of one name share a uniform.  In each stage they have one type, since a second
  declaration in other words ends the compilation; but each stage is checked for itself, so
  stages may differ, and the table for the host has the type that was met first.

  Main definitions:
    * `Progress.ParamsAgree`    — every stage gives a parameter the type that the host is told.

  Main statements:
    * `PortType.declare_inj`    — a declarator tells its type;
    * `Needs.get?_params`       — the table for the host has what was noted first;
    * `Backend.uniform_cases`   — where the uniforms of a stage come from;
    * `Backend.paramsAgree_iff` — when the stages and the table agree.
-/

import ShaderFlow.Delivery.Bundle
import ShaderFlow.Proofs.Declarations
import ShaderFlow.Proofs.Definitions
import ShaderFlow.Proofs.Templates
import Mathlib.Data.List.Induction

namespace ShaderFlow

open Contribution

/-! ## §1. Types in code -/

namespace PortType

/-- The length of an array in code. -/
def lengthSuffix : PortType → String
  | .array _ length => "[" ++ toString length.toNat ++ "]"
  | _ => ""

theorem declare_eq (type : PortType) (name : String) :
    type.declare name = type.glslName ++ " " ++ name ++ type.lengthSuffix := by
  cases type <;> simp [declare, lengthSuffix, String.append_assoc]

theorem not_mem_glslName (type : PortType) : ' ' ∉ type.glslName.toList := by
  cases type with
  | array element length =>
    show ' ' ∉ (elementName element).toList
    cases element <;> decide
  | _ => decide

theorem elementName_inj {element other : ElementType}
    (h : elementName element = elementName other) : element = other := by
  cases element <;> cases other <;> first | rfl | exact absurd h (by decide)

/-- The names of types tell them apart, but for the lengths of arrays. -/
theorem eq_of_glslName {type other : PortType} (hname : type.glslName = other.glslName)
    (hlength : type.lengthSuffix = other.lengthSuffix) : type = other := by
  have hsuffix : ∀ length : UInt16, "[" ++ toString length.toNat ++ "]" ≠ "" := by
    intro length h
    simpa using congrArg String.toList h
  cases type with
  | array element length =>
    cases other with
    | array element' length' =>
      have hdigits : Nat.toDigits 10 length.toNat = Nat.toDigits 10 length'.toNat := by
        simpa [lengthSuffix, Nat.toList_repr] using congrArg String.toList hlength
      have hnat : length.toNat = length'.toNat := by
        simpa using congrArg (Nat.ofDigitChars 10 · 0) hdigits
      rw [elementName_inj hname, UInt16.toNat_inj.mp hnat]
    | _ => exact absurd hlength (hsuffix length)
  | _ =>
    cases other with
    | array element' length' => exact absurd hlength.symm (hsuffix length')
    | _ => first | rfl | exact absurd hname (by decide)

/-- **A declarator tells its type**: the word in front of the first blank, and the length behind
    the name. -/
theorem declare_inj {type other : PortType} {name : String}
    (h : type.declare name = other.declare name) : type = other := by
  have hchars : ∀ type : PortType, (type.declare name).toList =
      type.glslName.toList ++ ' ' :: (name.toList ++ type.lengthSuffix.toList) := by
    intro type
    rw [declare_eq]
    simp [String.toList_append]
  have hword : ∀ type : PortType,
      (type.declare name).toList.takeWhile (· != ' ') = type.glslName.toList := by
    intro type
    rw [hchars, List.takeWhile_append_of_pos]
    · simp
    · intro c hc
      have hne : c ≠ ' ' := fun heq => type.not_mem_glslName (heq ▸ hc)
      simpa using hne
  have hname : type.glslName = other.glslName := by
    rw [← String.toList_inj, ← hword, ← hword, h]
  refine eq_of_glslName hname ?_
  have hrest := (hchars type).symm.trans ((congrArg String.toList h).trans (hchars other))
  rw [hname] at hrest
  simpa [String.toList_inj] using hrest

end PortType

/-! ## §2. The table for the host -/

namespace Note

/-- The parameter that a note is about. -/
def binding? : Note → Option ParamBinding
  | .param binding => some binding
  | _ => none

end Note

theorem Table.get?_keep {κ α : Type} [BEq κ] [LawfulBEq κ] (t : Table κ α) (k k' : κ) (a : α) :
    (t.keep k a).get? k' = (t.get? k').or (if k == k' then some a else none) := by
  unfold keep
  split
  next hhas =>
    by_cases hk : k = k'
    · subst hk
      obtain ⟨other, hother⟩ : ∃ other, t.get? k = some other := by
        cases hget : t.get? k with
        | none => exact absurd (Table.has_eq_true.mp hhas) (Table.get?_eq_none.mp hget)
        | some other => exact ⟨other, rfl⟩
      rw [hother]
      rfl
    · simp [hk]
  next =>
    rw [Table.get?_append]
    by_cases hk : k = k'
    · subst hk
      simp [get?]
    · simp [get?, hk]

/-- **The table for the host has of each parameter what was noted first.** -/
theorem Needs.get?_params (notes : List Note) (name : String) :
    (Needs.ofNotes notes).params.get? name =
      (notes.filterMap Note.binding?).find? (·.param == name) := by
  induction notes using List.reverseRecOn with
  | nil => rfl
  | append_singleton notes n ih =>
    rw [ofNotes, List.foldl_append, List.filterMap_append, List.find?_append, ← ih]
    cases n with
    | param binding =>
      show ((Needs.ofNotes notes).params.keep binding.param binding).get? name = _
      rw [Table.get?_keep]
      congr 1
      by_cases hname : binding.param = name <;> simp [Note.binding?, hname]
    | _ => simp [Note.binding?, ofNotes, Needs.note]

/-! ## §3. Which nodes ask for parameters -/

/-- Whether a declaration is no parameter's: a uniform is a sampler or a value of the host. -/
def Declaration.isForeign : Declaration → Bool
  | .uniform .texture _ => true
  | .uniform _ name => name == "time" || name == "resolution"
  | _ => true

/-- Whether a contribution has nothing to do with parameters. -/
def Contribution.isForeign : Contribution → Bool
  | .define _ declarations => declarations.all Declaration.isForeign
  | .note (.param _) => false
  | _ => true

theorem Contribution.isForeign_of_isComputation {c : Contribution} (h : c.isComputation = true) :
    c.isForeign = true := by
  cases c with
  | define stage declarations =>
    refine List.all_eq_true.mpr fun d hd => ?_
    have hkind := List.all_eq_true.mp h d hd
    cases d with
    | uniform _ _ => cases hkind
    | _ => rfl
  | write _ _ _ => rfl
  | note _ => cases h

section Foreign

variable {b : Backend} {s : Site} {cs : List Contribution}

theorem Material.readAttribute_foreign (name : String) (type : PortType) :
    ∀ c ∈ (readAttribute s name type).contributions, c.isForeign = true := by
  unfold readAttribute
  split <;> simp [Contribution.isForeign, Declaration.isForeign]

theorem Site.Samples.isForeign {c : Contribution} (h : s.Samples c) : c.isForeign = true := by
  cases h <;> rfl

theorem Backend.ReadsGlobal.isForeign {output : String} {r : Reading}
    (h : b.ReadsGlobal s output r) : ∀ c ∈ r.contributions, c.isForeign = true := by
  cases h with
  | time => simp [Site.readTime, Contribution.isForeign, Declaration.isForeign]
  | resolution _ => simp [Site.readResolution, Contribution.isForeign, Declaration.isForeign]
  | noted => simp [Contribution.isForeign]
  | fragCoord _ | place _ => exact List.forall_mem_nil _
  | position | uv _ => exact Material.readAttribute_foreign _ _
  | sampled hread => exact fun c hc => (Particles.samples_read hread c hc).isForeign
  | field _ => exact fun c hc => (Points.samples_readField _ c hc).isForeign

/-- Values of the host that are read and others that are written are no parameters. -/
theorem exchange_foreign {readings : List Reading} {writes : List (Contribution × Statement)}
    (hreadings : ∀ r ∈ readings, ∀ c ∈ r.contributions, s.Samples c)
    (hwrites : ∀ write ∈ writes, ∃ name, write.1 = .note (.writes name)) :
    ∀ c ∈ s.exchange readings writes, c.isForeign = true := by
  refine Site.forall_mem_exchange (fun r hr c hc => (hreadings r hr c hc).isForeign) ?_ fun _ => rfl
  intro write hwrite
  obtain ⟨name, hnote⟩ := hwrites write hwrite
  rw [hnote]
  rfl

/-- The output node of a material has nothing to do with parameters either. -/
theorem vertex_foreign {position : Reading} {definitions : List Contribution}
    {body last : List Statement} (hposition : Material.position s = .ok position)
    (hnormal : Material.normal s = .ok (definitions, body)) :
    ∀ c ∈ position.contributions ++ definitions ++ [.statements s.stage last],
      c.isForeign = true := by
  have hfirst : ∀ c ∈ position.contributions, c.isForeign = true := by
    rcases Material.position_cases hposition with ⟨o, _, _, rfl⟩ | ⟨_, rfl⟩
    · exact List.forall_mem_nil _
    · exact Material.readAttribute_foreign _ _
  have hsecond : ∀ c ∈ definitions, c.isForeign = true := by
    obtain ⟨_, rfl, _⟩ | ⟨o, _, _, rfl, _⟩ := Material.normal_cases hnormal
    · exact List.forall_mem_nil _
    · simp [Contribution.isForeign, Declaration.isForeign]
  simp only [List.forall_mem_append]
  exact ⟨⟨hfirst, hsecond⟩, List.forall_mem_singleton.mpr rfl⟩

/-- **Only parameter nodes ask for parameters**, in every backend. -/
theorem Backend.emitLeaf_foreign (h : b.emitLeaf s s.node.kind = .ok cs)
    (hparam : ∀ name type default, s.node.kind ≠ .param name type default) :
    ∀ c ∈ cs, c.isForeign = true := by
  cases Site.emits_of_emitLeaf h with
  | param hk => exact absurd hk (hparam _ _ _)
  | globals _ hreadings =>
    simp only [List.forall_mem_append, List.forall_mem_flatMap]
    refine ⟨fun r hr => ?_, List.forall_mem_singleton.mpr rfl⟩
    obtain ⟨output, _, hread⟩ := exists_mem_of_forall₂ hreadings.flip r hr
    exact hread.isForeign
  | «attribute» _ h =>
    cases h with
    | read =>
      simp only [List.forall_mem_append]
      exact ⟨Material.readAttribute_foreign _ _, List.forall_mem_singleton.mpr rfl⟩
    | exchanged _ hreadings hwrites =>
      refine exchange_foreign hreadings.samples fun write hwrite => ?_
      exact ⟨_, hwrites.note_eq write hwrite⟩
  | output _ h =>
    cases h with
    | vertex _ hposition hnormal => exact vertex_foreign hposition hnormal
    | fragment _ _ _ => exact List.forall_mem_singleton.mpr rfl
    | written _ hwrites =>
      refine exchange_foreign (List.forall_mem_nil _) fun write hwrite => ?_
      obtain ⟨name, _, hnote⟩ := hwrites.note_eq write hwrite
      exact ⟨name, hnote⟩
  | subnet _ | subnetInput _ => exact List.forall_mem_nil _
  | constant hk | math hk _ | varyingWrite hk _ | varyingRead hk | function hk _ _
  | subnetOutput hk _ =>
    exact fun c hc => Contribution.isForeign_of_isComputation
      (isComputation_of_emitLeaf (by rw [hk]; rfl) h c hc)

end Foreign

/-! ## §4. Stages and the table for the host -/

namespace Backend

theorem paramUniform_inj {name other : String} (h : paramUniform name = paramUniform other) :
    name = other := by
  simpa [paramUniform, String.toList_inj] using congrArg String.toList h

/-- What is named like the uniform of a parameter is one, or a sampler. -/
theorem eq_texture_of_isForeign {type : PortType} {name : String}
    (h : (Declaration.uniform type (paramUniform name)).isForeign = true) : type = .texture := by
  have hne : ∀ other : String, other.toList.head? ≠ some 'p' → paramUniform name ≠ other := by
    rintro _ hother rfl
    exact hother (by simp [paramUniform])
  cases type with
  | texture => rfl
  | _ => simp [Declaration.isForeign, hne "time" (by decide), hne "resolution" (by decide)] at h

variable {b : Backend} {g : Graph} {context : Context} {p : Progress} {stage stage' : Stage}
  {name : String} {type type' : PortType}

/-- A stage comes to a parameter of the given name and type. -/
def Uses (b : Backend) (g : Graph) (context : Context) (stage : Stage) (name : String)
    (type : PortType) : Prop :=
  ∃ s default, b.Meets g context s ∧ s.stage = stage ∧ s.node.kind = .param name type default

theorem declarations_foreign (b : Backend) (config : Config) (stage : Stage) :
    ∀ d ∈ b.declarations config stage, d.isForeign = true := by
  cases b <;> simp [declarations, Particles.declarations, Declaration.isForeign]

/-- **Where uniforms come from** that are named like those of parameters. -/
theorem uniform_cases (h : b.pass g context = .ok p) {d : Definition}
    (hd : d ∈ p.listing.definitionsOf stage)
    (hdecl : d.declaration = .uniform type (paramUniform name)) :
    type = .texture ∨ b.Uses g context stage name type := by
  rcases Backend.origin h hd with ⟨-, hbase⟩ | ⟨s, cs, hs, hemit, -, hd⟩
  · left
    rw [hdecl] at hbase
    exact eq_texture_of_isForeign (declarations_foreign b context.config stage _ hbase)
  · rw [hdecl] at hd
    by_cases hparam : ∃ other type default, s.node.kind = .param other type default
    · right
      obtain ⟨other, type', default, hk⟩ := hparam
      rw [hk] at hemit
      cases hemit
      -- a parameter declares its uniform, and only in the stage that comes to it
      have hmem : s.stage = stage ∧ type = type' ∧ paramUniform name = paramUniform other := by
        simpa [emitParam, Contribution.declarations, declarationsFor, Contribution.statements]
          using hd
      obtain ⟨hstage, rfl, hname⟩ := hmem
      rw [paramUniform_inj hname]
      exact ⟨s, default, hs, hstage, hk⟩
    · left
      obtain ⟨c, hc, hd⟩ := List.mem_flatMap.mp hd
      have hforeign := emitLeaf_foreign hemit
        (fun name type default hk => hparam ⟨name, type, default, hk⟩) c hc
      cases c with
      | define target declarations =>
        simp only [declarationsFor] at hd
        split at hd
        next => exact eq_texture_of_isForeign (List.all_eq_true.mp hforeign _ hd)
        next => cases hd
      | _ => cases hd

/-- Each stage declares the parameters that it comes to with their types. -/
theorem declares_of_uses (h : b.pass g context = .ok p) (huses : b.Uses g context stage name type) :
    ∃ d ∈ p.listing.definitionsOf stage, d.declaration = .uniform type (paramUniform name) := by
  obtain ⟨s, default, hs, rfl, hk⟩ := huses
  obtain ⟨cs, hemit, hdeclares, -⟩ := Backend.declares_of_meets h hs (by simp [hk])
  rw [hk] at hemit
  cases hemit
  obtain ⟨d, hd, hkey, hline⟩ := hdeclares s.stage (.uniform type (paramUniform name))
    (by simp [emitParam, Contribution.declarations, declarationsFor])
  refine ⟨d, hd, ?_⟩
  cases hdecl : d.declaration with
  | uniform type' other =>
    rw [hdecl] at hkey hline
    obtain rfl : other = paramUniform name := by
      simpa [Declaration.key, Declaration.kind, Declaration.name] using hkey
    have hdeclare : type'.declare (paramUniform name) = type.declare (paramUniform name) := by
      simpa [Declaration.line, ← String.toList_inj] using hline
    rw [PortType.declare_inj hdeclare]
  | _ => simp [hdecl, Declaration.key, Declaration.kind] at hkey

/-- The host is told about the parameters that a stage comes to. -/
theorem exists_binding_of_uses (h : b.pass g context = .ok p)
    (huses : b.Uses g context stage name type) :
    ∃ binding, p.needs.params.get? name = some binding := by
  obtain ⟨s, default, hs, rfl, hk⟩ := huses
  obtain ⟨cs, hemit, -, hnotes⟩ := Backend.declares_of_meets h hs (by simp [hk])
  rw [hk] at hemit
  cases hemit
  have hnoted := hnotes _ (List.mem_cons_of_mem _ List.mem_cons_self)
  rw [Progress.needs, Needs.get?_params, ← Option.isSome_iff_exists, List.find?_isSome]
  exact ⟨_, List.mem_filterMap.mpr ⟨_, hnoted, rfl⟩, beq_self_eq_true name⟩

/-- The host is told nothing else. -/
theorem uses_of_binding (h : b.pass g context = .ok p) {binding : ParamBinding}
    (hbinding : p.needs.params.get? name = some binding) :
    ∃ stage, b.Uses g context stage name binding.type := by
  rw [Progress.needs, Needs.get?_params] at hbinding
  have hname : binding.param = name := by simpa using List.find?_some hbinding
  obtain ⟨note, hnote, hof⟩ := List.mem_filterMap.mp (List.mem_of_find?_eq_some hbinding)
  cases note with
  | param other =>
    cases hof
    obtain ⟨s, cs, hs, hemit, hmem⟩ := Backend.meets_of_pass_note h hnote
    by_cases hparam : ∃ other type default, s.node.kind = .param other type default
    · obtain ⟨other, type, default, hk⟩ := hparam
      rw [hk] at hemit
      cases hemit
      obtain rfl : binding =
          { node := s.ref.path, param := other, uniform := paramUniform other, type, default } := by
        simpa [emitParam, Contribution.statements] using hmem
      rw [← hname]
      exact ⟨s.stage, s, default, hs, rfl, hk⟩
    · have hforeign := emitLeaf_foreign hemit
        (fun name type default hk => hparam ⟨name, type, default, hk⟩) _ hmem
      cases hforeign
  | _ => cases hof

/-- A stage comes to parameters of one name with one type only. -/
theorem uses_unique (h : b.pass g context = .ok p) (huses : b.Uses g context stage name type)
    (huses' : b.Uses g context stage name type') : type = type' := by
  obtain ⟨d, hd, hdecl⟩ := declares_of_uses h huses
  obtain ⟨d', hd', hdecl'⟩ := declares_of_uses h huses'
  have hkey : d.declaration.key = d'.declaration.key := by
    rw [hdecl, hdecl']
    rfl
  obtain rfl := List.inj_on_of_nodup_map (Backend.nodup_definitions h stage) hd hd' hkey
  rw [hdecl, Declaration.uniform.injEq] at hdecl'
  exact hdecl'.1

end Backend

/-- Every stage that declares the uniform of a parameter gives it the type that the host is
    told. -/
def Progress.ParamsAgree (p : Progress) (params : Table String ParamBinding) : Prop :=
  ∀ stage, ∀ d ∈ p.listing.definitionsOf stage, ∀ type name,
    d.declaration = .uniform type (Backend.paramUniform name) →
      (params.get? name).map (·.type) = some type

namespace Backend

variable {b left : Backend} {g : Graph} {context : Context} {program : Program}

/-- What a program tells the host about parameters and the time is what its pass noted. -/
theorem needs_of_compile (h : b.compile g context = (left, .ok program)) :
    ∃ p, left.pass g context = .ok p ∧ program.params = p.needs.params ∧
      program.timeDependent = p.needs.timeDependent := by
  cases b with
  | material =>
    obtain ⟨rfl, hcompiled⟩ := Prod.mk.inj h
    obtain ⟨p, hp, hcompiled⟩ := bind_eq_ok.mp hcompiled
    obtain ⟨m, hm, hprogram⟩ := bind_eq_ok.mp hcompiled
    obtain ⟨vertex, _, hm⟩ := bind_eq_ok.mp hm
    obtain ⟨fragment, _, hm⟩ := bind_eq_ok.mp hm
    rw [pure_eq_ok] at hprogram hm
    subst hprogram hm
    exact ⟨p, hp, rfl, rfl⟩
  | particles table =>
    obtain ⟨table', p, kept, rfl, rfl, -, hp, hkept⟩ := particles_of_compile h
    obtain ⟨shaders, _, hkept⟩ := bind_eq_ok.mp hkept
    rw [pure_eq_ok] at hkept
    subst hkept
    exact ⟨p, hp, rfl, rfl⟩
  | points =>
    obtain ⟨p, m, rfl, rfl, hp, hm⟩ := points_of_compile h
    obtain ⟨hparams, htime, -⟩ := PointProgram.of_assemble hm
    exact ⟨p, hp, hparams, htime⟩

theorem params_of_compile (h : b.compile g context = (left, .ok program)) :
    ∃ p, left.pass g context = .ok p ∧ program.params = p.needs.params := by
  obtain ⟨p, hp, hparams, -⟩ := needs_of_compile h
  exact ⟨p, hp, hparams⟩

/-- **When the stages and the table agree.**  A stage never gives a parameter two types.  All
    stages give each parameter the type that the host is told exactly when no two stages come to
    parameters of one name with different types, and no sampler is named like the uniform of a
    parameter unless it is one. -/
theorem paramsAgree_iff (h : b.compile g context = (left, .ok program)) :
    ∃ p, left.pass g context = .ok p ∧
      (∀ stage name type type', left.Uses g context stage name type →
        left.Uses g context stage name type' → type = type') ∧
      (p.ParamsAgree program.params ↔
        (∀ stage stage' name type type', left.Uses g context stage name type →
          left.Uses g context stage' name type' → type = type') ∧
        ∀ stage, ∀ d ∈ p.listing.definitionsOf stage, ∀ name,
          d.declaration = .uniform .texture (paramUniform name) →
            ∃ stage', left.Uses g context stage' name .texture) := by
  obtain ⟨p, hp, hparams⟩ := params_of_compile h
  rw [hparams]
  refine ⟨p, hp, fun stage name type type' => uses_unique hp, ?_, ?_⟩
  · intro hagree
    have htable : ∀ stage name type, left.Uses g context stage name type →
        (p.needs.params.get? name).map (·.type) = some type := by
      intro stage name type huses
      obtain ⟨d, hd, hdecl⟩ := declares_of_uses hp huses
      exact hagree stage d hd type name hdecl
    constructor
    · intro stage stage' name type type' huses huses'
      exact Option.some.inj
        ((htable stage name type huses).symm.trans (htable stage' name type' huses'))
    · intro stage d hd name hdecl
      obtain ⟨binding, hbinding, htype⟩ :=
        Option.map_eq_some_iff.mp (hagree stage d hd .texture name hdecl)
      obtain ⟨stage', huses⟩ := uses_of_binding hp hbinding
      exact ⟨stage', htype ▸ huses⟩
  · rintro ⟨hone, hsampler⟩ stage d hd type name hdecl
    have huses : ∃ stage', left.Uses g context stage' name type := by
      rcases uniform_cases hp hd hdecl with rfl | huses
      · exact hsampler stage d hd name hdecl
      · exact ⟨stage, huses⟩
    obtain ⟨stage', huses⟩ := huses
    obtain ⟨binding, hbinding⟩ := exists_binding_of_uses hp huses
    obtain ⟨first, hfirst⟩ := uses_of_binding hp hbinding
    rw [hbinding, Option.map_some, hone first stage' name _ _ hfirst huses]

/-- A material whose position is one parameter `s` and whose alpha is another, that has the type
    of the given value. -/
def swaying (value : Value) : Graph :=
  { Graph.empty "g" with
    nodes :=
      [.make ⟨1⟩ "out" (.output .material),
       .make ⟨2⟩ "a" (.param "s" .vector3 (.vector3 .zero .zero .zero)),
       .make ⟨3⟩ "b" (.param "s" value.portType value)]
    connections :=
      [⟨⟨4⟩, ⟨2⟩, "value", ⟨1⟩, "position"⟩, ⟨⟨5⟩, ⟨3⟩, "value", ⟨1⟩, "alpha"⟩]
    version := 5 }

theorem mem_definitions {p : Progress} {stage : Stage} {d : Definition}
    (h : d ∈ p.listing.definitionsOf stage) :
    ∃ ds, (stage, ds) ∈ p.listing.definitions ∧ d ∈ ds := by
  unfold Listing.definitionsOf at h
  cases hget : p.listing.definitions.get? stage with
  | none => simp [hget] at h
  | some ds => exact ⟨ds, Table.mem_of_get? hget, by simpa [hget] using h⟩

/-- Parameters of one name and type agree, in both stages. -/
theorem swaying_paramsAgree : ∃ program p,
    Backend.material.compile (swaying (.vector3 .zero .zero .zero)) {} = (.material, .ok program) ∧
      Backend.material.pass (swaying (.vector3 .zero .zero .zero)) {} = .ok p ∧
      p.ParamsAgree program.params ∧
      ∀ stage stage' name type type',
        Backend.material.Uses (swaying (.vector3 .zero .zero .zero)) {} stage name type →
          Backend.material.Uses (swaying (.vector3 .zero .zero .zero)) {} stage' name type' →
            type = type' := by
  -- whatever uniform is declared, it is the one that the table has
  have hpass : (Backend.material.pass (swaying (.vector3 .zero .zero .zero)) {}).map (fun p =>
      (p.listing.definitions.all fun entry => entry.2.all fun d =>
        d.declaration.kind != .uniform || d.declaration == .uniform .vector3 (paramUniform "s"),
      (p.needs.params.get? "s").map (·.type))) = .ok (true, some .vector3) := by
    decide +kernel
  obtain ⟨p, hp, heval⟩ := map_eq_ok.mp hpass
  obtain ⟨hdefinitions, htable⟩ := Prod.mk.inj heval
  obtain ⟨program, hcompile, hparams⟩ := compile_material rfl hp
  have hagree : p.ParamsAgree (Program.material program).params := by
    intro stage d hd type name hdecl
    obtain ⟨ds, hds, hd⟩ := mem_definitions hd
    have heq := List.all_eq_true.mp (List.all_eq_true.mp hdefinitions _ hds) d hd
    simp only [hdecl, Declaration.kind, bne_self_eq_false, Bool.false_or, beq_iff_eq,
      Declaration.uniform.injEq] at heq
    rw [heq.1, paramUniform_inj heq.2, ← htable]
    exact congrArg (fun params : Table String ParamBinding => (params.get? "s").map (·.type))
      hparams
  obtain ⟨p', hp', -, hiff⟩ := paramsAgree_iff hcompile
  obtain rfl := Except.ok.inj (hp.symm.trans hp')
  exact ⟨_, p, hcompile, hp, hagree, (hiff.mp hagree).1⟩

/-- A position and a number of one name: the vertex stage declares the uniform with three
    components and the fragment stage with one. -/
theorem swaying_disagrees : ∃ program p,
    Backend.material.compile (swaying (.float .one)) {} = (.material, .ok program) ∧
      Backend.material.pass (swaying (.float .one)) {} = .ok p ∧
      (∃ d ∈ p.listing.definitionsOf .vertex, d.declaration = .uniform .vector3 (paramUniform "s")) ∧
      (∃ d ∈ p.listing.definitionsOf .fragment, d.declaration = .uniform .float (paramUniform "s")) ∧
      ¬p.ParamsAgree program.params := by
  have hpass : (Backend.material.pass (swaying (.float .one)) {}).map (fun p =>
      ((p.listing.definitionsOf .vertex).any (·.declaration == .uniform .vector3 (paramUniform "s")),
        (p.listing.definitionsOf .fragment).any
          (·.declaration == .uniform .float (paramUniform "s")))) = .ok (true, true) := by
    decide +kernel
  obtain ⟨p, hp, heval⟩ := map_eq_ok.mp hpass
  obtain ⟨hvertex, hfragment⟩ := Prod.mk.inj heval
  obtain ⟨program, hcompile, -⟩ := compile_material rfl hp
  simp only [List.any_eq_true, beq_iff_eq] at hvertex hfragment
  refine ⟨_, p, hcompile, hp, hvertex, hfragment, fun hagree => ?_⟩
  -- the table has one type only
  obtain ⟨d, hd, hdecl⟩ := hvertex
  obtain ⟨d', hd', hdecl'⟩ := hfragment
  have htypes := (hagree _ d hd _ _ hdecl).symm.trans (hagree _ d' hd' _ _ hdecl')
  exact absurd htypes (by decide)

end Backend

end ShaderFlow
