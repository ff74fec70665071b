/-
  ShaderFlow.Proofs.Results — what the output node of a graph makes of its inputs.

  A material declares the results that its epilogue hands on, particles write channels of the
  texture of a stage, and points write fields of a record.  Each of them depends on the values
  of the inputs alone.

  Main definitions:
    * `Outcome`, `Backend.outcome` — what an output node leaves behind;
    * `Store.leaving`              — a store with such results.

  Main statements:
    * `Meaning.run_writes`        — writing to places that are no variables;
    * `Site.EmitsOutput.delivers` — the code of an output node.
-/

import ShaderFlow.Proofs.Evaluation

namespace ShaderFlow

open Contribution

variable {V : Type} {M : Meaning V} {σ : Store V} {s : Site} {cs : List Contribution}
  {value : String → V}

/-! ## §1. Results -/

/-- What an output node leaves behind. -/
structure Outcome (V : Type) where
  /-- The variables that it declares. -/
  declared : Table String V := []
  /-- What it writes to places that are no variables, in order. -/
  written : List (Place × V) := []

/-- A store with the results of an output node. -/
def Store.leaving (σ : Store V) (outcome : Outcome V) : Store V :=
  { σ.push outcome.declared with written := σ.written ++ outcome.written }

theorem Store.find?_leaving {outcome : Outcome V} {x : String} {v : V} (h : x ∉ σ.names)
    (hdeclared : outcome.declared = [(x, v)]) : (σ.leaving outcome).find? x = some v := by
  have hget : Table.get? outcome.declared x = some v := by
    rw [hdeclared]
    simp [Table.get?]
  exact Store.find?_push_of_get? h hget

/-- The vertex stage gets the position, which is that of the vertex if nothing feeds it, and
    the normal in view space if something feeds that; the fragment stage gets the color. -/
def Material.outcome (M : Meaning V) (s : Site) (value : String → V) : Outcome V :=
  if s.stage = .vertex then
    { declared :=
        [("transformed", if s.isFed "position" then value "position" else M.vertex "position")]
      written :=
        if s.isFed "normal" then [(.varying "v_normal", M.viewNormal (value "normal"))] else [] }
  else { declared := [("diffuseColor", M.withAlpha (value "color") (value "alpha"))] }

/-- The channels that an input of the output node is stored in. -/
def Particles.outputChannels (table : Allocations) (name : String) : String :=
  ((table.get? name).map (·.swizzle PortType.vector3.components)).getD ""

/-- A stage gets the attributes that are stored in its texture and that something feeds, as
    what their channels hold. -/
def Particles.outcome (table : Allocations) (M : Meaning V) (s : Site) (value : String → V) :
    Outcome V where
  written :=
    (outputAttributes.filter fun name => isOwned table name s.stage && s.isFed name).map
      fun name =>
        let swizzle := outputChannels table name
        (.channels swizzle, M.coerce .vector3 (channelType swizzle) (value name))

/-- The record gets the fields that something feeds. -/
def Points.outcome (s : Site) (value : String → V) : Outcome V where
  written := (outputFields.filter s.isFed).map fun name => (.field (pointOf s) name, value name)

/-- What the output node of a site leaves behind, where its inputs have the given values. -/
def Backend.outcome (b : Backend) (M : Meaning V) (s : Site) (value : String → V) : Outcome V :=
  match b with
  | .material => Material.outcome M s value
  | .particles table => Particles.outcome table M s value
  | .points => Points.outcome s value

/-! ## §2. Writing to places that are no variables -/

/-- What an input evaluates to does not depend on what was written. -/
theorem Meaning.operand_input {name : String} {o : Operand} (h : s.input name = .ok o)
    (written : List (Place × V)) : M.operand { σ with written } o = M.operand σ o := by
  unfold Site.input at h
  split at h
  next => cases h
  next port _ =>
    split at h
    next c _ =>
      split at h
      next => cases h
      next source _ =>
        cases h
        unfold Operand.as
        split <;> rfl
    next =>
      split at h
      · cases h
      · split at h
        · cases h
          unfold Operand.as
          split <;> rfl
        · cases h
          rfl

/-- **Writing to places that are no variables**, where no value depends on what was written. -/
theorem Meaning.run_writes :
    ∀ {body : List Statement} {writes : List (Place × V)} {σ : Store V},
      List.Forall₂ (fun st e => ∃ value, st = .assign e.1 value ∧ e.1.locals = [] ∧
        ∀ written, M.expr { σ with written } value = some e.2) body writes →
      σ.skipped = 0 → M.run σ body = some { σ with written := σ.written ++ writes }
  | _, _, σ, .nil, _ => by rw [run_nil, List.append_nil]
  | st :: rest, e :: writes, σ, .cons hst hrest, hrunning => by
    obtain ⟨value, rfl, hplace, hvalue⟩ := hst
    have hstep : M.step σ (.assign e.1 value) = some (σ.write e.1 e.2) := by
      have hhere : M.expr σ value = some e.2 := hvalue σ.written
      cases hcase : e.1 with
      | var x =>
        rw [hcase] at hplace
        cases hplace
      | varying _ | channels _ | field _ _ => simp only [step, hrunning, hhere, Option.map_some]
    have ih := run_writes (σ := σ.write e.1 e.2) hrest hrunning
    rw [run_cons, hstep, Option.bind_some, ih]
    simp only [Store.write, List.append_assoc, List.singleton_append]

/-! ## §3. The code of an output node -/

/-- A site whose inputs, as far as they matter in its stage, evaluate to the given values. -/
def Site.Reads (b : Backend) (M : Meaning V) (σ : Store V) (s : Site) (value : String → V) : Prop :=
  ∀ input o, (b.follows s.stage s.node).allows input = true → s.input input = .ok o →
    M.operand σ o = some (value input)

/-- An assignment with its note, and what it comes to. -/
def Meaning.Stores (M : Meaning V) (σ : Store V) (write : Contribution × Statement)
    (result : Place × V) : Prop :=
  ∃ value, write.2 = .assign result.1 value ∧ result.1.locals = [] ∧
    ∀ written, M.expr { σ with written } value = some result.2

/-- Assignments of a node that does nothing else. -/
theorem Meaning.run_stores {writes : List (Contribution × Statement)}
    {results : List (Place × V)} (h : List.Forall₂ (M.Stores σ) writes results)
    (hrunning : σ.skipped = 0) :
    M.run σ (writes.map (·.2)) = some { σ with written := σ.written ++ results } := by
  refine run_writes ?_ hrunning
  rw [List.forall₂_map_left_iff]
  refine h.imp fun write result hwrite => ?_
  obtain ⟨value, hassign, hplace, hvalue⟩ := hwrite
  exact ⟨value, hassign, hplace, hvalue⟩

/-- Notes are for the host only. -/
theorem Site.adds_writes {writes : List (Contribution × Statement)}
    (hnotes : ∀ write ∈ writes, ∃ note, write.1 = .note note) :
    s.Adds (s.exchange [] writes) (writes.map (·.2)) := by
  intro stage
  have hsilent : written stage (writes.map (·.1)) = [] := by
    rw [written, List.flatMap_map, List.flatMap_eq_nil_iff]
    intro write hwrite
    obtain ⟨note, hnote⟩ := hnotes write hwrite
    rw [hnote]
    rfl
  rw [Site.exchange, List.flatMap_nil, List.nil_append, List.map_nil, List.nil_append,
    written_append, hsilent, List.nil_append, written_statements, written_nil, List.append_nil]

/-- What an output node adds to its stage leaves behind what the values of its inputs come to. -/
def Site.Delivers (b : Backend) (s : Site) (cs : List Contribution) : Prop :=
  ∃ body, s.Adds cs body ∧
    ∀ {V : Type} (M : Meaning V) (σ : Store V) (value : String → V), s.Reads b M σ value →
      σ.skipped = 0 → (∀ x ∈ declaredIn body, x ∉ σ.names) →
        M.run σ body = some (σ.leaving (b.outcome M s value)) ∧
          ∀ e ∈ (b.outcome M s value).declared,
            (σ.leaving (b.outcome M s value)).find? e.1 = some e.2

theorem Particles.swizzle_eq {table : Allocations} {name : String} {a : AttributeAllocation}
    (h : allocation table s name = .ok a) :
    a.swizzle PortType.vector3.components = outputChannels table name := by
  unfold allocation at h
  split at h
  next a' hget =>
    cases h
    rw [outputChannels, hget]
    rfl
  next => cases h

/-- What an output node of particles or points writes is what its inputs come to. -/
theorem Backend.stores_outcome {b : Backend} {target : Target}
    {writes : List (Contribution × Statement)} (hb : b ≠ .material)
    (hk : s.node.kind = .output target) (hwrites : b.PutsAll s writes)
    (hreads : s.Reads b M σ value) :
    List.Forall₂ (M.Stores σ) writes (b.outcome M s value).written := by
  -- what is written in a stage is what matters there
  have hputs : List.Forall₂ (fun name write => ∃ o, b.Puts s name .vector3 o write ∧
      ∀ written, M.operand { σ with written } o = some (value name)) (b.outputNames s) writes := by
    refine (forall₂_mem hwrites).imp ?_
    rintro name write ⟨⟨o, ho, hput⟩, hname, _⟩
    refine ⟨o, hput, fun written => ?_⟩
    exact (M.operand_input ho written).trans
      (hreads name o (b.allows_of_mem_outputNames hk hname) ho)
  cases b with
  | material => exact absurd rfl hb
  | particles table =>
    show List.Forall₂ _ _ (Particles.outcome table M s value).written
    rw [Particles.outcome, List.forall₂_map_right_iff]
    refine hputs.flip.imp ?_
    rintro write name ⟨o, hput, hvalue⟩
    cases hput with
    | particles hwrite =>
      obtain ⟨a, ha, hwrite⟩ := bind_eq_ok.mp hwrite
      rw [pure_eq_ok] at hwrite
      subst hwrite
      rw [Particles.swizzle_eq ha]
      exact ⟨_, rfl, rfl, fun written => M.operand_as (hvalue written) _ _⟩
  | points =>
    show List.Forall₂ _ _ (Points.outcome s value).written
    rw [Points.outcome, List.forall₂_map_right_iff]
    refine hputs.flip.imp ?_
    rintro write name ⟨o, hput, hvalue⟩
    cases hput with
    | points => exact ⟨_, rfl, rfl, hvalue⟩

/-- Attributes or fields that something feeds. -/
theorem Backend.delivers_stored {b : Backend} {target : Target}
    {writes : List (Contribution × Statement)} (hb : b ≠ .material)
    (hk : s.node.kind = .output target) (hwrites : b.PutsAll s writes) :
    s.Delivers b (s.exchange [] writes) := by
  refine ⟨_, Site.adds_writes ?_, fun M σ value hreads hrunning _ => ?_⟩
  · intro write hwrite
    obtain ⟨name, _, hnote⟩ := hwrites.note_eq write hwrite
    exact ⟨_, hnote⟩
  · have hdeclared : (b.outcome M s value).declared = [] := by
      cases b with
      | material => exact absurd rfl hb
      | particles _ | points => rfl
    constructor
    · rw [M.run_stores (stores_outcome hb hk hwrites hreads) hrunning]
      simp only [Store.leaving, hdeclared, Store.push_nil]
    · rw [hdeclared]
      exact List.forall_mem_nil _

/-- The position is what feeds it, or else that of the vertex. -/
theorem Material.position_value {r : Reading} (h : Material.position s = .ok r)
    (hvertex : s.stage = .vertex)
    (hvalue : ∀ o, s.input "position" = .ok o → M.operand σ o = some (value "position")) :
    M.operand σ r.operand =
      some (if s.isFed "position" then value "position" else M.vertex "position") := by
  rcases Material.position_cases h with ⟨o, hfed, ho, rfl⟩ | ⟨hfed, rfl⟩
  · rw [if_pos hfed]
    exact hvalue o ho
  · unfold readAttribute
    rw [if_pos hvertex, hfed]
    rfl

theorem Material.position_silent {r : Reading} (h : Material.position s = .ok r)
    (hvertex : s.stage = .vertex) (stage : Stage) : written stage r.contributions = [] := by
  rcases Material.position_cases h with ⟨o, _, _, rfl⟩ | ⟨_, rfl⟩
  · rfl
  · unfold readAttribute
    rw [if_pos hvertex]
    rfl

/-- The normal, if something feeds it. -/
theorem Material.run_normal {definitions : List Contribution} {body : List Statement}
    (h : Material.normal s = .ok (definitions, body))
    (hvalue : ∀ o, s.input "normal" = .ok o → M.operand σ o = some (value "normal"))
    (hrunning : σ.skipped = 0) :
    M.run σ body = some { σ with written := σ.written ++ (if s.isFed "normal" then
      [(.varying "v_normal", M.viewNormal (value "normal"))] else []) } := by
  rcases Material.normal_cases h with ⟨hfed, _, rfl⟩ | ⟨o, hfed, ho, _, rfl⟩
  · simp [Meaning.run_nil, hfed]
  · rw [if_pos hfed]
    refine M.run_writes (.cons ⟨_, rfl, rfl, fun written => ?_⟩ .nil) hrunning
    rw [Meaning.expr, (M.operand_input ho written).trans (hvalue o ho), Option.map_some]

/-- The position of a vertex, and its normal if something feeds that. -/
theorem Material.delivers_vertex {target : Target} {position : Reading}
    {definitions : List Contribution} {body : List Statement}
    (hk : s.node.kind = .output target) (hvertex : s.stage = .vertex)
    (hposition : Material.position s = .ok position)
    (hnormal : Material.normal s = .ok (definitions, body)) :
    s.Delivers .material (position.contributions ++ definitions ++
      [.statements s.stage
        (.declare .vector3 "transformed" (.operand position.operand) :: body)]) := by
  refine ⟨.declare .vector3 "transformed" (.operand position.operand) :: body, fun stage => ?_,
    fun {V} M σ value hreads hrunning hnew => ?_⟩
  · have hsilent := Material.position_silent hposition hvertex stage
    rcases Material.normal_cases hnormal with ⟨_, rfl, _⟩ | ⟨o, _, _, rfl, _⟩ <;> simp [hsilent]
  · have hallows : ∀ name ∈ ["position", "normal"],
        (Backend.material.follows s.stage s.node).allows name = true :=
      fun name hname => Material.allows_output hk (by rw [if_pos hvertex]; exact hname)
    have hfresh : "transformed" ∉ σ.names :=
      hnew _ (by simp [declaredIn, Statement.declared])
    have hvalue := Material.position_value hposition hvertex
      fun o ho => hreads "position" o (hallows _ (by simp)) ho
    generalize hv : (if s.isFed "position" then value "position" else M.vertex "position") = v
      at hvalue
    have hexpr : M.expr σ (.operand position.operand) = some v := hvalue
    have hdeclared : (Material.outcome M s value).declared = [("transformed", v)] := by
      rw [Material.outcome, if_pos hvertex, hv]
    constructor
    · -- the normal does not read the position that was just declared
      have hnormalValue : ∀ o, s.input "normal" = .ok o →
          M.operand (σ.push [("transformed", v)]) o = some (value "normal") := by
        intro o ho
        have hhere := hreads "normal" o (hallows _ (by simp)) ho
        refine M.operand_push (fun x hx hmem => ?_) hhere
        rw [List.mem_singleton.mp hmem] at hx
        exact hfresh (M.mem_names_of_operand hhere _ hx)
      rw [Meaning.run_cons, M.step_declare hrunning hfresh hexpr, Option.bind_some,
        Material.run_normal hnormal hnormalValue hrunning]
      simp only [Backend.outcome, Material.outcome, if_pos hvertex, hv]
      rfl
    · intro e he
      rw [Backend.outcome, hdeclared, List.mem_singleton] at he
      subst he
      exact Store.find?_leaving hfresh hdeclared

/-- The color with its opacity. -/
theorem Material.delivers_fragment {target : Target} {color alpha : Operand}
    (hk : s.node.kind = .output target) (hother : s.stage ≠ .vertex)
    (hcolor : s.input "color" = .ok color) (halpha : s.input "alpha" = .ok alpha) :
    s.Delivers .material
      [.statements s.stage [.declare .vector4 "diffuseColor" (.withAlpha color alpha)]] := by
  refine ⟨[.declare .vector4 "diffuseColor" (.withAlpha color alpha)], fun stage => by simp,
    fun M σ value hreads hrunning hnew => ?_⟩
  have hallows : ∀ name ∈ ["color", "alpha"],
      (Backend.material.follows s.stage s.node).allows name = true :=
    fun name hname => Material.allows_output hk (by rw [if_neg hother]; exact hname)
  have hfresh : "diffuseColor" ∉ σ.names :=
    hnew _ (by simp [declaredIn, Statement.declared])
  have hexpr : M.expr σ (.withAlpha color alpha) =
      some (M.withAlpha (value "color") (value "alpha")) := by
    simp only [Meaning.expr, hreads "color" color (hallows _ (by simp)) hcolor,
      hreads "alpha" alpha (hallows _ (by simp)) halpha, Option.bind_eq_bind, Option.bind_some]
    rfl
  have hdeclared : (Material.outcome M s value).declared =
      [("diffuseColor", M.withAlpha (value "color") (value "alpha"))] := by
    rw [Material.outcome, if_neg hother]
  constructor
  · rw [Meaning.run_cons, M.step_declare hrunning hfresh hexpr, Option.bind_some, Meaning.run_nil]
    simp [Store.leaving, Backend.outcome, Material.outcome, hother, Store.push]
  · intro e he
    rw [Backend.outcome, hdeclared, List.mem_singleton] at he
    subst he
    exact Store.find?_leaving hfresh hdeclared

/-- **The code of an output node** leaves behind what the values of its inputs come to. -/
theorem Site.EmitsOutput.delivers {b : Backend} {target : Target} (h : s.EmitsOutput b cs)
    (hk : s.node.kind = .output target) : s.Delivers b cs := by
  cases h with
  | vertex hvertex hposition hnormal =>
    exact Material.delivers_vertex hk hvertex hposition hnormal
  | fragment hother hcolor halpha => exact Material.delivers_fragment hk hother hcolor halpha
  | written hb hwrites => exact Backend.delivers_stored hb hk hwrites

/-- Where its stage has nothing to do, an output node leaves nothing behind. -/
theorem Backend.outcome_of_idle {b : Backend} {target : Target}
    (hk : s.node.kind = .output target) (hidle : (b.follows s.stage s.node).isEmpty = true) :
    b.outcome M s value = {} := by
  cases b with
  | material =>
    simp only [Backend.follows, hk] at hidle
    cases hstage : s.stage <;> simp [hstage, Material.follows, InputFilter.isEmpty] at hidle
  | particles table =>
    simp only [Backend.follows, hk, Particles.follows, InputFilter.isEmpty, List.isEmpty_iff]
      at hidle
    have hnone : Particles.outputAttributes.filter (fun name =>
        Particles.isOwned table name s.stage && s.isFed name) = [] := by
      rw [List.filter_eq_nil_iff] at hidle ⊢
      intro name hname
      simp [hidle name hname]
    rw [Backend.outcome, Particles.outcome, hnone]
    rfl
  | points => cases hidle

/-! ## §4. One stage at a time -/

/-- A node that only computes adds to its own stage. -/
theorem Backend.adds_of_emitLeaf {b : Backend} (hdata : s.node.kind.isDataflow = true)
    (h : b.emitLeaf s s.node.kind = .ok cs) : ∃ body, s.Adds cs body := by
  cases Site.emits_of_emitLeaf h with
  | constant _ | math _ _ | subnetOutput _ _ =>
    exact ⟨_, fun stage => by rw [written_statements, written_nil, List.append_nil]⟩
  | @param name _ _ _ =>
    refine ⟨[s.declare "value" (.operand (.uniform (Backend.paramUniform name)))], fun stage => ?_⟩
    simp [Backend.emitParam]
  | @function _ _ _ f args _ _ _ =>
    exact ⟨[s.declare "result" (.call f.name args)], fun stage => by simp⟩
  | output hk h =>
    obtain ⟨body, hadds, _⟩ := h.delivers hk
    exact ⟨body, hadds⟩
  | subnet _ | subnetInput _ => exact ⟨[], fun stage => by simp⟩
  | globals hk _ | «attribute» hk _ | varyingWrite hk _ | varyingRead hk =>
    rw [hk] at hdata
    cases hdata

variable {b : Backend} {context : Context} {stage target : Stage}

/-- **A network that only computes** adds to the stage that is being built, however deep. -/
theorem Graph.Emits.bodyOf_other (hne : target ≠ stage) :
    ∀ {g : Graph} {scope : Scope} {roots : List NodeId} {parts : List Part},
      g.Everywhere Graph.Dataflow → g.Emits b context stage scope roots parts →
        bodyOf target parts = [] := by
  intro g
  induction g using Graph.network_induction with
  | step g ih =>
    intro scope roots parts hdata h
    rw [bodyOf, List.flatMap_eq_nil_iff]
    intro part hpart
    rcases h.cases hpart with ⟨hsubnet, hemit⟩ | ⟨subnet, _, bindings, inner, hk, _, _, hinner, hcs⟩
    · obtain ⟨body, hadds⟩ := Backend.adds_of_emitLeaf
        (hdata.here part.node (h.node_mem hpart)) hemit
      exact (hadds target).trans (if_neg hne.symm)
    · have hnests : subnet.network.Nests g := ⟨part.node, h.node_mem hpart, subnet, hk, rfl⟩
      have hnone := ih _ hnests (hdata.inside hnests) hinner
      rw [Part.statements, hcs, List.eq_nil_iff_forall_not_mem]
      intro st hst
      have hst' := Site.mem_of_mem_written_splice hne hst
      obtain ⟨added, hsub, heq⟩ := Progress.statements_addParts target inner (.start stage)
      rw [hnone, List.sublist_nil] at hsub
      rw [heq, hsub] at hst'
      cases hst'

end ShaderFlow
