/-
  ShaderFlow.Proofs.Names — the names in generated code.

  A statement declares variables, reads and assigns variables, and names what its stage
  declares outside the body: attributes, varyings, uniforms, samplers and functions.  What a
  node contributes to a program has to bring the declarations of what it names.

  Main definitions:
    * `Statement.declared`, `Statement.locals`, `Statement.globals` — the names in a statement;
    * `Contribution.written`, `Contribution.keys` — what a stage gets from contributions;
    * `SelfContained` — contributions that bring what they name.
-/

import ShaderFlow.Backend.Basic

namespace ShaderFlow

/-! ## §1. Names in a statement -/

/-- What a declaration is told apart by. -/
abbrev Key := DefinitionKind × String

namespace Operand

/-- The variables that an operand reads. -/
def locals : Operand → List String
  | .var name => [name]
  | .convert _ _ operand => operand.locals
  | _ => []

/-- What an operand names of what its stage declares. -/
def globals : Operand → List Key
  | .uniform name => [(.uniform, name)]
  | .attribute name => [(.attribute, name)]
  | .varying name => [(.varying, name)]
  | .channels texture _ => [(.uniform, texture)]
  | .convert _ _ operand => operand.globals
  | _ => []

@[simp] theorem locals_as (o : Operand) (source target : PortType) :
    (o.as source target).locals = o.locals := by
  unfold as
  split <;> rfl

@[simp] theorem globals_as (o : Operand) (source target : PortType) :
    (o.as source target).globals = o.globals := by
  unfold as
  split <;> rfl

end Operand

/-- The matrix that takes normals into view space. -/
def normalMatrix : Key := (.uniform, "normalMatrix")

namespace Expr

/-- The operands of an expression. -/
def operands : Expr → List Operand
  | .operand o => [o]
  | .math _ args | .call _ args => args
  | .viewNormal normal => [normal]
  | .withAlpha color alpha => [color, alpha]

/-- The variables that an expression reads. -/
def locals (e : Expr) : List String := e.operands.flatMap Operand.locals

/-- What an expression names of what its stage declares. -/
def globals (e : Expr) : List Key :=
  let own : List Key :=
    match e with
    | .call function _ => [(.function, function)]
    | .viewNormal _ => [normalMatrix]
    | _ => []
  own ++ e.operands.flatMap Operand.globals

end Expr

namespace Place

/-- The variable that an assignment changes. -/
def locals : Place → List String
  | .var name => [name]
  | _ => []

/-- What an assignment changes of what its stage declares. -/
def globals : Place → List Key
  | .varying name => [(.varying, name)]
  | _ => []

end Place

namespace Statement

/-- The variable that a statement declares. -/
def declared : Statement → List String
  | .declare _ name _ => [name]
  | _ => []

/-- The variables that a statement reads or assigns. -/
def locals : Statement → List String
  | .declare _ _ value => value.locals
  | .assign place value => place.locals ++ value.locals
  | .openBlock (some condition) => condition.locals
  | .openBlock none | .closeBlock | .raw _ => []

/-- What a statement names of what its stage declares. -/
def globals : Statement → List Key
  | .declare _ _ value => value.globals
  | .assign place value => place.globals ++ value.globals
  | .openBlock (some condition) => condition.globals
  | .openBlock none | .closeBlock | .raw _ => []

/-- Whether a statement is a line of its own: it neither opens nor closes a block, and its
    names are known. -/
def isPlain : Statement → Bool
  | .declare .. | .assign .. => true
  | _ => false

/-- The statement of the vertex stage that hands an attribute to the fragment stage. -/
def relay (name : String) : Statement :=
  .assign (.varying (Material.attributeVarying name)) (.operand (.attribute name))

end Statement

/-- The variables that statements declare, at any depth. -/
def declaredIn (body : List Statement) : List String := body.flatMap Statement.declared

@[simp] theorem declaredIn_nil : declaredIn [] = [] := rfl

@[simp] theorem declaredIn_append (first rest : List Statement) :
    declaredIn (first ++ rest) = declaredIn first ++ declaredIn rest :=
  List.flatMap_append

@[simp] theorem declaredIn_cons (st : Statement) (rest : List Statement) :
    declaredIn (st :: rest) = st.declared ++ declaredIn rest :=
  List.flatMap_cons

/-! ## §2. What a stage gets from contributions -/

namespace Contribution

/-- The statements that a contribution has for a stage. -/
def statementsFor (stage : Stage) : Contribution → List Statement
  | .write target entries _ => if target = stage then entries.map (·.statement) else []
  | _ => []

/-- The declarations that a contribution has for a stage. -/
def declarationsFor (stage : Stage) : Contribution → List Declaration
  | .define target declarations => if target = stage then declarations else []
  | _ => []

/-- The statements that contributions have for a stage. -/
def written (stage : Stage) (cs : List Contribution) : List Statement :=
  cs.flatMap (statementsFor stage)

/-- The declarations that contributions have for a stage. -/
def declarations (stage : Stage) (cs : List Contribution) : List Declaration :=
  cs.flatMap (declarationsFor stage)

/-- What contributions declare in a stage. -/
def keys (stage : Stage) (cs : List Contribution) : List Key :=
  (declarations stage cs).map Declaration.key

section

variable (stage target : Stage) (cs : List Contribution)

@[simp] theorem written_nil : written stage [] = [] := rfl

@[simp] theorem written_append (more : List Contribution) :
    written stage (cs ++ more) = written stage cs ++ written stage more :=
  List.flatMap_append

@[simp] theorem written_define (declarations : List Declaration) :
    written stage (.define target declarations :: cs) = written stage cs := rfl

@[simp] theorem written_note (note : Note) : written stage (.note note :: cs) = written stage cs :=
  rfl

@[simp] theorem written_write (entries : List Entry) (repetition : Repetition) :
    written stage (.write target entries repetition :: cs) =
      (if target = stage then entries.map (·.statement) else []) ++ written stage cs := rfl

@[simp] theorem written_statements (body : List Statement) :
    written stage (.statements target body :: cs) =
      (if target = stage then body else []) ++ written stage cs := by
  rw [statements, written_write, List.map_map]
  congr
  exact List.map_id body

@[simp] theorem keys_nil : keys stage [] = [] := rfl

@[simp] theorem keys_append (more : List Contribution) :
    keys stage (cs ++ more) = keys stage cs ++ keys stage more := by
  rw [keys, Contribution.declarations, List.flatMap_append, List.map_append]
  rfl

@[simp] theorem keys_define (declarations : List Declaration) :
    keys stage (.define target declarations :: cs) =
      (if target = stage then declarations.map Declaration.key else []) ++ keys stage cs := by
  rw [keys, Contribution.declarations, List.flatMap_cons, List.map_append, declarationsFor]
  split <;> rfl

@[simp] theorem keys_note (note : Note) : keys stage (.note note :: cs) = keys stage cs := rfl

@[simp] theorem keys_write (entries : List Entry) (repetition : Repetition) :
    keys stage (.write target entries repetition :: cs) = keys stage cs := rfl

@[simp] theorem keys_statements (body : List Statement) :
    keys stage (.statements target body :: cs) = keys stage cs := rfl

end

/-- Only what is written shows. -/
theorem written_of_silent {stage : Stage} {cs : List Contribution}
    (h : ∀ c ∈ cs, ∀ target entries repetition, c ≠ .write target entries repetition) :
    written stage cs = [] := by
  rw [written, List.flatMap_eq_nil_iff]
  intro c hc
  cases c with
  | write target entries repetition => exact absurd rfl (h _ hc target entries repetition)
  | define _ _ => rfl
  | note _ => rfl

theorem written_of_notes {stage : Stage} {cs : List Contribution}
    (h : ∀ c ∈ cs, ∃ note, c = .note note) : written stage cs = [] := by
  refine written_of_silent fun c hc target entries repetition heq => ?_
  obtain ⟨note, rfl⟩ := h c hc
  cases heq

theorem written_flatMap_eq_nil {stage : Stage} {α : Type} {f : α → List Contribution}
    {xs : List α} (h : ∀ x ∈ xs, written stage (f x) = []) : written stage (xs.flatMap f) = [] := by
  rw [written, List.flatMap_assoc, List.flatMap_eq_nil_iff]
  exact h

end Contribution

open Contribution

/-! ## §3. Contributions that bring what they name -/

/-- What every stage declares before any node adds to it. -/
def Backend.baseKeys (b : Backend) (config : Config) (stage : Stage) : List Key :=
  (b.declarations config stage).map Declaration.key

variable {b : Backend} {config : Config} {home : Stage} {cs more : List Contribution}

/-- What may be named in a stage beside the contributions: what every stage declares, and the
    matrix for normals, which the template of the vertex stage declares. -/
def Backend.Provides (b : Backend) (config : Config) (stage : Stage) (key : Key) : Prop :=
  key ∈ b.baseKeys config stage ∨ key = normalMatrix

/-- Contributions of a node in the stage `home` that bring what they name. -/
structure SelfContained (b : Backend) (config : Config) (home : Stage)
    (cs : List Contribution) : Prop where
  /-- In its own stage a node's statements are all kept. -/
  kept : ∀ entries repetition, .write home entries repetition ∈ cs → repetition = .allowed
  /-- Other stages get nothing but relays. -/
  relays : ∀ stage, stage ≠ home → ∀ st ∈ written stage cs, ∃ name, st = .relay name
  covered : ∀ stage, ∀ st ∈ written stage cs, ∀ key ∈ st.globals,
    key ∈ keys stage cs ∨ b.Provides config stage key

namespace SelfContained

theorem nil : SelfContained b config home [] where
  kept := by simp
  relays := by simp
  covered := by simp

theorem append (h : SelfContained b config home cs) (hmore : SelfContained b config home more) :
    SelfContained b config home (cs ++ more) where
  kept := by
    intro entries repetition hmem
    rcases List.mem_append.mp hmem with hmem | hmem
    · exact h.kept entries repetition hmem
    · exact hmore.kept entries repetition hmem
  relays := by
    intro stage hne st hst
    rw [written_append] at hst
    rcases List.mem_append.mp hst with hst | hst
    · exact h.relays stage hne st hst
    · exact hmore.relays stage hne st hst
  covered := by
    intro stage st hst key hkey
    rw [written_append] at hst
    rw [keys_append, List.mem_append]
    rcases List.mem_append.mp hst with hst | hst
    · exact (h.covered stage st hst key hkey).imp_left .inl
    · exact (hmore.covered stage st hst key hkey).imp_left .inr

theorem flatMap {α : Type} {f : α → List Contribution} :
    ∀ {xs : List α}, (∀ x ∈ xs, SelfContained b config home (f x)) →
      SelfContained b config home (xs.flatMap f)
  | [], _ => nil
  | x :: xs, h => by
    rw [List.flatMap_cons]
    exact (h x List.mem_cons_self).append (flatMap fun y hy => h y (List.mem_cons_of_mem _ hy))

/-- Declarations and notes name nothing. -/
theorem of_silent (h : ∀ c ∈ cs, ∀ stage entries repetition, c ≠ .write stage entries repetition) :
    SelfContained b config home cs := by
  refine ⟨?_, ?_, ?_⟩
  · intro entries repetition hmem
    exact absurd rfl (h _ hmem home entries repetition)
  · intro stage _ st hst
    simp [written_of_silent h] at hst
  · intro stage st hst
    simp [written_of_silent h] at hst

/-- Statements may follow contributions that bring what the statements name. -/
theorem statements (h : SelfContained b config home cs) {body : List Statement}
    (hbody : ∀ st ∈ body, ∀ key ∈ st.globals, key ∈ keys home cs ∨ b.Provides config home key) :
    SelfContained b config home (cs ++ [.statements home body]) where
  kept := by
    intro entries repetition hmem
    rcases List.mem_append.mp hmem with hmem | hmem
    · exact h.kept entries repetition hmem
    · simp only [Contribution.statements, List.mem_singleton, write.injEq] at hmem
      exact hmem.2.2
  relays := by
    intro stage hne st hst
    simp only [written_append, written_statements, if_neg hne.symm, written_nil,
      List.append_nil] at hst
    exact h.relays stage hne st hst
  covered := by
    intro stage st hst key hkey
    simp only [written_append, written_statements, written_nil, List.append_nil] at hst
    simp only [keys_append, keys_statements, keys_nil, List.append_nil]
    rcases List.mem_append.mp hst with hold | hnew
    · exact h.covered stage st hold key hkey
    -- the new statements are in their own stage
    · split at hnew
      next heq =>
        subst heq
        exact hbody st hnew key hkey
      next => simp at hnew

end SelfContained

end ShaderFlow
