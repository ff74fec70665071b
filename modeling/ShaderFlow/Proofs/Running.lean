/-
  ShaderFlow.Proofs.Running — how stores change while code runs.

  Code whose variables are new to every open block only adds to the innermost block, so what
  was read before can be read again.  Code in a block that is skipped does nothing.

  Main definitions:
    * `Store.push`   — a store with more variables in its innermost block;
    * `Store.putAll` — a store with other values for some variables of that block.

  Main statements:
    * `Meaning.operand_congr` — an operand depends on the variables that it reads;
    * `Meaning.run_declares`  — declarations of new variables;
    * `Meaning.run_assigns`   — assignments to variables of the block around.
-/

import ShaderFlow.Proofs.Meaning

namespace ShaderFlow

variable {V : Type}

/-! ## §1. Tables whose keys are made from names -/

namespace Table

variable {κ α : Type} [BEq κ] [LawfulBEq κ]

section Named

variable {key : String → κ} (hkey : Function.Injective key)

include hkey

/-- A table whose keys are made from names is searched by name. -/
theorem get?_map {ι : Type} (name : ι → String) (value : ι → α) (is : List ι) (k : String) :
    Table.get? (is.map fun i => (key (name i), value i)) (key k) =
      (is.find? (name · == k)).map value := by
  have hsame : ∀ i, (key (name i) == key k) = (name i == k) := by
    intro i
    rw [Bool.eq_iff_iff, beq_iff_eq, beq_iff_eq, hkey.eq_iff]
  rw [get?, List.find?_map, Option.map_map]
  simp only [Function.comp_def, hsame]

theorem get?_map_of_mem (value : String → α) {names : List String} {k : String}
    (h : k ∈ names) :
    Table.get? (names.map fun name => (key name, value name)) (key k) = some (value k) := by
  have hget := get?_map hkey (fun name => name) value names k
  cases hfind : names.find? (· == k) with
  | none =>
    have hnone := List.find?_eq_none.mp hfind k h
    simp at hnone
  | some name =>
    have hname : name = k := by simpa using List.find?_some hfind
    rw [hget, hfind, hname, Option.map_some]

theorem get?_putAll_map (value : String → α) {k : String} :
    ∀ {names : List String} {t : Table κ α}, k ∈ names →
      (t.putAll (names.map fun name => (key name, value name))).get? (key k) = some (value k)
  | name :: names, t, h => by
    show (Table.putAll (t.put (key name) (value name)) _).get? (key k) = _
    by_cases hrest : k ∈ names
    · exact get?_putAll_map value hrest
    · have hname : k = name := (List.mem_cons.mp h).resolve_right hrest
      subst hname
      rw [get?_putAll_of_not_mem, get?_put_self]
      rw [keys, List.map_map, List.mem_map]
      rintro ⟨other, hother, heq⟩
      rw [hkey heq] at hother
      exact hrest hother

end Named

end Table

/-! ## §2. Stores -/

namespace Store

variable {σ : Store V} {new more : Table String V} {x : String} {v : V}

/-- A store with more variables in its innermost block. -/
def push (σ : Store V) (new : Table String V) : Store V := { σ with top := σ.top ++ new }

/-- A store with other values for some variables of its innermost block. -/
def putAll (σ : Store V) (values : Table String V) : Store V :=
  { σ with top := σ.top.putAll values }

@[simp] theorem push_nil (σ : Store V) : σ.push [] = σ := by
  rw [push, List.append_nil]

@[simp] theorem push_push (σ : Store V) : (σ.push new).push more = σ.push (new ++ more) := by
  simp only [push, List.append_assoc]

@[simp] theorem push_skipped : (σ.push new).skipped = σ.skipped := rfl

@[simp] theorem push_written : (σ.push new).written = σ.written := rfl

@[simp] theorem enter_skipped : σ.enter.skipped = σ.skipped := rfl

@[simp] theorem enter_written : σ.enter.written = σ.written := rfl

theorem leave_enter_push (σ : Store V) (new : Table String V) :
    (σ.enter.push new).leave = some σ := rfl

/-- Variables under other names do not hide any. -/
theorem find?_push_of_not_mem (h : x ∉ new.keys) : (σ.push new).find? x = σ.find? x := by
  have hnone : new.get? x = none := Table.get?_eq_none.mpr h
  simp only [find?, push, List.findSome?_cons, Table.get?_append, hnone, Option.or_none]

theorem mem_names_of_top (h : x ∈ σ.top.keys) : x ∈ σ.names := by
  rw [names, List.flatMap_cons]
  exact List.mem_append_left _ h

theorem find?_push_of_get? (h : x ∉ σ.names) (hv : new.get? x = some v) :
    (σ.push new).find? x = some v := by
  have hnone : σ.top.get? x = none := by
    exact Table.get?_eq_none.mpr fun hmem => h (mem_names_of_top hmem)
  simp only [find?, push, List.findSome?_cons, Table.get?_append, hnone, hv, Option.none_or]

theorem find?_enter_push : (σ.enter.push new).find? x = (new.get? x).or (σ.find? x) := by
  show List.findSome? (·.get? x) (([] ++ new) :: σ.top :: σ.outer) = _
  rw [List.nil_append, List.findSome?_cons]
  cases new.get? x <;> rfl

theorem mem_names_push : x ∈ (σ.push new).names ↔ x ∈ σ.names ∨ x ∈ new.keys := by
  simp only [names, push, List.flatMap_cons, Table.keys_append, List.mem_append]
  tauto

theorem find?_putAll_of_not_mem {values : Table String V} (h : x ∉ values.keys) :
    (σ.putAll values).find? x = σ.find? x := by
  simp only [find?, putAll, List.findSome?_cons, Table.get?_putAll_of_not_mem h]

/-- Other values for new variables are values of these alone. -/
theorem putAll_push {values : Table String V} (hnew : ∀ x ∈ new.keys, x ∉ σ.names)
    (hvalues : ∀ x ∈ values.keys, x ∈ new.keys) :
    (σ.push new).putAll values = σ.push (new.putAll values) := by
  have hnot : ∀ x ∈ values.keys, x ∉ σ.top.keys :=
    fun x hx hmem => hnew x (hvalues x hx) (mem_names_of_top hmem)
  simp only [putAll, push, Table.putAll_append_of_not_mem hnot hvalues]

theorem mem_names_of_find? (h : σ.find? x = some v) : x ∈ σ.names := by
  obtain ⟨block, hblock, hget⟩ := List.exists_of_findSome?_eq_some h
  exact List.mem_flatMap.mpr ⟨block, hblock, Table.mem_keys_of_get? hget⟩

end Store

/-! ## §3. Operands and expressions -/

namespace Meaning

variable {M : Meaning V} {σ τ : Store V}

/-- **An operand depends on the variables that it reads**, and on what was written. -/
theorem operand_congr (hwritten : τ.written = σ.written) :
    ∀ {o : Operand}, (∀ x ∈ o.locals, τ.find? x = σ.find? x) → M.operand τ o = M.operand σ o
  | .var x, h => h x (List.mem_singleton_self x)
  | .literal _, _ | .zero _, _ | .uniform _, _ | .attribute _, _ | .channels _ _, _
  | .builtin _, _ => rfl
  | .varying _, _ | .field _ _, _ => by simp only [operand, Store.last?, hwritten]
  | .convert source target o, h => by
    have ih : M.operand τ o = M.operand σ o := operand_congr hwritten h
    simp only [operand, ih]

/-- What can be read can be read when there are more variables, under other names. -/
theorem operand_push {o : Operand} {v : V} {new : Table String V}
    (h : ∀ x ∈ o.locals, x ∉ new.keys) (hv : M.operand σ o = some v) :
    M.operand (σ.push new) o = some v := by
  have hsame : ∀ x ∈ o.locals, (σ.push new).find? x = σ.find? x :=
    fun x hx => Store.find?_push_of_not_mem (h x hx)
  have hwritten : (σ.push new).written = σ.written := rfl
  exact (operand_congr hwritten hsame).trans hv

/-- The variables that are read are open. -/
theorem mem_names_of_operand {o : Operand} {v : V} (hv : M.operand σ o = some v) :
    ∀ x ∈ o.locals, x ∈ σ.names := by
  induction o generalizing v with
  | var y =>
    intro x hx
    rw [List.mem_singleton.mp hx]
    exact Store.mem_names_of_find? hv
  | convert source target o ih =>
    obtain ⟨w, hw, _⟩ := Option.map_eq_some_iff.mp hv
    exact ih hw
  | _ =>
    intro x hx
    cases hx

/-- The value of an operand of another type. -/
theorem operand_as {o : Operand} {v : V} (hv : M.operand σ o = some v) (source target : PortType) :
    M.operand σ (o.as source target) = some (M.coerce source target v) := by
  unfold Operand.as coerce
  split
  · exact hv
  · simp only [operand, hv, Option.map_some]

/-- The values of arguments, one by one. -/
theorem mapM_operand {names : List String} {args : List Operand} {value : String → V}
    (h : List.Forall₂ (fun name o => M.operand σ o = some (value name)) names args) :
    args.mapM (M.operand σ) = some (names.map value) := by
  induction h with
  | nil => rfl
  | cons hv _ ih => simp [List.mapM_cons, hv, ih]

/-! ## §4. Bodies -/

theorem run_nil : M.run σ [] = some σ := rfl

theorem run_cons (st : Statement) (rest : List Statement) :
    M.run σ (st :: rest) = (M.step σ st).bind fun τ => M.run τ rest := rfl

theorem run_append (first rest : List Statement) :
    M.run σ (first ++ rest) = (M.run σ first).bind fun τ => M.run τ rest :=
  List.foldlM_append

/-- A new variable is added to the innermost block. -/
theorem step_declare {type : PortType} {x : String} {value : Expr} {v : V}
    (hrunning : σ.skipped = 0) (hx : x ∉ σ.names) (hv : M.expr σ value = some v) :
    M.step σ (.declare type x value) = some (σ.push [(x, v)]) := by
  have hdeclare : σ.declare x v = some (σ.push [(x, v)]) := by
    have htop : ¬σ.top.has x = true := fun hhas =>
      hx (Store.mem_names_of_top (Table.has_eq_true.mp hhas))
    rw [Store.declare, if_neg htop]
    rfl
  have hstep : M.step σ (.declare type x value) = (M.expr σ value).bind (σ.declare x) := by
    simp only [step, hrunning]
  rw [hstep, hv, Option.bind_some, hdeclare]

/-- **Declarations of new variables** add them to the innermost block.  What they read was
    open before. -/
theorem run_declares :
    ∀ {body : List Statement} {new : Table String V} {σ : Store V},
      List.Forall₂ (fun st e => ∃ type o, st = .declare type e.1 (.operand o) ∧
        M.operand σ o = some e.2) body new →
      σ.skipped = 0 → new.keys.Nodup → (∀ x ∈ new.keys, x ∉ σ.names) →
        M.run σ body = some (σ.push new)
  | _, _, σ, .nil, _, _, _ => by rw [run_nil, Store.push_nil]
  | st :: rest, e :: new, σ, .cons hst hrest, hrunning, hnodup, hfresh => by
    obtain ⟨type, o, rfl, hv⟩ := hst
    rw [Table.keys, List.map_cons, List.nodup_cons] at hnodup
    have he : e.1 ∉ σ.names := hfresh e.1 List.mem_cons_self
    have hvalue : M.expr σ (.operand o) = some e.2 := hv
    -- the variable is new, so what is read later does not read it
    have hrest' : List.Forall₂ (fun st e' => ∃ type o, st = .declare type e'.1 (.operand o) ∧
        M.operand (σ.push [(e.1, e.2)]) o = some e'.2) rest new := by
      refine hrest.imp fun st' e' hst' => ?_
      obtain ⟨type', o', rfl, hv'⟩ := hst'
      refine ⟨type', o', rfl, operand_push ?_ hv'⟩
      intro x hx hmem
      rw [List.mem_singleton.mp hmem] at hx
      exact he (mem_names_of_operand hv' _ hx)
    have hfresh' : ∀ x ∈ Table.keys new, x ∉ (σ.push [(e.1, e.2)]).names := by
      intro x hx hmem
      rcases Store.mem_names_push.mp hmem with hmem | hmem
      · exact hfresh x (List.mem_cons_of_mem _ hx) hmem
      · rw [List.mem_singleton.mp hmem] at hx
        exact hnodup.1 hx
    have ih := run_declares hrest' hrunning hnodup.2 hfresh'
    rw [run_cons, step_declare hrunning he hvalue, Option.bind_some, ih, Store.push_push]
    rfl

/-- A variable of the block around the innermost one gets a value. -/
theorem step_assign {new : Table String V} {x : String} {value : Expr} {v : V}
    (hrunning : σ.skipped = 0) (hx : x ∈ σ.top.keys) (hnew : x ∉ new.keys)
    (hv : M.expr (σ.enter.push new) value = some v) :
    M.step (σ.enter.push new) (.assign (.var x) value) =
      some ((σ.putAll [(x, v)]).enter.push new) := by
  have hassign : (σ.enter.push new).assign x v = some ((σ.putAll [(x, v)]).enter.push new) := by
    have htop : ¬(σ.enter.push new).top.has x = true := fun hhas =>
      hnew (Table.has_eq_true.mp hhas)
    have houter : Store.replace x v (σ.enter.push new).outer =
        some (σ.top.put x v :: σ.outer) := by
      show Store.replace x v (σ.top :: σ.outer) = _
      rw [Store.replace, if_pos (Table.has_eq_true.mpr hx)]
    rw [Store.assign, if_neg htop, houter]
    rfl
  have hstep : M.step (σ.enter.push new) (.assign (.var x) value) =
      (M.expr (σ.enter.push new) value).bind ((σ.enter.push new).assign x) := by
    have hrunning' : (σ.enter.push new).skipped = 0 := hrunning
    simp only [step, hrunning']
  rw [hstep, hv, Option.bind_some, hassign]

/-- **Assignments to variables of the block around** the innermost one, none of which is read
    by them. -/
theorem run_assigns {new : Table String V} {outs : List String}
    (hnew : ∀ x ∈ outs, x ∉ new.keys) :
    ∀ {body : List Statement} {values : Table String V} {σ : Store V},
      List.Forall₂ (fun st e => ∃ o, st = .assign (.var e.1) (.operand o) ∧
        M.operand (σ.enter.push new) o = some e.2 ∧ ∀ x ∈ o.locals, x ∉ outs) body values →
      σ.skipped = 0 → (∀ x ∈ outs, x ∈ σ.top.keys) → (∀ x ∈ values.keys, x ∈ outs) →
        M.run (σ.enter.push new) body = some ((σ.putAll values).enter.push new)
  | _, _, σ, .nil, _, _, _ => rfl
  | st :: rest, e :: values, σ, .cons hst hrest, hrunning, htop, houts => by
    obtain ⟨o, rfl, hv, _⟩ := hst
    have he : e.1 ∈ outs := houts e.1 List.mem_cons_self
    have hvalue : M.expr (σ.enter.push new) (.operand o) = some e.2 := hv
    -- no later operand reads the variable that is assigned here
    have hrest' : List.Forall₂ (fun st e' => ∃ o, st = .assign (.var e'.1) (.operand o) ∧
        M.operand ((σ.putAll [e]).enter.push new) o = some e'.2 ∧ ∀ x ∈ o.locals, x ∉ outs)
        rest values := by
      refine hrest.imp fun st' e' hst' => ?_
      obtain ⟨o', rfl, hv', hlocals⟩ := hst'
      have hsame : ∀ x ∈ o'.locals,
          ((σ.putAll [e]).enter.push new).find? x = (σ.enter.push new).find? x := by
        intro x hx
        have hne : x ∉ Table.keys [e] := by
          intro hmem
          rw [List.mem_singleton.mp hmem] at hx
          exact hlocals e.1 hx he
        rw [Store.find?_enter_push, Store.find?_enter_push, Store.find?_putAll_of_not_mem hne]
      have hwritten : ((σ.putAll [e]).enter.push new).written = (σ.enter.push new).written := rfl
      exact ⟨o', rfl, (operand_congr hwritten hsame).trans hv', hlocals⟩
    have htop' : ∀ x ∈ outs, x ∈ (σ.putAll [e]).top.keys := by
      intro x hx
      have hkeys : (σ.top.putAll [e]).keys = σ.top.keys := by
        refine Table.keys_putAll fun y hy => ?_
        rw [List.mem_singleton.mp hy]
        exact htop e.1 he
      show x ∈ (σ.top.putAll [e]).keys
      rw [hkeys]
      exact htop x hx
    have ih := run_assigns hnew hrest' hrunning htop'
      fun x hx => houts x (List.mem_cons_of_mem _ hx)
    rw [run_cons, step_assign hrunning (htop e.1 he) (hnew e.1 he) hvalue, Option.bind_some]
    exact ih

/-- Where a block is skipped, plain statements do nothing. -/
theorem run_plain_skipped (hskipped : σ.skipped ≠ 0) :
    ∀ {body : List Statement}, (∀ st ∈ body, st.isPlain = true) → M.run σ body = some σ
  | [], _ => rfl
  | st :: rest, h => by
    have hstep : M.step σ st = some σ := by
      have hplain := h st List.mem_cons_self
      obtain ⟨depth, hdepth⟩ := Nat.exists_eq_succ_of_ne_zero hskipped
      cases st with
      | declare _ _ _ => simp only [step, hdepth]
      | assign place _ => cases place <;> simp only [step, hdepth]
      | openBlock _ => cases hplain
      | closeBlock => cases hplain
      | raw _ => cases hplain
    rw [run_cons, hstep]
    exact run_plain_skipped hskipped fun st' hst' => h st' (List.mem_cons_of_mem _ hst')

end Meaning

end ShaderFlow
