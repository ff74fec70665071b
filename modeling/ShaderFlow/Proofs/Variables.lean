/-
  ShaderFlow.Proofs.Variables — which graphs have a variable for every value.

  Variables are taken one after the other, through every subnet.  That succeeds exactly when
  the variables of the whole hierarchy, written down as one list, differ from each other and
  none begins as a varying does; in which order they are taken does not matter.

  Main definitions:
    * `Graph.variables` — the variables of a hierarchy;
    * `Reserved`        — the names that no variable may have;
    * `Claimable`       — variables that can be had besides others.

  Main statements:
    * `Graph.checkVariables_iff` — a graph is refused exactly when its variables clash.
-/

import Mathlib.Data.List.Nodup
import ShaderFlow.Compile.Scope
import ShaderFlow.Proofs.Basic

namespace ShaderFlow

/-! ## §1. The variables of a hierarchy -/

mutual

/-- The variables of all nodes of a hierarchy: those of a node before those of its network. -/
def Graph.variables (scope : Scope) : Graph → List String
  | { nodes, .. } => Node.variablesAmong scope nodes

/-- The variables of the nodes of a list and of their networks. -/
def Node.variablesAmong (scope : Scope) : List Node → List String
  | [] => []
  | { id, name, kind, dirty, error } :: ns =>
    Node.variables scope { id, name, kind, dirty, error } ++
      (kind.variables (scope.enter name) ++ Node.variablesAmong scope ns)

/-- The variables of the network of a subnet, whose scope is given. -/
def Kind.variables (inner : Scope) : Kind → List String
  | .subnet { network, .. } => network.variables inner
  | _ => []

end

/-- A name that begins as the names of varyings do. -/
def Reserved (name : String) : Prop :=
  ∃ start ∈ reservedPrefixes, start.toList <+: name.toList

/-! ## §2. Variables that can be had -/

/-- Different variables, none of them taken or reserved. -/
structure Claimable (taken names : List String) : Prop where
  nodup : names.Nodup
  new : ∀ name ∈ names, name ∉ taken
  free : ∀ name ∈ names, ¬Reserved name

theorem claimable_nil (taken : List String) : Claimable taken [] where
  nodup := List.nodup_nil
  new := by simp
  free := by simp

theorem claimable_cons {taken rest : List String} {name : String} :
    Claimable taken (name :: rest) ↔
      (¬Reserved name ∧ name ∉ taken) ∧ Claimable (taken ++ [name]) rest := by
  constructor
  · intro h
    have hne := (List.nodup_cons.mp h.nodup).1
    refine ⟨⟨h.free name List.mem_cons_self, h.new name List.mem_cons_self⟩,
      (List.nodup_cons.mp h.nodup).2, ?_, fun x hx => h.free x (List.mem_cons_of_mem _ hx)⟩
    intro x hx hin
    rcases List.mem_append.mp hin with hin | hin
    · exact h.new x (List.mem_cons_of_mem _ hx) hin
    · rw [List.mem_singleton.mp hin] at hx
      exact hne hx
  · rintro ⟨⟨hfree, hnew⟩, h⟩
    refine ⟨List.nodup_cons.mpr ⟨?_, h.nodup⟩, ?_, ?_⟩
    · intro hin
      exact h.new name hin (by simp)
    · intro x hx
      rcases List.mem_cons.mp hx with rfl | hx
      · exact hnew
      · intro hin
        exact h.new x hx (List.mem_append_left _ hin)
    · intro x hx
      rcases List.mem_cons.mp hx with rfl | hx
      · exact hfree
      · exact h.free x hx

/-- Variables can be had together exactly when some can be had first and the others then. -/
theorem claimable_append {rest : List String} :
    ∀ {first taken : List String}, Claimable taken (first ++ rest) ↔
      Claimable taken first ∧ Claimable (taken ++ first) rest
  | [], taken => by simp [claimable_nil]
  | name :: first, taken => by
    rw [List.cons_append, claimable_cons, claimable_append, claimable_cons, ← and_assoc,
      List.append_assoc, List.singleton_append]

/-! ## §3. Taking variables -/

/-- What taking variables has to come to: they are added where they can be had, and refused
    where not. -/
def Takes (taken : Table String String) (names : List String) :
    Except CompileError (Table String String) → Prop
  | .ok after => after.keys = taken.keys ++ names ∧ Claimable taken.keys names
  | .error _ => ¬Claimable taken.keys names

/-- Taking some variables and then others is taking all of them. -/
theorem Takes.bind {taken : Table String String} {first rest : List String}
    {r : Except CompileError (Table String String)}
    {f : Table String String → Except CompileError (Table String String)}
    (hr : Takes taken first r) (hf : ∀ after, Takes after rest (f after)) :
    Takes taken (first ++ rest) (r.bind f) := by
  cases r with
  | error e =>
    intro h
    exact hr (claimable_append.mp h).1
  | ok after =>
    obtain ⟨hkeys, hfirst⟩ := hr
    have hrest := hf after
    show Takes taken (first ++ rest) (f after)
    -- the second run starts from the names the first has taken
    cases hfa : f after with
    | error e =>
      rw [hfa] at hrest
      intro h
      apply hrest
      rw [hkeys]
      exact (claimable_append.mp h).2
    | ok final =>
      rw [hfa] at hrest
      obtain ⟨hfinal, hclaim⟩ := hrest
      rw [hkeys] at hfinal hclaim
      exact ⟨by rw [hfinal, List.append_assoc], claimable_append.mpr ⟨hfirst, hclaim⟩⟩

theorem holder?_eq_none {taken : Table String String} {name : String} :
    holder? taken name = none ↔ ¬Reserved name ∧ name ∉ taken.keys := by
  rw [holder?]
  split
  next start hstart =>
    have hreserved : Reserved name :=
      ⟨start, List.mem_of_find?_eq_some hstart, by simpa using List.find?_some hstart⟩
    simp [hreserved]
  next hnone =>
    have hfree : ¬Reserved name := by
      rintro ⟨start, hmem, hstart⟩
      exact List.find?_eq_none.mp hnone start hmem (List.isPrefixOf_iff_prefix.mpr hstart)
    simp [hfree, Table.get?_eq_none]

/-- A node takes its variables one after the other. -/
theorem takes_reserve (scope : Scope) (n : Node) :
    ∀ (names : List String) (taken : Table String String),
      Takes taken names (reserve scope n taken names)
  | [], taken => ⟨by rw [List.append_nil], claimable_nil _⟩
  | name :: rest, taken => by
    rw [reserve]
    split
    next other hother =>
      intro h
      have hnone := holder?_eq_none.mpr (claimable_cons.mp h).1
      rw [hnone] at hother
      cases hother
    next hnone =>
      have hhead := holder?_eq_none.mp hnone
      have hfirst : Takes taken [name] (.ok (taken.put name (scope.path ++ "/" ++ n.name))) :=
        ⟨Table.keys_put_of_not_mem hhead.2, claimable_cons.mpr ⟨hhead, claimable_nil _⟩⟩
      exact hfirst.bind fun after => takes_reserve scope n rest after

mutual

theorem Graph.takes_reserveVariables (scope : Scope) (taken : Table String String) :
    ∀ g : Graph, Takes taken (g.variables scope) (g.reserveVariables scope taken)
  | { name, nodes, connections, version, error } => by
    rw [Graph.variables, Graph.reserveVariables]
    exact Node.takes_reserveAll scope taken nodes

theorem Node.takes_reserveAll (scope : Scope) (taken : Table String String) :
    ∀ ns : List Node, Takes taken (Node.variablesAmong scope ns) (Node.reserveAll scope taken ns)
  | [] => by
    rw [Node.variablesAmong, Node.reserveAll]
    exact ⟨by rw [List.append_nil], claimable_nil _⟩
  | { id, name, kind, dirty, error } :: ns => by
    rw [Node.variablesAmong, Node.reserveAll]
    exact (takes_reserve scope _ _ taken).bind fun after =>
      (Kind.takes_reserveVariables (scope.enter name) after kind).bind fun after =>
        Node.takes_reserveAll scope after ns

theorem Kind.takes_reserveVariables (inner : Scope) (taken : Table String String) :
    ∀ k : Kind, Takes taken (k.variables inner) (k.reserveVariables inner taken)
  | .subnet { inputs, outputs, block, network } => by
    rw [Kind.variables, Kind.reserveVariables]
    exact Graph.takes_reserveVariables inner taken network
  | .constant _ | .param .. | .math .. | .globals | .attribute .. | .varyingWrite ..
  | .varyingRead .. | .function .. | .output _ | .subnetInput _ | .subnetOutput _ => by
    simp only [Kind.variables, Kind.reserveVariables]
    exact ⟨by rw [List.append_nil], claimable_nil _⟩

end

/-- **When a graph has a variable for every value.**  It is let through exactly when all its
    variables differ and none is reserved. -/
theorem Graph.checkVariables_iff (g : Graph) (scope : Scope) :
    g.checkVariables scope = .ok () ↔
      (g.variables scope).Nodup ∧ ∀ name ∈ g.variables scope, ¬Reserved name := by
  have htakes := Graph.takes_reserveVariables scope [] g
  rw [Graph.checkVariables]
  cases h : g.reserveVariables scope [] with
  | error e =>
    rw [h] at htakes
    refine iff_of_false (by simp [Except.map]) fun ⟨hnodup, hfree⟩ => ?_
    exact htakes ⟨hnodup, by simp [Table.keys], hfree⟩
  | ok after =>
    rw [h] at htakes
    exact iff_of_true rfl ⟨htakes.2.nodup, htakes.2.free⟩

end ShaderFlow
