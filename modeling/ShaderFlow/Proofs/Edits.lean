/-
  ShaderFlow.Proofs.Edits — the calls by which a host changes a graph.

  A host makes calls one after the other, on a graph or on the networks of its subnets.  A call
  that is refused leaves the network as it was.  Where no call bypasses validation and what
  nodes bring was made by such calls, too, the graphs that calls lead to are those that
  validated edits build.

  Main definitions:
    * `Edit`, `Edit.apply`      — a call, and the graph after it;
    * `Edit.applyAll`           — the graph after calls, one after the other;
    * `Edit.Allowed`            — a call that does not bypass validation.

  Main statements:
    * `Graph.Built.applyAll`    — allowed calls lead to graphs that validated edits build.
-/

import ShaderFlow.Proofs.Editing

namespace ShaderFlow

variable {g g' : Graph} {id : NodeId}

/-! ## §1. Calls -/

/-- A call by which a host changes a network.  The last one reaches into the network of a
    subnet and makes calls there. -/
inductive Edit where
  | add (id : NodeId) (name : String) (kind : Kind)
  | addNode (n : Node)
  | remove (id : NodeId)
  | editKind (id : NodeId) (edit : Kind → Kind)
  | connect (id : ConnectionId) (source : NodeId) (output : String) (target : NodeId)
      (input : String)
  | connectNames (id : ConnectionId) (source output target input : String)
  | disconnect (id : ConnectionId)
  | insertConnection (c : Connection)
  | inside (id : NodeId) (edits : List Edit)

namespace Edit

mutual

/-- The graph after a call: the changed one, or the same one if the call is refused. -/
def apply : Edit → Graph → Graph
  | .add id name kind, g => g.add id name kind
  | .addNode n, g => (g.addNode n).toOption.getD g
  | .remove id, g => (g.remove id).2
  | .editKind id edit, g => (g.editKind id edit).toOption.getD g
  | .connect id source output target input, g =>
    (g.connect id source output target input).toOption.getD g
  | .connectNames id source output target input, g =>
    (g.connectNames id source output target input).toOption.getD g
  | .disconnect id, g => (g.disconnect id).2
  | .insertConnection c, g => g.insertConnection c
  | .inside id edits, g =>
    ((g.editSubnet id fun network => ((), applyAll edits network)).map (·.2)).getD g

/-- The graph after calls, one after the other. -/
def applyAll : List Edit → Graph → Graph
  | [], g => g
  | e :: edits, g => applyAll edits (e.apply g)

end

mutual

/-- Whether a host may make a call on a graph: it does not bypass validation, takes unused
    identities for new nodes, and the networks that nodes bring were built by validated edits. -/
def Allowed : Edit → Graph → Prop
  | .add id _ kind, g => (∀ m ∈ g.nodes, m.id ≠ id) ∧ ∀ s, kind = .subnet s → s.network.Built
  | .addNode n, _ => ∀ s, n.kind = .subnet s → s.network.Built
  | .editKind id edit, g =>
    ∀ n s, g.node? id = some n → edit n.kind = .subnet s → s.network.Built
  | .insertConnection _, _ => False
  | .inside id edits, g =>
    ∀ n s, g.node? id = some n → n.kind = .subnet s → AllAllowed edits s.network
  | .remove _, _ | .connect .., _ | .connectNames .., _ | .disconnect _, _ => True

/-- Whether a host may make calls, one after the other. -/
def AllAllowed : List Edit → Graph → Prop
  | [], _ => True
  | e :: edits, g => e.Allowed g ∧ AllAllowed edits (e.apply g)

end

/-- What calls into a subnet come to. -/
theorem apply_inside (g : Graph) (id : NodeId) (edits : List Edit) :
    g.editSubnet id (fun network => ((), applyAll edits network)) =
        some ((), (Edit.inside id edits).apply g) ∨
      (∀ n s, g.node? id = some n → n.kind ≠ .subnet s) ∧ (Edit.inside id edits).apply g = g := by
  rw [apply]
  cases h : g.editSubnet id fun network => ((), applyAll edits network) with
  | some r => exact .inl rfl
  | none =>
    refine .inr ⟨?_, rfl⟩
    rintro ⟨own, name, kind, dirty, error⟩ s hn rfl
    rw [Graph.editSubnet, hn] at h
    cases h

end Edit

/-! ## §2. Allowed calls build graphs -/

mutual

theorem Graph.Built.apply :
    ∀ {e : Edit} {g : Graph}, g.Built → e.Allowed g → (e.apply g).Built
  | .add id name kind, g, hg, h => by
    rw [Edit.Allowed] at h
    rw [Edit.apply]
    exact .add hg h.1 h.2
  | .addNode n, g, hg, h => by
    rw [Edit.Allowed] at h
    rw [Edit.apply]
    cases hg' : g.addNode n with
    | error e => exact hg
    | ok g' => exact .addNode hg h hg'
  | .remove id, g, hg, _ => by
    rw [Edit.apply]
    exact .remove hg id
  | .editKind id edit, g, hg, h => by
    rw [Edit.Allowed] at h
    rw [Edit.apply]
    cases hg' : g.editKind id edit with
    | error e => exact hg
    | ok g' => exact .editKind hg h hg'
  | .connect id source output target input, g, hg, _ => by
    rw [Edit.apply]
    cases hg' : g.connect id source output target input with
    | error e => exact hg
    | ok g' => exact .connect hg hg'
  | .connectNames id source output target input, g, hg, _ => by
    rw [Edit.apply]
    cases hg' : g.connectNames id source output target input with
    | error e => exact hg
    | ok g' => exact .connectNames hg hg'
  | .disconnect id, g, hg, _ => by
    rw [Edit.apply]
    exact .disconnect hg id
  -- this is the call that is not allowed
  | .insertConnection c, g, hg, h => by
    rw [Edit.Allowed] at h
    exact h.elim
  | .inside id edits, g, hg, h => by
    rw [Edit.Allowed] at h
    rcases Edit.apply_inside g id edits with hg' | ⟨_, hsame⟩
    · -- the network of the subnet was built, and the calls made there are allowed in it
      refine .editSubnet hg (fun n s hn hk => ?_) hg'
      exact Graph.Built.applyAll (hg.network n (Graph.mem_of_node? hn) s hk) (h n s hn hk)
    · rw [hsame]
      exact hg

/-- **Allowed calls lead to graphs that validated edits build.** -/
theorem Graph.Built.applyAll :
    ∀ {edits : List Edit} {g : Graph}, g.Built → Edit.AllAllowed edits g →
      (Edit.applyAll edits g).Built
  | [], g, hg, _ => by
    rw [Edit.applyAll]
    exact hg
  | e :: edits, g, hg, h => by
    rw [Edit.AllAllowed] at h
    rw [Edit.applyAll]
    exact Graph.Built.applyAll (Graph.Built.apply hg h.1) h.2

end

end ShaderFlow
