/-
  ShaderFlow.Proofs.Connecting — which connections are made, and why the others are not.

  A connection is checked step by step: its nodes, its ports, their types, whether the input is
  free, whether it leads from a node to itself, and at last whether its source depends on its
  target.  The first step that fails says why the connection is refused.  Nothing is asked of the
  network around it, which may have cycles and connections without nodes.

  Main definitions:
    * `Graph.Admits`  — the connections that may be made;
    * `Graph.Refuses` — why a connection may not be made.

  Main statements:
    * `Graph.admits_or_refuses`    — one of the two holds;
    * `Graph.connects_or_refuses`  — and a call that connects does accordingly.
-/

import ShaderFlow.Proofs.Loading

namespace ShaderFlow

open Relation

variable {g : Graph} {c : Connection}

/-! ## §1. Connections that may be made -/

/-- A connection that may be made: it joins an output to an input of an accepting type, nothing
    feeds that input yet, and no way along connections leads from its end back to its start. -/
structure Graph.Admits (g : Graph) (c : Connection) : Prop where
  joins : ∃ s t, g.node? c.source = some s ∧ g.node? c.target = some t ∧
    ∃ o i, s.output? c.output = some o ∧ t.input? c.input = some i ∧
      o.type.connectsTo i.type = true
  free : ∀ d ∈ g.connections, d.target = c.target → d.input ≠ c.input
  apart : c.source ≠ c.target
  noWayBack : ¬TransGen g.Feeds c.target c.source

/-- Why a connection is refused: what is wrong with it first. -/
inductive Graph.Refuses (g : Graph) (c : Connection) : EditError → Prop where
  | noSource (hs : g.node? c.source = none) : Refuses g c (.nodeNotFound c.source)
  | noTarget {s : Node} (hs : g.node? c.source = some s) (ht : g.node? c.target = none) :
      Refuses g c (.nodeNotFound c.target)
  | noOutput {s t : Node} (hs : g.node? c.source = some s) (ht : g.node? c.target = some t)
      (ho : s.output? c.output = none) : Refuses g c (.portNotFound s.name c.output)
  | noInput {s t : Node} {o : Port} (hs : g.node? c.source = some s)
      (ht : g.node? c.target = some t) (ho : s.output? c.output = some o)
      (hi : t.input? c.input = none) : Refuses g c (.portNotFound t.name c.input)
  | incompatible {s t : Node} {o i : Port} (hs : g.node? c.source = some s)
      (ht : g.node? c.target = some t) (ho : s.output? c.output = some o)
      (hi : t.input? c.input = some i) (htypes : o.type.connectsTo i.type = false) :
      Refuses g c (.incompatible o.type i.type)
  | taken {t : Node} {d : Connection} (hjoins : g.Agrees c) (ht : g.node? c.target = some t)
      (hd : d ∈ g.connections) (htarget : d.target = c.target) (hinput : d.input = c.input) :
      Refuses g c (.alreadyConnected t.name c.input)
  | loop (hjoins : g.Agrees c)
      (hfree : ∀ d ∈ g.connections, d.target = c.target → d.input ≠ c.input)
      (hself : c.source = c.target) : Refuses g c .selfLoop
  | cycle (hjoins : g.Agrees c)
      (hfree : ∀ d ∈ g.connections, d.target = c.target → d.input ≠ c.input)
      (hapart : c.source ≠ c.target) (hback : TransGen g.Feeds c.target c.source) :
      Refuses g c .cycle

namespace Graph

/-- Between the ports of a connection only their types count. -/
theorem agrees_iff_connectsTo : g.Agrees c ↔
    ∃ s t, g.node? c.source = some s ∧ g.node? c.target = some t ∧
      ∃ o i, s.output? c.output = some o ∧ t.input? c.input = some i ∧
        o.type.connectsTo i.type = true := by
  unfold Agrees
  constructor
  · rintro ⟨s, t, hs, ht, o, i, ho, hi, hagree⟩
    rw [Kind.canConnect_eq (List.mem_of_find?_eq_some ho) (List.mem_of_find?_eq_some hi)] at hagree
    exact ⟨s, t, hs, ht, o, i, ho, hi, hagree⟩
  · rintro ⟨s, t, hs, ht, o, i, ho, hi, htypes⟩
    rw [← Kind.canConnect_eq (List.mem_of_find?_eq_some ho) (List.mem_of_find?_eq_some hi)]
      at htypes
    exact ⟨s, t, hs, ht, o, i, ho, hi, htypes⟩

/-- Nothing feeds an input. -/
theorem inputSource?_eq_none {target : NodeId} {input : String} :
    g.inputSource? target input = none ↔
      ∀ d ∈ g.connections, d.target = target → d.input ≠ input := by
  rw [inputSource?, List.find?_eq_none]
  refine forall₂_congr fun d _ => ?_
  simp

/-- The search from one end of a connection finds the other end exactly if a way leads there. -/
theorem dependsOn_iff_of_ne (hapart : c.source ≠ c.target) :
    g.dependsOn c.source c.target = true ↔ TransGen g.Feeds c.target c.source := by
  rw [dependsOn_iff, reflTransGen_iff_eq_or_transGen]
  exact or_iff_right hapart

/-- **A connection may be made, or there is a reason why not.** -/
theorem admits_or_refuses (g : Graph) (c : Connection) : g.Admits c ∨ ∃ e, g.Refuses c e := by
  -- one split for each check, in the order in which they are made
  cases hs : g.node? c.source with
  | none => exact .inr ⟨_, .noSource hs⟩
  | some s =>
    cases ht : g.node? c.target with
    | none => exact .inr ⟨_, .noTarget hs ht⟩
    | some t =>
      cases ho : s.output? c.output with
      | none => exact .inr ⟨_, .noOutput hs ht ho⟩
      | some o =>
        cases hi : t.input? c.input with
        | none => exact .inr ⟨_, .noInput hs ht ho hi⟩
        | some i =>
          cases htypes : o.type.connectsTo i.type with
          | false => exact .inr ⟨_, .incompatible hs ht ho hi htypes⟩
          | true =>
            have hjoins : g.Agrees c :=
              agrees_iff_connectsTo.mpr ⟨s, t, hs, ht, o, i, ho, hi, htypes⟩
            by_cases hfree : ∀ d ∈ g.connections, d.target = c.target → d.input ≠ c.input
            · by_cases hself : c.source = c.target
              · exact .inr ⟨_, .loop hjoins hfree hself⟩
              · by_cases hback : TransGen g.Feeds c.target c.source
                · exact .inr ⟨_, .cycle hjoins hfree hself hback⟩
                · exact .inl ⟨agrees_iff_connectsTo.mp hjoins, hfree, hself, hback⟩
            · push Not at hfree
              obtain ⟨d, hd, htarget, hinput⟩ := hfree
              exact .inr ⟨_, .taken hjoins ht hd htarget hinput⟩

/-! ## §2. What the checks come to -/

/-- A connection that may be made passes all checks, and no other one does. -/
theorem checkConnection_iff_admits :
    g.checkConnection c.source c.output c.target c.input = .ok () ↔ g.Admits c := by
  rw [checkConnection_eq_ok]
  constructor
  · rintro ⟨hjoins, hfree, hapart, hnot⟩
    refine ⟨agrees_iff_connectsTo.mp hjoins, inputSource?_eq_none.mp hfree, hapart, fun hback => ?_⟩
    rw [(dependsOn_iff_of_ne hapart).mpr hback] at hnot
    cases hnot
  · intro h
    refine ⟨agrees_iff_connectsTo.mpr h.joins, inputSource?_eq_none.mpr h.free, h.apart, ?_⟩
    rw [Bool.eq_false_iff]
    exact fun hsearch => h.noWayBack ((dependsOn_iff_of_ne h.apart).mp hsearch)

/-- The reason why a connection may not be made is what the checks say. -/
theorem checkConnection_of_refuses {e : EditError} (h : g.Refuses c e) :
    g.checkConnection c.source c.output c.target c.input = .error e := by
  have hsome : ∀ d ∈ g.connections, d.target = c.target → d.input = c.input →
      (g.inputSource? c.target c.input).isSome = true := by
    intro d hd htarget hinput
    rw [Option.isSome_iff_ne_none, ne_eq, inputSource?_eq_none]
    exact fun hfree => hfree d hd htarget hinput
  unfold checkConnection
  cases h with
  | noSource hs => rw [hs]
  | noTarget hs ht => rw [hs, ht]
  | noOutput hs ht ho => simp only [hs, ht, ho]
  | noInput hs ht ho hi => simp only [hs, ht, ho, hi]
  | incompatible hs ht ho hi htypes =>
    simp only [hs, ht, ho, hi]
    rw [Kind.canConnect_eq (List.mem_of_find?_eq_some ho) (List.mem_of_find?_eq_some hi), htypes]
    rfl
  -- each case gets past the checks in front of its own, which find what the case says
  | taken hjoins ht hd htarget hinput =>
    obtain ⟨s, t, hs, ht', o, i, ho, hi, hagree⟩ := hjoins
    obtain rfl := Option.some.inj (ht.symm.trans ht')
    simp only [hs, ht, ho, hi, hagree, hsome _ hd htarget hinput]
    rfl
  | loop hjoins hfree hself =>
    obtain ⟨s, t, hs, ht, o, i, ho, hi, hagree⟩ := hjoins
    simp only [hs, ht, ho, hi, hagree, inputSource?_eq_none.mpr hfree, beq_iff_eq.mpr hself]
    rfl
  | cycle hjoins hfree hapart hback =>
    obtain ⟨s, t, hs, ht, o, i, ho, hi, hagree⟩ := hjoins
    simp only [hs, ht, ho, hi, hagree, inputSource?_eq_none.mpr hfree,
      beq_eq_false_iff_ne.mpr hapart, (dependsOn_iff_of_ne hapart).mpr hback]
    rfl

/-! ## §3. Calls -/

/-- **What a call that connects does.**  In any network, one with cycles or loose ends among them,
    a connection that may be made is put behind the others, and the version grows by one; any
    other one is refused for what is wrong with it first, and the network stays as it is. -/
theorem connects_or_refuses (g : Graph) (id : ConnectionId) (source : NodeId) (output : String)
    (target : NodeId) (input : String) :
    let c : Connection := { id, source, output, target, input }
    (g.Admits c ∧ g.connect id source output target input =
        .ok { g with connections := g.connections ++ [c], version := g.version + 1 }) ∨
      ¬g.Admits c ∧ (∃ e, g.Refuses c e ∧ g.connect id source output target input = .error e) ∧
        (Edit.connect id source output target input).apply g = g := by
  intro c
  by_cases hadmits : g.Admits c
  · left
    have hcheck : g.checkConnection source output target input = .ok () :=
      checkConnection_iff_admits.mpr hadmits
    refine ⟨hadmits, ?_⟩
    rw [connect, hcheck]
    rfl
  · right
    obtain ⟨e, hrefuses⟩ := (admits_or_refuses g c).resolve_left hadmits
    have hcheck : g.checkConnection source output target input = .error e :=
      checkConnection_of_refuses hrefuses
    have hcall : g.connect id source output target input = .error e := by
      rw [connect, hcheck]
      rfl
    refine ⟨hadmits, ⟨e, hrefuses, hcall⟩, ?_⟩
    rw [Edit.apply, hcall]
    rfl

end Graph

end ShaderFlow
