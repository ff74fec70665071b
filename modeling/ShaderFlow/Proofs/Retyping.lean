/-
  ShaderFlow.Proofs.Retyping — connections whose types agree.

  The types of two ports are compared when they are connected.  A node may get another kind
  later, and what is then looked at is only whether the kind has ports of the same names.  So
  the types at the ends of a connection agree as long as every such change suits the connections
  of its node, and not beyond that.

  Main definitions:
    * `Graph.Typed`        — a network in which the types at every connection agree;
    * `Graph.Suits`        — a kind whose ports agree with the connections of a node;
    * `Edit.AllSuit`       — calls that change kinds only to kinds that suit;
    * `Edit.AllKeep`       — calls after each of which something holds of all networks.

  Main statements:
    * `Graph.Typed.editKind_iff`   — what one change of kind does;
    * `Edit.agree_iff_suit`        — types agree all along exactly if all changes suit.
-/

import ShaderFlow.Proofs.WellFormed

namespace ShaderFlow

variable {g g' : Graph} {id : NodeId}

/-! ## §1. Types at the ends of connections -/

/-- Both ports of a connection exist, and their types agree. -/
def Graph.Agrees (g : Graph) (c : Connection) : Prop :=
  ∃ s t, g.node? c.source = some s ∧ g.node? c.target = some t ∧
    ∃ o i, s.output? c.output = some o ∧ t.input? c.input = some i ∧ o.canConnect i = true

/-- A network in which the types at the ends of every connection agree. -/
def Graph.Typed (g : Graph) : Prop := ∀ c ∈ g.connections, g.Agrees c

/-- Whether the types at the ends of the connections of a node would agree if it had the given
    kind, as far as that kind has the ports. -/
def Graph.Suits (g : Graph) (id : NodeId) (kind : Kind) : Prop :=
  ∀ c ∈ g.connections,
    (c.source = id → ∀ t o i, g.node? c.target = some t →
      kind.outputs.find? (·.name == c.output) = some o → t.input? c.input = some i →
        o.canConnect i = true) ∧
    (c.target = id → ∀ s o i, g.node? c.source = some s →
      s.output? c.output = some o → kind.inputs.find? (·.name == c.input) = some i →
        o.canConnect i = true)

/-- Whether the types agree in the networks that a kind brings. -/
def Kind.Typed (k : Kind) : Prop := ∀ s, k = .subnet s → s.network.Everywhere Graph.Typed

/-- Whether the types agree at a connection whose ports are known. -/
theorem Graph.agrees_iff {c : Connection} {s t : Node} {o i : Port} (hs : g.node? c.source = some s)
    (ht : g.node? c.target = some t) (ho : s.output? c.output = some o)
    (hi : t.input? c.input = some i) : g.Agrees c ↔ o.canConnect i = true := by
  refine ⟨?_, fun hagree => ⟨s, t, hs, ht, o, i, ho, hi, hagree⟩⟩
  rintro ⟨s', t', hs', ht', o', i', ho', hi', hagree⟩
  cases hs.symm.trans hs'
  cases ht.symm.trans ht'
  cases ho.symm.trans ho'
  cases hi.symm.trans hi'
  exact hagree

theorem Graph.Agrees.of_keepsPorts {c : Connection} (h : g.Agrees c)
    (hsource : g.KeepsPorts g' c.source) (htarget : g.KeepsPorts g' c.target) : g'.Agrees c := by
  obtain ⟨s, t, hs, ht, o, i, ho, hi, hagree⟩ := h
  obtain ⟨s', hs', _, houtputs⟩ := hsource s hs
  obtain ⟨t', ht', hinputs, _⟩ := htarget t ht
  rw [Node.output?, ← houtputs] at ho
  rw [Node.input?, ← hinputs] at hi
  exact ⟨s', t', hs', ht', o, i, ho, hi, hagree⟩

/-! ## §2. One edit -/

namespace Graph.Typed

theorem insertNode (h : g.Typed) (n : Node) : (g.insertNode n).Typed :=
  fun c hc => (h c hc).of_keepsPorts (Graph.keepsPorts_insertNode n _)
    (Graph.keepsPorts_insertNode n _)

theorem remove (h : g.Typed) (id : NodeId) : (g.remove id).2.Typed := by
  intro c hc
  obtain ⟨hmem, hsource, htarget⟩ := Graph.mem_connections_remove.mp hc
  exact (h c hmem).of_keepsPorts (Graph.keepsPorts_remove hsource)
    (Graph.keepsPorts_remove htarget)

theorem connect {source target : NodeId} {output input : String} {id : ConnectionId} (h : g.Typed)
    (hg' : g.connect id source output target input = .ok g') : g'.Typed := by
  obtain ⟨_, hcheck, rfl⟩ := map_eq_ok.mp hg'
  intro c hc
  rcases List.mem_append.mp hc with hc | hc
  · exact h c hc
  · rw [List.mem_singleton.mp hc]
    exact (Graph.checkConnection_eq_ok.mp hcheck).1

theorem disconnect (h : g.Typed) (id : ConnectionId) : (g.disconnect id).2.Typed := by
  unfold Graph.disconnect
  split
  · exact h
  · exact fun c hc => h c (List.mem_filter.mp hc).1

theorem editSubnet {α : Type} {edit : Graph → α × Graph} {result : α} (h : g.Typed)
    (hg' : g.editSubnet id edit = some (result, g')) : g'.Typed := by
  obtain ⟨n, s, hn, hk, rfl⟩ := Graph.editSubnet_eq_some hg'
  intro c hc
  have hkeeps : ∀ other, g.KeepsPorts { g with
      nodes := Graph.replaceNode g.nodes id fun m =>
        { m with kind := .subnet { s with network := (edit s.network).2 } }
      version := g.version + 1 } other := by
    intro other
    refine Graph.keepsPorts_replaceNode (fun _ => rfl) fun m hm => ?_
    obtain rfl := Option.some.inj (hn.symm.trans hm)
    simp only [Node.inputs, Node.outputs, hk]
    exact ⟨rfl, rfl⟩
  exact (h c hc).of_keepsPorts (hkeeps _) (hkeeps _)

end Graph.Typed

/-- The connections that are left where a node got another kind: those whose ports exist. -/
theorem Graph.mem_connections_editKind {edit : Kind → Kind} (hg : g.Sound)
    (h : g.editKind id edit = .ok g') {c : Connection} :
    c ∈ g'.connections ↔ c ∈ g.connections ∧ g'.hasPorts c = true := by
  have hjoined := (hg.editKind h).joined
  unfold Graph.editKind at h
  split at h
  next => cases h
  next =>
    simp only at h
    split at h <;> cases h
    · exact ⟨fun hc => ⟨hc, hjoined c hc⟩, And.left⟩
    · exact List.mem_filter

/-- **One change of kind**: the types agree afterwards exactly if the kind suits the connections
    of its node. -/
theorem Graph.Typed.editKind_iff {edit : Kind → Kind} {n : Node} (h : g.Typed)
    (hg : g.WellFormed) (hn : g.node? id = some n) (hg' : g.editKind id edit = .ok g') :
    g'.Typed ↔ g.Suits id (edit n.kind) := by
  obtain ⟨n', hn', hself, hothers⟩ := Graph.node?_editKind hg'
  obtain rfl := Option.some.inj (hn.symm.trans hn')
  have hmem := fun c => Graph.mem_connections_editKind hg.toSound hg' (c := c)
  constructor
  · intro htyped c hc
    have hne := hg.acyclic.ne hc
    refine ⟨?_, ?_⟩
    · rintro rfl t o i ht ho hi
      have ht' : g'.node? c.target = some t := (hothers _ hne.symm).trans ht
      have hports : g'.hasPorts c = true := by
        simp [Graph.hasPorts, hself, ht', Node.output?, Node.outputs, ho, hi]
      exact (Graph.agrees_iff hself ht' ho hi).mp (htyped c ((hmem c).mpr ⟨hc, hports⟩))
    · rintro rfl s o i hs ho hi
      have hs' : g'.node? c.source = some s := (hothers _ hne).trans hs
      have hports : g'.hasPorts c = true := by
        simp [Graph.hasPorts, hself, hs', Node.input?, Node.inputs, ho, hi]
      exact (Graph.agrees_iff hs' hself ho hi).mp (htyped c ((hmem c).mpr ⟨hc, hports⟩))
  · intro hsuits c hc
    obtain ⟨hold, hports⟩ := (hmem c).mp hc
    have hne := hg.acyclic.ne hold
    unfold Graph.hasPorts at hports
    rw [Bool.and_eq_true, Option.any_eq_true, Option.any_eq_true] at hports
    obtain ⟨⟨s, hs, houtput⟩, t, ht, hinput⟩ := hports
    obtain ⟨o, ho⟩ := Option.isSome_iff_exists.mp houtput
    obtain ⟨i, hi⟩ := Option.isSome_iff_exists.mp hinput
    refine (Graph.agrees_iff hs ht ho hi).mpr ?_
    -- the node stands at one end at most, where the kind has to suit
    by_cases hsource : c.source = id
    · subst hsource
      rw [hothers _ hne.symm] at ht
      cases hself.symm.trans hs
      exact (hsuits c hold).1 rfl t o i ht ho hi
    · rw [hothers _ hsource] at hs
      by_cases htarget : c.target = id
      · subst htarget
        cases hself.symm.trans ht
        exact (hsuits c hold).2 rfl s o i hs ho hi
      · rw [hothers _ htarget] at ht
        exact (Graph.agrees_iff hs ht ho hi).mp (h c hold)

/-! ## §3. All networks -/

/-- A node that is added keeps the types of all networks as far as what it brings has them. -/
theorem Graph.everywhereTyped_insertNode (h : g.Everywhere Graph.Typed) (n : Node) :
    (g.insertNode n).Everywhere Graph.Typed ↔ n.kind.Typed := by
  constructor
  · intro hnew s hk
    exact hnew.inside ⟨{ n with name := g.freeName n.name }, by simp [Graph.insertNode], s, hk, rfl⟩
  · intro hkind
    refine h.changed (h.here.insertNode n) fun m hm s hk => ?_
    rcases Graph.mem_insertNode hm with hm | heq
    · exact .inl ⟨m, hm, hk⟩
    · exact .inr (hkind s (heq.symm.trans hk))

/-- A change of kind keeps the types of all networks exactly if it suits the connections there
    and the types agree in what it brings. -/
theorem Graph.everywhereTyped_editKind {edit : Kind → Kind} {n : Node}
    (h : g.Everywhere Graph.Typed) (hg : g.WellFormed) (hn : g.node? id = some n)
    (hg' : g.editKind id edit = .ok g') :
    g'.Everywhere Graph.Typed ↔ g.Suits id (edit n.kind) ∧ (edit n.kind).Typed := by
  have hhere := h.here.editKind_iff hg hn hg'
  constructor
  · intro hnew
    refine ⟨hhere.mp hnew.here, fun s hk => ?_⟩
    obtain ⟨n', hn', hself, _⟩ := Graph.node?_editKind hg'
    obtain rfl := Option.some.inj (hn.symm.trans hn')
    exact hnew.inside ⟨_, Graph.mem_of_node? hself, s, hk, rfl⟩
  · rintro ⟨hsuits, hkind⟩
    refine h.changed (hhere.mpr hsuits) fun m hm s hk => ?_
    rcases Graph.mem_editKind hg' hm with hm | ⟨n', hn', heq⟩
    · exact .inl ⟨m, hm, hk⟩
    · obtain rfl := Option.some.inj (hn.symm.trans hn')
      exact .inr (hkind s (heq.symm.trans hk))

/-- An edit that only takes nodes and connections away, or adds a connection, brings no
    network. -/
theorem Graph.Everywhere.of_subset {P : Graph → Prop} (h : g.Everywhere P) (hhere : P g')
    (hnodes : g'.nodes ⊆ g.nodes) : g'.Everywhere P :=
  h.changed hhere fun m hm _ hk => .inl ⟨m, hnodes hm, hk⟩

/-! ## §4. Calls one after the other -/

namespace Edit

mutual

/-- Whether the changes of kind that a call makes suit the connections of their nodes, and the
    types agree in the networks that it brings. -/
def Suits : Edit → Graph → Prop
  | .add _ _ kind, _ => kind.Typed
  | .addNode n, g => (∀ m ∈ g.nodes, m.id ≠ n.id) → n.kind.Typed
  | .editKind id edit, g =>
    ∀ n, g.node? id = some n → g.Suits id (edit n.kind) ∧ (edit n.kind).Typed
  | .inside id edits, g =>
    ∀ n s, g.node? id = some n → n.kind = .subnet s → AllSuit edits s.network
  | .remove _, _ | .connect .., _ | .connectNames .., _ | .disconnect _, _
  | .insertConnection _, _ => True

/-- Whether all changes of kind among calls suit, one after the other. -/
def AllSuit : List Edit → Graph → Prop
  | [], _ => True
  | e :: edits, g => e.Suits g ∧ AllSuit edits (e.apply g)

end

mutual

/-- Whether something holds of all networks after a call, and meanwhile in a network where the
    call makes others. -/
def Keeps (P : Graph → Prop) : Edit → Graph → Prop
  | .inside id edits, g =>
    (∀ n s, g.node? id = some n → n.kind = .subnet s → AllKeep P edits s.network) ∧
      ((Edit.inside id edits).apply g).Everywhere P
  | e, g => (e.apply g).Everywhere P

/-- Whether something holds of all networks after each of some calls. -/
def AllKeep (P : Graph → Prop) : List Edit → Graph → Prop
  | [], _ => True
  | e :: edits, g => e.Keeps P g ∧ AllKeep P edits (e.apply g)

end

theorem Keeps.apply {P : Graph → Prop} {e : Edit} (h : e.Keeps P g) : (e.apply g).Everywhere P := by
  cases e with
  | inside id edits =>
    rw [Keeps] at h
    exact h.2
  | _ => simpa only [Keeps] using h

/-- What holds after each call holds after all. -/
theorem AllKeep.applyAll {P : Graph → Prop} :
    ∀ {edits : List Edit} {g : Graph}, AllKeep P edits g → g.Everywhere P →
      (applyAll edits g).Everywhere P
  | [], g, _, hg => by
    rw [Edit.applyAll]
    exact hg
  | e :: edits, g, h, _ => by
    rw [AllKeep] at h
    rw [Edit.applyAll]
    exact h.2.applyAll h.1.apply

/-- Connecting keeps the types of all networks, also if it is refused. -/
theorem everywhereTyped_connect {id : ConnectionId} {source target : NodeId}
    {output input : String} (h : g.Everywhere Graph.Typed)
    (hg' : g.connect id source output target input = .ok g') : g'.Everywhere Graph.Typed := by
  refine h.of_subset (h.here.connect hg') ?_
  obtain ⟨_, _, rfl⟩ := map_eq_ok.mp hg'
  exact fun _ hm => hm

/-- Calls into a subnet keep the types of all networks if they do so inside. -/
theorem everywhereTyped_inside {edits : List Edit} (h : g.Everywhere Graph.Typed)
    (hinside : ∀ n s, g.node? id = some n → n.kind = .subnet s →
      (applyAll edits s.network).Everywhere Graph.Typed) :
    ((Edit.inside id edits).apply g).Everywhere Graph.Typed := by
  rcases apply_inside g id edits with hg' | ⟨_, hsame⟩
  · obtain ⟨n, s, hn, hk, heq⟩ := Graph.editSubnet_eq_some hg'
    refine h.changed (h.here.editSubnet hg') fun m hm s' hk' => ?_
    rw [heq] at hm
    rcases Graph.mem_replaceNode hm with hm | ⟨_, _, _, rfl⟩
    · exact .inl ⟨m, hm, hk'⟩
    · cases hk'
      exact .inr (hinside n s hn hk)
  · rw [hsame]
    exact h

mutual

/-- One allowed call keeps the types of all networks exactly if it suits. -/
theorem keepsTyped_iff :
    ∀ {e : Edit} {g : Graph}, g.Built → e.Allowed g → g.Everywhere Graph.Typed →
      (e.Keeps Graph.Typed g ↔ e.Suits g)
  | .add id name kind, g, _, _, hg => by
    simp only [Keeps, Suits, apply]
    exact Graph.everywhereTyped_insertNode hg _
  | .addNode n, g, _, _, hg => by
    simp only [Keeps, Suits, apply]
    unfold Graph.addNode
    split
    next hused =>
      refine ⟨fun _ hfresh => ?_, fun _ => hg⟩
      obtain ⟨m, hm, hid⟩ := List.any_eq_true.mp hused
      exact absurd (by simpa using hid) (hfresh m hm)
    next hfresh =>
      have hnew : ∀ m ∈ g.nodes, m.id ≠ n.id := by simpa using hfresh
      exact (Graph.everywhereTyped_insertNode hg n).trans ⟨fun h _ => h, fun h => h hnew⟩
  | .remove id, g, _, _, hg => by
    simp only [Keeps, Suits, apply]
    exact iff_of_true (hg.of_subset (hg.here.remove id) (g.nodes_remove_subset id)) trivial
  | .editKind id edit, g, hbuilt, _, hg => by
    simp only [Keeps, Suits, apply]
    cases hg' : g.editKind id edit with
    | error e =>
      refine iff_of_true hg fun n hn => ?_
      rw [Graph.node?_of_editKind_error hg'] at hn
      cases hn
    | ok g' =>
      obtain ⟨n, hn, _⟩ := Graph.node?_editKind hg'
      have hiff := Graph.everywhereTyped_editKind hg hbuilt.wellFormed.here hn hg'
      refine hiff.trans ⟨fun h m hm => ?_, fun h => h n hn⟩
      obtain rfl := Option.some.inj (hn.symm.trans hm)
      exact h
  | .connect id source output target input, g, _, _, hg => by
    simp only [Keeps, Suits, apply]
    cases hg' : g.connect id source output target input with
    | error e => exact iff_of_true hg trivial
    | ok g' => exact iff_of_true (everywhereTyped_connect hg hg') trivial
  | .connectNames id source output target input, g, _, _, hg => by
    simp only [Keeps, Suits, apply]
    cases hg' : g.connectNames id source output target input with
    | error e => exact iff_of_true hg trivial
    | ok g' =>
      obtain ⟨s, t, hg'⟩ := Graph.connect_of_connectNames hg'
      exact iff_of_true (everywhereTyped_connect hg hg') trivial
  | .disconnect id, g, _, _, hg => by
    simp only [Keeps, Suits, apply]
    refine iff_of_true (hg.of_subset (hg.here.disconnect id) ?_) trivial
    rw [g.nodes_disconnect id]
    exact fun _ hm => hm
  | .insertConnection c, g, _, h, _ => by
    rw [Allowed] at h
    exact h.elim
  | .inside id edits, g, hbuilt, h, hg => by
    rw [Allowed] at h
    rw [Keeps, Suits]
    have hiff : ∀ n s, g.node? id = some n → n.kind = .subnet s →
        (AllKeep Graph.Typed edits s.network ↔ AllSuit edits s.network) := by
      intro n s hn hk
      have hmem := Graph.mem_of_node? hn
      exact allKeepTyped_iff (hbuilt.network n hmem s hk) (h n s hn hk)
        (hg.inside ⟨n, hmem, s, hk, rfl⟩)
    constructor
    · rintro ⟨hkeeps, _⟩ n s hn hk
      exact (hiff n s hn hk).mp (hkeeps n s hn hk)
    · intro hsuit
      have hkeeps := fun n s hn hk => (hiff n s hn hk).mpr (hsuit n s hn hk)
      refine ⟨hkeeps, everywhereTyped_inside hg fun n s hn hk => (hkeeps n s hn hk).applyAll ?_⟩
      exact hg.inside ⟨n, Graph.mem_of_node? hn, s, hk, rfl⟩

theorem allKeepTyped_iff :
    ∀ {edits : List Edit} {g : Graph}, g.Built → AllAllowed edits g → g.Everywhere Graph.Typed →
      (AllKeep Graph.Typed edits g ↔ AllSuit edits g)
  | [], g, _, _, _ => by rw [AllKeep, AllSuit]
  | e :: edits, g, hbuilt, h, hg => by
    rw [AllAllowed] at h
    rw [AllKeep, AllSuit]
    have hfirst := keepsTyped_iff hbuilt h.1 hg
    have hrest := fun htyped => allKeepTyped_iff (hbuilt.apply h.1) h.2 htyped
    constructor
    · rintro ⟨hkeeps, hall⟩
      exact ⟨hfirst.mp hkeeps, (hrest hkeeps.apply).mp hall⟩
    · rintro ⟨hsuits, hall⟩
      have hkeeps := hfirst.mpr hsuits
      exact ⟨hkeeps, (hrest hkeeps.apply).mpr hall⟩

end

/-- **When types agree all along.**  Start from an empty graph and make any calls that do not
    bypass validation.  Then the types agree at every connection of every network, after each of
    the calls, exactly if each change of kind suits the connections of its node and the types
    agree in what the calls bring.  So then they agree in the end. -/
theorem agree_iff_suit (name : String) (edits : List Edit) (h : AllAllowed edits (.empty name)) :
    (AllKeep Graph.Typed edits (.empty name) ↔ AllSuit edits (.empty name)) ∧
      (AllSuit edits (.empty name) → (applyAll edits (.empty name)).Everywhere Graph.Typed) := by
  have hbuilt : (Graph.empty name).Built := .empty name
  have htyped : (Graph.empty name).Everywhere Graph.Typed := Graph.everywhere_empty nofun
  have hiff := allKeepTyped_iff hbuilt h htyped
  exact ⟨hiff, fun hsuit => (hiff.mpr hsuit).applyAll htyped⟩

/-- Calls that connect a number to the operand of a sine and then change the number. -/
def retyping (value : Value) : List Edit :=
  [.add ⟨1⟩ "k" (.constant (.float .one)),
   .add ⟨2⟩ "m" (.math .sin .float),
   .connect ⟨3⟩ ⟨1⟩ "value" ⟨2⟩ "x",
   .editKind ⟨1⟩ fun _ => .constant value]

theorem retyping_allowed (value : Value) : AllAllowed (retyping value) (.empty "g") := by
  simp only [retyping, AllAllowed, Allowed]
  exact ⟨⟨nofun, nofun⟩, ⟨by decide, nofun⟩, trivial, nofun, trivial⟩

/-- An integer suits where a float is read. -/
theorem retyping_int_suits :
    AllAllowed (retyping (.int 1)) (.empty "g") ∧
      (applyAll (retyping (.int 1)) (.empty "g")).Everywhere Graph.Typed := by
  have hallowed := retyping_allowed (.int 1)
  refine ⟨hallowed, (agree_iff_suit "g" (retyping (.int 1)) hallowed).2 ?_⟩
  simp only [retyping, AllSuit, Suits]
  refine ⟨nofun, nofun, trivial, fun n _ => ⟨fun c hc => ?_, nofun⟩, trivial⟩
  obtain rfl := List.mem_singleton.mp hc
  refine ⟨fun _ t o i ht ho hi => ?_, nofun⟩
  cases ht
  cases ho
  cases hi
  rfl

/-- A vector does not, and is still connected there: no call was refused, and the connection is
    not one that could be made. -/
theorem retyping_vector_disagrees :
    AllAllowed (retyping (.vector3 .one .one .one)) (.empty "g") ∧
      (applyAll (retyping (.vector3 .one .one .one)) (.empty "g")).connections =
        [⟨⟨3⟩, ⟨1⟩, "value", ⟨2⟩, "x"⟩] ∧
      ¬(applyAll (retyping (.vector3 .one .one .one)) (.empty "g")).Typed := by
  refine ⟨retyping_allowed _, rfl, fun htyped => ?_⟩
  obtain ⟨s, t, hs, ht, o, i, ho, hi, hagree⟩ := htyped _ (List.mem_singleton_self _)
  cases hs
  cases ht
  cases ho
  cases hi
  cases hagree

end Edit

end ShaderFlow
