/-
  ShaderFlow.Proofs.Coverage — the places of a particle system cover what its stages touch.

  A particle backend places the attributes that it collects and then emits stage by stage.
  Where subnets pass on what they are fed, whatever a stage reads or writes was collected, so
  it has a place that is wide enough.

  Main definitions:
    * `Site.attributes`   — the attributes that a node can read or write;
    * `Particles.Covers`  — a table that covers what the stages of a graph touch.

  Main statements:
    * `Particles.attribute_of_error`, `Particles.attribute_of_note` — nothing else is touched;
    * `Particles.covers_of_allocate` — the table that is built for a graph covers it.
-/

import ShaderFlow.Program
import ShaderFlow.Proofs.Collection
import ShaderFlow.Proofs.Editing
import ShaderFlow.Proofs.Packing

namespace ShaderFlow

variable {table : Allocations} {s : Site} {name : String} {type : PortType} {e : CompileError}
  {cs : List Contribution}

/-! ## §1. What a node can touch -/

/-- The attributes that a node can read or write where it stands, with their types. -/
def Site.attributes (s : Site) : Table String PortType :=
  match s.node.kind with
  | .attribute name type => [(name, type)]
  | .globals => [(positionName, .vector3)]
  | .output _ => (Particles.outputAttributes.filter s.isFed).map (·, .vector3)
  | _ => []

/-- The attribute that a note is about. -/
def Note.attribute? : Note → Option String
  | .reads name | .writes name => some name
  | _ => none

namespace Particles

theorem allocation_error (h : allocation table s name = .error e) :
    e = .unallocatedAttribute s.ref name ∧ table.get? name = none := by
  unfold allocation at h
  split at h
  · cases h
  next hnone =>
    cases h
    exact ⟨rfl, hnone⟩

theorem read_error (h : read table s name type = .error e) :
    e = .unallocatedAttribute s.ref name ∧ table.get? name = none := by
  rcases bind_eq_error.mp h with h | ⟨_, _, h⟩
  · exact allocation_error h
  · cases h

theorem write_error {value : Operand} (h : write table s name type value = .error e) :
    e = .unallocatedAttribute s.ref name ∧ table.get? name = none := by
  rcases bind_eq_error.mp h with h | ⟨_, _, h⟩
  · exact allocation_error h
  · cases h

variable {ref : NodeRef}

/-- An attribute node looks for the place of its own attribute. -/
theorem emitAttribute_error {own : String}
    (h : emitAttribute table s own type = .error (.unallocatedAttribute ref name)) :
    name = own ∧ table.get? name = none := by
  rw [emitAttribute_eq] at h
  rcases bind_eq_error.mp h with h | ⟨_, _, h⟩
  · unfold readings at h
    split at h
    · obtain ⟨heq, hnone⟩ := read_error (map_eq_error.mp h)
      cases heq
      exact ⟨rfl, hnone⟩
    · cases h
  rcases bind_eq_error.mp h with h | ⟨_, _, h⟩
  · unfold writes at h
    split at h
    · rcases bind_eq_error.mp h with h | ⟨_, _, h⟩
      · exact absurd trivial (Site.input_error h)
      · obtain ⟨heq, hnone⟩ := write_error (map_eq_error.mp h)
        cases heq
        exact ⟨rfl, hnone⟩
    · cases h
  · cases h

/-- The output node looks for those of its inputs that are fed. -/
theorem emitOutput_error (h : emitOutput table s = .error (.unallocatedAttribute ref name)) :
    name ∈ outputAttributes.filter s.isFed ∧ table.get? name = none := by
  rcases bind_eq_error.mp h with h | ⟨_, _, h⟩
  · obtain ⟨own, hown, h⟩ := exists_of_mapM_eq_error h
    rcases bind_eq_error.mp h with h | ⟨_, _, h⟩
    · exact absurd trivial (Site.input_error h)
    · obtain ⟨heq, hnone⟩ := write_error h
      cases heq
      obtain ⟨hlisted, hwritten⟩ := List.mem_filter.mp hown
      rw [Bool.and_eq_true] at hwritten
      exact ⟨List.mem_filter.mpr ⟨hlisted, hwritten.2⟩, hnone⟩
  · cases h

/-- Of what the host provides, only the position has a place. -/
theorem emitGlobals_error
    (h : s.emitGlobals (readGlobal table s) = .error (.unallocatedAttribute ref name)) :
    name = positionName ∧ table.get? name = none := by
  rcases bind_eq_error.mp h with h | ⟨_, _, h⟩
  · obtain ⟨output, _, h⟩ := exists_of_mapM_eq_error h
    unfold readGlobal at h
    split at h
    case h_4 =>
      obtain ⟨heq, hnone⟩ := read_error h
      cases heq
      exact ⟨rfl, hnone⟩
    all_goals cases h
  · cases h

/-- **A leaf fails for want of a place only for an attribute that it can touch.** -/
theorem attribute_of_error
    (h : (Backend.particles table).emitLeaf s s.node.kind =
      .error (.unallocatedAttribute ref name)) :
    name ∈ s.attributes.keys ∧ table.get? name = none := by
  cases hk : s.node.kind with
  -- what touches no attribute does not fail, or fails for want of an input
  | constant _ | param _ _ _ | varyingRead _ _ | subnetInput _ | subnet _ =>
    rw [hk] at h
    cases h
  | math op _ =>
    rw [hk] at h
    rcases bind_eq_error.mp h with h | ⟨_, _, h⟩
    · exact absurd trivial (Site.inputs_error h)
    · cases h
  | varyingWrite _ _ =>
    rw [hk] at h
    rcases bind_eq_error.mp h with h | ⟨_, _, h⟩
    · exact absurd trivial (Site.input_error h)
    · cases h
  | function f inputs _ =>
    rw [hk] at h
    unfold Backend.emitLeaf Backend.emitCall at h
    simp only at h
    split at h
    · cases h
    · rcases bind_eq_error.mp h with h | ⟨_, _, h⟩
      · exact absurd trivial (Site.inputs_error h)
      · cases h
  | subnetOutput _ =>
    rw [hk] at h
    rcases bind_eq_error.mp h with h | ⟨_, _, h⟩
    · obtain ⟨_, _, h⟩ := exists_of_mapM_eq_error h
      exact absurd trivial (Site.input_error (map_eq_error.mp h))
    · cases h
  | globals =>
    rw [hk] at h
    obtain ⟨rfl, hnone⟩ := emitGlobals_error h
    exact ⟨by simp [Site.attributes, hk, Table.keys], hnone⟩
  | «attribute» own type =>
    rw [hk] at h
    obtain ⟨rfl, hnone⟩ := emitAttribute_error h
    exact ⟨by simp [Site.attributes, hk, Table.keys], hnone⟩
  | output target =>
    rw [hk] at h
    obtain ⟨hfed, hnone⟩ := emitOutput_error h
    exact ⟨by simpa [Site.attributes, hk, Table.keys] using hfed, hnone⟩

/-! ## §2. What a node notes -/

variable {note : Note}

/-- A read is noted for its attribute. -/
theorem read_note {r : Reading} (h : read table s name type = .ok r)
    (hnote : Contribution.note note ∈ r.contributions) : note = .reads name := by
  obtain ⟨a, _, h⟩ := bind_eq_ok.mp h
  obtain rfl := pure_eq_ok.mp h
  simpa using hnote

theorem note_of_mem_exchange {readings : List Reading} {writes : List (Contribution × Statement)}
    (h : Contribution.note note ∈ s.exchange readings writes) :
    (∃ r ∈ readings, Contribution.note note ∈ r.contributions) ∨
      ∃ w ∈ writes, w.1 = .note note := by
  rcases List.mem_append.mp h with h | h
  · rcases List.mem_append.mp h with h | h
    · exact .inl (List.mem_flatMap.mp h)
    · exact .inr (List.mem_map.mp h)
  · simp [Contribution.statements] at h

/-- Of what the host provides, only the position is noted as an attribute. -/
theorem eq_positionName_of_note {output : String} {r : Reading}
    (h : (Backend.particles table).ReadsGlobal s output r)
    (hnote : Contribution.note note ∈ r.contributions) (hname : note.attribute? = some name) :
    name = positionName := by
  cases h with
  | time =>
    simp only [Site.readTime, List.mem_cons, reduceCtorEq, Contribution.note.injEq,
      List.not_mem_nil, or_false, false_or] at hnote
    rw [hnote] at hname
    cases hname
  | resolution hb => exact absurd rfl (hb table)
  | noted =>
    simp only [List.mem_cons, Contribution.note.injEq, List.not_mem_nil, or_false] at hnote
    rw [hnote] at hname
    cases hname
  | fragCoord _ | place _ => cases hnote
  | sampled hread =>
    rw [read_note hread hnote] at hname
    exact (Option.some.inj hname).symm

/-- **A leaf notes only attributes that it can touch.** -/
theorem attribute_of_note (h : (Backend.particles table).emitLeaf s s.node.kind = .ok cs)
    (hnote : Contribution.note note ∈ cs) (hname : note.attribute? = some name) :
    name ∈ s.attributes.keys := by
  cases Site.emits_of_emitLeaf h with
  | param _ =>
    simp only [Backend.emitParam, Contribution.statements, List.mem_cons, reduceCtorEq,
      Contribution.note.injEq, List.not_mem_nil, or_false, false_or] at hnote
    rw [hnote] at hname
    cases hname
  | globals hk hreadings =>
    rcases List.mem_append.mp hnote with hnote | hnote
    · obtain ⟨r, hr, hnote⟩ := List.mem_flatMap.mp hnote
      obtain ⟨output, _, hread⟩ := exists_mem_of_forall₂ hreadings.flip r hr
      obtain rfl := eq_positionName_of_note hread hnote hname
      simp [Site.attributes, hk, Table.keys]
    · cases List.mem_singleton.mp hnote
  | @«attribute» own _ _ hk h =>
    cases h with
    | exchanged _ hreadings hwrites =>
      obtain rfl : name = own := by
        rcases note_of_mem_exchange hnote with ⟨r, hr, hread⟩ | ⟨w, hw, hwrite⟩
        · cases hreadings with
          | unused _ => cases hr
          | used _ hget =>
            obtain rfl := List.mem_singleton.mp hr
            cases hget with
            | particles h =>
              rw [read_note h hread] at hname
              exact (Option.some.inj hname).symm
        · rw [Contribution.note.inj (hwrite.symm.trans (hwrites.note_eq w hw))] at hname
          exact (Option.some.inj hname).symm
      simp [Site.attributes, hk, Table.keys]
  | output hk h =>
    cases h with
    | written _ hwrites =>
      rcases note_of_mem_exchange hnote with ⟨_, hr, _⟩ | ⟨w, hw, hwrite⟩
      · cases hr
      · obtain ⟨own, hown, hnoted⟩ := hwrites.note_eq w hw
        rw [Contribution.note.inj (hwrite.symm.trans hnoted)] at hname
        obtain rfl := Option.some.inj hname
        obtain ⟨hlisted, hwritten⟩ := List.mem_filter.mp hown
        rw [Bool.and_eq_true] at hwritten
        have hfed : own ∈ outputAttributes.filter s.isFed :=
          List.mem_filter.mpr ⟨hlisted, hwritten.2⟩
        simpa [Site.attributes, hk, Table.keys] using hfed
  | subnet _ | subnetInput _ => cases hnote
  -- what only computes notes nothing
  | constant hk | math hk _ | varyingWrite hk _ | varyingRead hk | function hk _ _
  | subnetOutput hk _ => cases Backend.isComputation_of_emitLeaf (by rw [hk]; rfl) h _ hnote

/-! ## §3. What is asked for -/

variable {g : Graph} {context : Context} {output : NodeId} {requests : List AttributeRequest}
  {table' : Allocations}

/-- **What a node can touch was asked for**, but for the position, which always has a place. -/
theorem requested_of_meets (hids : g.ids.Nodup) (hg : g.Everywhere Graph.PassesOn)
    (houtput : g.outputNode .particles = .ok output)
    (hrequests : collectRequests g.depth g (Scope.root g.name).path (output :: g.exports) =
      .ok requests)
    (hs : (Backend.particles table).Meets g context s) {touched : String × PortType}
    (htouched : touched ∈ s.attributes) :
    (∃ r ∈ requests, r.name = touched.1 ∧ r.type = touched.2) ∨
      touched = (positionName, .vector3) := by
  obtain ⟨output', houtput', _, hmeets⟩ := hs
  obtain rfl := Except.ok.inj (houtput.symm.trans houtput')
  cases hk : s.node.kind with
  | «attribute» own type =>
    simp only [Site.attributes, hk, List.mem_singleton] at htouched
    subst htouched
    obtain ⟨v, hv, _, hnode⟩ : ∃ v, g.Gathers (Scope.root g.name).path (output :: g.exports) v ∧
        v.graph = s.graph ∧ v.node = s.node :=
      hmeets.gathered hg hids fun root hroot n hn =>
        ⟨_, .reached (Graph.reaches_of_root hroot hn), rfl, rfl⟩
    left
    exact request_of_gathers hv hids (Nat.le_refl _) hrequests (hnode ▸ hk)
  | globals =>
    simp only [Site.attributes, hk, List.mem_singleton] at htouched
    exact .inr htouched
  | output target =>
    -- it stands in the graph itself, where its fed inputs are taken down with it
    obtain ⟨hgraph, order, horder, hn⟩ := hmeets.of_output hk
    obtain ⟨root, hroot, m, hm, hneeds⟩ := Backend.needed_of_stageOrder hids horder hn
    have hstart : g.Reaches (Scope.root g.name).path .deep followAll (output :: g.exports)
        { graph := g, path := (Scope.root g.name).path, node := m } :=
      Graph.reaches_of_root hroot hm
    have hreached := hstart.feeds hg hneeds
    obtain ⟨own, hown, hsub⟩ := requestsOf_of_reaches hids hrequests hreached
    unfold requestsOf Visit.reached at hown
    simp only [hk] at hown
    cases hown
    simp only [Site.attributes, hk, List.mem_map] at htouched
    obtain ⟨name, hname, rfl⟩ := htouched
    unfold Site.isFed at hname
    rw [hgraph] at hname
    exact .inl ⟨_, hsub (List.mem_map_of_mem hname), rfl, rfl⟩
  | _ => simp [Site.attributes, hk] at htouched

/-! ## §4. What has a place -/

/-- A table that covers what the stages of a graph touch, for the requests that it was built
    from. -/
structure Covers (table : Allocations) (requests : List AttributeRequest) (g : Graph)
    (context : Context) : Prop where
  /-- No stage fails for want of a place. -/
  complete : ∀ ref name,
    (Backend.particles table).pass g context ≠ .error (.unallocatedAttribute ref name)
  /-- What a program reads and writes is touched where a stage comes to it. -/
  noted : ∀ p, (Backend.particles table).pass g context = .ok p → ∀ note ∈ p.notes, ∀ name,
    note.attribute? = some name →
      ∃ s, (Backend.particles table).Meets g context s ∧ name ∈ s.attributes.keys
  /-- What is touched was asked for in its width, or is the position. -/
  requested : ∀ s, (Backend.particles table).Meets g context s → ∀ touched ∈ s.attributes,
    (∃ r ∈ requests, r.name = touched.1 ∧ touched.2.components ≤ r.type.components) ∨
      touched.1 = positionName ∧ touched.2.components ≤ PortType.vector3.components
  /-- What is touched has a place with a channel for each component. -/
  wide : ∀ s, (Backend.particles table).Meets g context s → ∀ touched ∈ s.attributes,
    ∃ a, table.get? touched.1 = some a ∧
      (a.swizzle touched.2.components).length = touched.2.components

/-- **The table that is built for a graph covers it**, where identities are different and every
    subnet that is fed passes on what it is fed. -/
theorem covers_of_allocate (htable : Allocations.Reached table) (hids : g.ids.Nodup)
    (hg : g.Everywhere Graph.PassesOn) (h : allocate table g context = .ok table') :
    ∃ output requests, g.outputNode .particles = .ok output ∧
      collectRequests g.depth g (Scope.root g.name).path (output :: g.exports) = .ok requests ∧
      Covers table' requests g context := by
  obtain ⟨output, houtput, h⟩ := bind_eq_ok.mp h
  obtain ⟨requests, hrequests, h⟩ := bind_eq_ok.mp h
  obtain ⟨⟨changed, built⟩, hupdate, h⟩ := bind_eq_ok.mp h
  obtain rfl : built = table' := pure_eq_ok.mp h
  have hrequested := fun {s : Site} (hs : (Backend.particles built).Meets g context s)
      {touched : String × PortType} (htouched : touched ∈ s.attributes) =>
    requested_of_meets hids hg houtput hrequests hs htouched
  have hwide : ∀ s, (Backend.particles built).Meets g context s → ∀ touched ∈ s.attributes,
      ∃ a, built.get? touched.1 = some a ∧
        (a.swizzle touched.2.components).length = touched.2.components := by
    intro s hs touched htouched
    -- the position is stored whether a node asks for it or not
    have hasked : touched ∈ Allocations.asked requests := by
      rcases hrequested hs htouched with ⟨r, hr, hname, htype⟩ | rfl
      · refine List.mem_cons_of_mem _ (List.mem_map.mpr ⟨r, hr, ?_⟩)
        rw [hname, htype]
      · exact List.mem_cons_self
    obtain ⟨a, ha, hcomponents, hroom⟩ := Allocations.stored_of_asked htable hupdate hasked
    exact ⟨a, ha, AttributeAllocation.length_swizzle hcomponents hroom⟩
  refine ⟨output, requests, houtput, hrequests, ?_, ?_, ?_, hwide⟩
  · intro ref name herror
    obtain ⟨s, hs, _, hleaf⟩ := Backend.meets_of_pass_error (e := .unallocatedAttribute ref name)
      trivial herror
    obtain ⟨hname, hnone⟩ := attribute_of_error hleaf
    obtain ⟨touched, htouched, rfl⟩ := List.mem_map.mp hname
    obtain ⟨a, ha, _⟩ := hwide s hs touched htouched
    rw [ha] at hnone
    cases hnone
  · intro p hp note hnote name hname
    obtain ⟨s, cs, hs, hleaf, hmem⟩ := Backend.meets_of_pass_note hp hnote
    exact ⟨s, hs, attribute_of_note hleaf hmem hname⟩
  · intro s hs touched htouched
    rcases hrequested hs htouched with ⟨r, hr, hname, htype⟩ | rfl
    · exact .inl ⟨r, hr, hname, Nat.le_of_eq (by rw [htype])⟩
    · exact .inr ⟨rfl, Nat.le_refl _⟩

/-- A subnet that offers a vector and whose own vector comes from the given output inside. -/
def bend (source : NodeId) (output : String) : Subnet where
  inputs := [⟨"a", .vector3⟩]
  outputs := [⟨"b", .vector3⟩]
  block := .always
  network :=
    { Graph.empty "bend" with
      nodes :=
        [.make ⟨10⟩ "input" (.subnetInput [⟨"a", .vector3⟩]),
         .make ⟨11⟩ "output" (.subnetOutput [⟨"b", .vector3⟩]),
         .make ⟨12⟩ "up" (.constant (.vector3 .zero .zero .one))]
      connections := [⟨⟨20⟩, source, output, ⟨11⟩, "b"⟩]
      version := 4 }

/-- Particles that are moved by a subnet, which is fed by an attribute. -/
def drifting (s : Subnet) : Graph :=
  { Graph.empty "drifting" with
    nodes :=
      [.make ⟨1⟩ "wind" (.attribute "wind" .vector3),
       .make ⟨2⟩ "bend" (.subnet s),
       .make ⟨3⟩ "out" (.output .particles)]
    connections :=
      [⟨⟨4⟩, ⟨1⟩, "value", ⟨2⟩, "a"⟩, ⟨⟨5⟩, ⟨2⟩, "b", ⟨3⟩, "position"⟩]
    version := 5 }

/-- The subnet hands the attribute on. -/
def relayed : Graph := drifting (bend ⟨10⟩ "a")

/-- The subnet ignores it. -/
def ignored : Graph := drifting (bend ⟨12⟩ "value")

theorem kind_of_mem_drifting {t s : Subnet} {n : Node} (hn : n ∈ (drifting t).nodes)
    (hk : n.kind = .subnet s) : s = t := by
  simp only [drifting, List.mem_cons, List.not_mem_nil, or_false] at hn
  rcases hn with rfl | rfl | rfl <;> cases hk
  rfl

theorem not_subnet_of_mem_bend {source : NodeId} {output : String} {s : Subnet} {n : Node}
    (hn : n ∈ (bend source output).network.nodes) : n.kind ≠ .subnet s := by
  intro hk
  simp only [bend, List.mem_cons, List.not_mem_nil, or_false] at hn
  rcases hn with rfl | rfl | rfl <;> cases hk

/-- There are two networks. -/
theorem everywhere_drifting {P : Graph → Prop} {source : NodeId} {output : String}
    (hhere : P (drifting (bend source output))) (hinside : P (bend source output).network) :
    (drifting (bend source output)).Everywhere P := by
  refine .intro hhere ?_
  rintro inner ⟨n, hn, s, hk, rfl⟩
  obtain rfl := kind_of_mem_drifting hn hk
  refine .intro hinside ?_
  rintro inner ⟨n, hn, s, hk, rfl⟩
  exact absurd hk (not_subnet_of_mem_bend hn)

theorem relayed_passesOn : relayed.Everywhere Graph.PassesOn := by
  refine everywhere_drifting ?_ ?_
  · intro n hn s m hk _
    obtain rfl := kind_of_mem_drifting hn hk
    exact ⟨_, _, rfl, rfl, .single ⟨"b", by decide, _, rfl, rfl⟩⟩
  · intro n hn s m hk
    exact absurd hk (not_subnet_of_mem_bend hn)

/-- The attribute that the subnet hands on is asked for and has a place. -/
theorem relayed_covered :
    relayed.ids.Nodup ∧ relayed.Everywhere Graph.PassesOn ∧
      ∃ table requests, allocate {} relayed {} = .ok table ∧
        requests.map (fun r => (r.name, r.type)) = [("wind", .vector3), ("position", .vector3)] ∧
        Covers table requests relayed {} := by
  have hids : relayed.ids.Nodup := by decide
  have hsome : (allocate {} relayed {}).map (fun _ => ()) = .ok () := by decide +kernel
  obtain ⟨table, htable, _⟩ := map_eq_ok.mp hsome
  obtain ⟨output, requests, houtput, hrequests, hcovers⟩ :=
    covers_of_allocate .empty hids relayed_passesOn htable
  obtain rfl : (⟨3⟩ : NodeId) = output := Except.ok.inj houtput
  have hasked : (collectRequests relayed.depth relayed (Scope.root relayed.name).path
      (⟨3⟩ :: relayed.exports)).map (List.map fun r => (r.name, r.type)) =
        .ok [("wind", .vector3), ("position", .vector3)] := by decide +kernel
  rw [hrequests] at hasked
  exact ⟨hids, relayed_passesOn, table, requests, htable, Except.ok.inj hasked, hcovers⟩

theorem ignored_built : ignored.Built := by
  have hinner : (bend ⟨12⟩ "value").network.Built := by
    have h : Graph.assemble "bend" (bend ⟨12⟩ "value").network.nodes
        (bend ⟨12⟩ "value").network.connections = .ok (bend ⟨12⟩ "value").network := rfl
    exact .assemble (fun n hn s hk => absurd hk (not_subnet_of_mem_bend hn)) h
  have h : Graph.assemble "drifting" ignored.nodes ignored.connections = .ok ignored := rfl
  refine .assemble (fun n hn s hk => ?_) h
  obtain rfl := kind_of_mem_drifting hn hk
  exact hinner

theorem ignored_mirrored : ignored.Everywhere Graph.Mirrored := by
  refine everywhere_drifting ?_ fun n hn s hk => absurd hk (not_subnet_of_mem_bend hn)
  intro n hn s hk
  obtain rfl := kind_of_mem_drifting hn hk
  refine ⟨?_, ?_, nofun⟩
  all_goals
    intro n hn ports hk
    simp only [bend, List.mem_cons, List.not_mem_nil, or_false] at hn
    rcases hn with rfl | rfl | rfl <;> cases hk
    rfl

/-- The attribute that the subnet ignores is not asked for, and a stage misses it. -/
theorem ignored_not_covered :
    ignored.Built ∧ ignored.Everywhere Graph.Mirrored ∧ ignored.ids.Nodup ∧
      ∃ table ref, allocate {} ignored {} = .ok table ∧
        (Backend.particles table).pass ignored {} = .error (.unallocatedAttribute ref "wind") := by
  refine ⟨ignored_built, ignored_mirrored, by decide, ?_⟩
  have hsome : (allocate {} ignored {}).map (fun _ => ()) = .ok () := by decide +kernel
  obtain ⟨table, htable, _⟩ := map_eq_ok.mp hsome
  have hpass : ((allocate {} ignored {}).bind fun table =>
      ((Backend.particles table).pass ignored {}).map fun _ => ()) =
        .error (.unallocatedAttribute ⟨⟨1⟩, "/drifting/wind"⟩ "wind") := by decide +kernel
  rw [htable] at hpass
  exact ⟨table, _, htable, map_eq_error.mp hpass⟩

end Particles

end ShaderFlow
