/-
  ShaderFlow.Proofs.Endpoints — nodes and ports in one text.

  An endpoint is written as the name of a node, a dot and the name of a port, and is read by
  cutting it at its last dot.  The names of nodes have no dots, so the text says which node and
  port were meant; but cutting finds them only if the name of the port has no dot either.

  Main definitions:
    * `Plain`        — names of ports that endpoints are read back with;
    * `CutsInto`     — an endpoint and its two parts;
    * `Graph.Named`  — nodes that are told apart by identity and by name;
    * `Graph.wireOf` — a connection by the names of its nodes.

  Main statements:
    * `Document.splitEndpoint_eq_ok` — what cutting finds;
    * `Graph.Named.cutsInto_iff`     — when it finds what was written;
    * `Document.loadWire_eq_ok`      — the connection that a wire makes.
-/

import Mathlib.Data.List.TakeWhile
import ShaderFlow.Document.Basic
import ShaderFlow.Proofs.Retyping

namespace ShaderFlow

variable {g g' : Graph} {endpoint node port : String}

/-! ## §1. Cutting at a dot -/

/-- Whether the name of a port may stand behind a dot: it is not empty and has no dot itself. -/
def Plain (port : String) : Prop := port ≠ "" ∧ '.' ∉ port.toList

instance (port : String) : Decidable (Plain port) := inferInstanceAs (Decidable (_ ∧ _))

/-- Whether an endpoint, cut at its last dot, gives a node and a port, neither of them empty. -/
def CutsInto (endpoint node port : String) : Prop :=
  endpoint = node ++ "." ++ port ∧ node ≠ "" ∧ Plain port

section Dots

variable {front back : List Char}

/-- Characters other than dots. -/
theorem bne_dot (h : '.' ∉ front) : ∀ c ∈ front, (c != '.') = true := by
  intro c hc
  rw [bne_iff_ne]
  rintro rfl
  exact h hc

theorem takeWhile_dot (h : '.' ∉ front) :
    (front ++ '.' :: back).takeWhile (· != '.') = front := by
  rw [List.takeWhile_append_of_pos (bne_dot h)]
  simp

theorem dropWhile_dot (h : '.' ∉ front) :
    (front ++ '.' :: back).dropWhile (· != '.') = '.' :: back := by
  rw [List.dropWhile_append_of_pos (bne_dot h)]
  simp

end Dots

theorem toList_endpoint (node port : String) :
    (node ++ "." ++ port).toList = node.toList ++ '.' :: port.toList := by
  simp [String.toList_append]

/-- **What cutting an endpoint finds.** -/
theorem Document.splitEndpoint_eq_ok :
    splitEndpoint endpoint = .ok (node, port) ↔ CutsInto endpoint node port := by
  unfold splitEndpoint
  constructor
  · intro h
    -- the text is cut at its last dot, which is the first one from behind
    have hsplit := List.takeWhile_append_dropWhile (p := (· != '.')) (l := endpoint.toList.reverse)
    have hplain : '.' ∉ endpoint.toList.reverse.takeWhile (· != '.') := by
      intro hmem
      have hne := List.mem_takeWhile_imp hmem
      cases hne
    simp only at h
    split at h
    next _ back hdrop =>
      obtain ⟨hparts, h⟩ := guard_eq_ok.mp h
      rw [Bool.or_eq_false_iff, List.isEmpty_eq_false_iff, List.isEmpty_eq_false_iff] at hparts
      cases h
      refine ⟨?_, ?_, ?_, ?_⟩
      · rw [← String.toList_inj, toList_endpoint, String.toList_ofList, String.toList_ofList,
          ← List.reverse_inj, List.reverse_append, List.reverse_cons, List.reverse_reverse,
          List.reverse_reverse, List.append_assoc, List.singleton_append, ← hdrop, hsplit]
      · rw [Ne, ← String.toList_inj, String.toList_ofList]
        simpa using hparts.2
      · rw [Ne, ← String.toList_inj, String.toList_ofList]
        exact hparts.1
      · rw [String.toList_ofList, List.mem_reverse]
        exact hplain
    next => cases h
  · rintro ⟨rfl, hnode, hport, hplain⟩
    have hreverse : (node ++ "." ++ port).toList.reverse =
        port.toList.reverse ++ '.' :: node.toList.reverse := by
      rw [toList_endpoint]
      simp
    have hdot : '.' ∉ port.toList.reverse := by rwa [List.mem_reverse]
    simp only [hreverse, takeWhile_dot hdot, dropWhile_dot hdot]
    simp [hnode, hport]

/-- An endpoint is cut in one way. -/
theorem CutsInto.unique {node' port' : String} (h : CutsInto endpoint node port)
    (h' : CutsInto endpoint node' port') : node = node' ∧ port = port' := by
  have hcut := Document.splitEndpoint_eq_ok.mpr h
  rw [Document.splitEndpoint_eq_ok.mpr h'] at hcut
  cases hcut
  exact ⟨rfl, rfl⟩

/-- Before names without dots, an endpoint tells node and port, whatever the port is called. -/
theorem endpoint_inj {node' port' : String} (hnode : '.' ∉ node.toList) (hnode' : '.' ∉ node'.toList) :
    node ++ "." ++ port = node' ++ "." ++ port' ↔ node = node' ∧ port = port' := by
  refine ⟨fun h => ?_, fun ⟨hn, hp⟩ => by rw [hn, hp]⟩
  rw [← String.toList_inj, toList_endpoint, toList_endpoint] at h
  have hfront := congrArg (List.takeWhile (· != '.')) h
  have hback := congrArg (List.dropWhile (· != '.')) h
  rw [takeWhile_dot hnode, takeWhile_dot hnode'] at hfront
  rw [dropWhile_dot hnode, dropWhile_dot hnode'] at hback
  exact ⟨String.toList_inj.mp hfront, String.toList_inj.mp (List.cons.inj hback).2⟩

/-- Names that are fit for code have no dots. -/
theorem FitForCode.dot_not_mem {name : String} (h : FitForCode name) : '.' ∉ name.toList := by
  intro hdot
  have hchar := h.2 '.' hdot
  revert hchar
  decide

/-! ## §2. Names of nodes -/

/-- Nodes that are told apart by identity, and by names that are fit for code. -/
structure Graph.Named (g : Graph) : Prop where
  ids : (g.nodes.map (·.id)).Nodup
  names : (g.nodes.map (·.name)).Nodup
  fit : ∀ name ∈ g.nodes.map (·.name), FitForCode name

theorem Graph.WellFormed.named (h : g.WellFormed) : g.Named := ⟨h.ids, h.names, h.fit⟩

theorem Graph.Named.appendConnection (h : g.Named) (c : Connection) :
    (g.appendConnection c).Named := ⟨h.ids, h.names, h.fit⟩

/-- The name of a node, empty if there is no such node. -/
def Graph.nameOf (g : Graph) (id : NodeId) : String := ((g.node? id).map (·.name)).getD ""

/-- A connection by the names of its nodes. -/
def Graph.wireOf (g : Graph) (c : Connection) : Wire :=
  { source := g.nameOf c.source ++ "." ++ c.output, target := g.nameOf c.target ++ "." ++ c.input }

theorem Graph.nameOf_eq {id : NodeId} {n : Node} (h : g.node? id = some n) : g.nameOf id = n.name := by
  rw [nameOf, h, Option.map_some, Option.getD_some]

/-- A connection whose types agree is shown in a document. -/
theorem Graph.Agrees.wire?_eq {c : Connection} (h : g.Agrees c) : g.wire? c = some (g.wireOf c) := by
  obtain ⟨s, t, hs, ht, _⟩ := h
  rw [Graph.wire?, hs, ht, Graph.wireOf, Graph.nameOf_eq hs, Graph.nameOf_eq ht]
  rfl

namespace Graph.Named

variable {n m : Node} {id : NodeId}

theorem eq_of_name (h : g.Named) (hn : n ∈ g.nodes) (hm : m ∈ g.nodes) (heq : n.name = m.name) :
    n = m :=
  List.inj_on_of_nodup_map h.names hn hm heq

theorem nodeNamed?_eq (h : g.Named) (hn : n ∈ g.nodes) : g.nodeNamed? n.name = some n := by
  cases hfound : g.nodeNamed? n.name with
  | none =>
    have hnot := List.find?_eq_none.mp hfound n hn
    simp at hnot
  | some m =>
    have hname : m.name = n.name := by simpa using List.find?_some hfound
    rw [h.eq_of_name (List.mem_of_find?_eq_some hfound) hn hname]

theorem fit_of_mem (h : g.Named) (hn : n ∈ g.nodes) : FitForCode n.name :=
  h.fit n.name (List.mem_map_of_mem hn)

/-- A name has no dots; that of a node that is not there has no characters at all. -/
theorem dot_not_mem_nameOf (h : g.Named) (id : NodeId) : '.' ∉ (g.nameOf id).toList := by
  cases hid : g.node? id with
  | none => simp [Graph.nameOf, hid]
  | some n =>
    rw [Graph.nameOf_eq hid]
    exact (h.fit_of_mem (Graph.mem_of_node? hid)).dot_not_mem

/-- A node is there under an identity exactly if it has the name of that identity. -/
theorem nameOf_eq_iff (h : g.Named) (hn : n ∈ g.nodes) :
    g.nameOf id = n.name ↔ g.node? id = some n := by
  refine ⟨fun hname => ?_, Graph.nameOf_eq⟩
  cases hid : g.node? id with
  | none =>
    rw [Graph.nameOf, hid] at hname
    exact absurd hname.symm (h.fit_of_mem hn).1
  | some m =>
    rw [Graph.nameOf_eq hid] at hname
    rw [h.eq_of_name (Graph.mem_of_node? hid) hn hname]

/-- **When an endpoint is read as it was written**: it gives a node exactly if that node was meant
    and the name of its port is plain. -/
theorem cutsInto_iff (h : g.Named) (hn : n ∈ g.nodes) {port' : String} :
    CutsInto (g.nameOf id ++ "." ++ port) n.name port' ↔
      g.node? id = some n ∧ port = port' ∧ Plain port := by
  have hfit := h.fit_of_mem hn
  unfold CutsInto
  rw [endpoint_inj (h.dot_not_mem_nameOf id) hfit.dot_not_mem, h.nameOf_eq_iff hn]
  constructor
  · rintro ⟨⟨hid, rfl⟩, _, hplain⟩
    exact ⟨hid, rfl, hplain⟩
  · rintro ⟨hid, rfl, hplain⟩
    exact ⟨⟨hid, rfl⟩, hfit.1, hplain⟩

end Graph.Named

/-! ## §3. The connection that a wire makes -/

/-- **What a wire of a document makes**: the connection that it shows, provided the names of both
    ports are plain and the connection may be made. -/
theorem Document.loadWire_eq_ok (hg : g.Named) {id : ConnectionId} {w : Wire} :
    loadWire g id w = .ok g' ↔ ∃ c : Connection, c.id = id ∧ w = g.wireOf c ∧
      (Plain c.output ∧ Plain c.input) ∧
      g.checkConnection c.source c.output c.target c.input = .ok () ∧
      g' = g.appendConnection c := by
  unfold loadWire
  constructor
  · intro h
    -- the names of a network are distinct, so a name and an identity say the same
    obtain ⟨⟨source, output⟩, hsource, h⟩ := bind_eq_ok.mp h
    obtain ⟨⟨target, input⟩, htarget, h⟩ := bind_eq_ok.mp h
    obtain ⟨hsourceText, _, houtput⟩ := splitEndpoint_eq_ok.mp hsource
    obtain ⟨htargetText, _, hinput⟩ := splitEndpoint_eq_ok.mp htarget
    rw [mapError_eq_ok] at h
    unfold Graph.connectNames at h
    split at h
    next => cases h
    next => cases h
    next s t hs ht =>
      obtain ⟨_, hcheck, rfl⟩ := map_eq_ok.mp h
      have hsname : s.name = source := by simpa using List.find?_some hs
      have htname : t.name = target := by simpa using List.find?_some ht
      have hsid := Graph.nameOf_eq (Graph.node?_of_mem hg.ids (List.mem_of_find?_eq_some hs))
      have htid := Graph.nameOf_eq (Graph.node?_of_mem hg.ids (List.mem_of_find?_eq_some ht))
      refine ⟨_, rfl, ?_, ⟨houtput, hinput⟩, hcheck, rfl⟩
      rw [Graph.wireOf, hsid, htid, hsname, htname, ← hsourceText, ← htargetText]
  · rintro ⟨c, rfl, rfl, ⟨houtput, hinput⟩, hcheck, rfl⟩
    obtain ⟨⟨s, t, hs, ht, _⟩, _⟩ := Graph.checkConnection_eq_ok.mp hcheck
    have hsmem := Graph.mem_of_node? hs
    have htmem := Graph.mem_of_node? ht
    have hsource := splitEndpoint_eq_ok.mpr ((hg.cutsInto_iff hsmem).mpr ⟨hs, rfl, houtput⟩)
    have htarget := splitEndpoint_eq_ok.mpr ((hg.cutsInto_iff htmem).mpr ⟨ht, rfl, hinput⟩)
    refine bind_eq_ok.mpr ⟨_, hsource, bind_eq_ok.mpr ⟨_, htarget, ?_⟩⟩
    rw [mapError_eq_ok]
    simp only [Graph.connectNames, hg.nodeNamed?_eq hsmem, hg.nodeNamed?_eq htmem,
      Graph.id_of_node? hs, Graph.id_of_node? ht]
    exact map_eq_ok.mpr ⟨(), hcheck, rfl⟩

end ShaderFlow
