/-
  ShaderFlow.Proofs.Emission — what a compilation collects, network by network.

  A network that was emitted is a list of parts: its nodes in dependency order, each with what
  it contributed.  The part of a subnet holds the parts of its network, so what holds of each
  leaf and passes through the block around a network holds of every body.

  Main definitions:
    * `Part`, `Graph.Emits` — a network that was emitted;
    * `Backend.Builds`      — a pass, stage by stage.

  Main statements:
    * `Graph.emits_of_emitStage` — emission in parts;
    * `Graph.Emits.cases`        — a part is a leaf or a subnet around the parts inside;
    * `Site.entries_splice`      — the lines of a subnet;
    * `Backend.Builds.body`      — the body of a stage.
-/

import ShaderFlow.Compile.Pass
import ShaderFlow.Proofs.DependencyOrder
import ShaderFlow.Proofs.Leaves
import ShaderFlow.Proofs.Variables

namespace ShaderFlow

open Contribution

variable {b : Backend} {context : Context} {stage : Stage} {scope : Scope} {roots : List NodeId}
  {g : Graph}

/-! ## §1. What a program gets from contributions -/

namespace Contribution

/-- The lines that a contribution has for a stage. -/
def entriesFor (stage : Stage) : Contribution → List Entry
  | .write target entries _ => if target = stage then entries else []
  | _ => []

/-- The lines that contributions have for a stage. -/
def entries (stage : Stage) (cs : List Contribution) : List Entry :=
  cs.flatMap (entriesFor stage)

theorem map_entries (stage : Stage) (cs : List Contribution) :
    (entries stage cs).map (·.statement) = written stage cs := by
  rw [entries, written, List.map_flatMap]
  congr 1
  funext c
  cases c with
  | write target es repetition =>
    rw [entriesFor, statementsFor]
    split <;> rfl
  | define _ _ => rfl
  | note _ => rfl

end Contribution

namespace Progress

/-- The statements of a stage. -/
def statements (p : Progress) (stage : Stage) : List Statement :=
  (p.listing.body stage).map (·.entry.statement)

/-- The lines of a stage. -/
def lines (p : Progress) (stage : Stage) : List Entry := (p.listing.body stage).map (·.entry)

theorem map_lines (p : Progress) (stage : Stage) :
    (p.lines stage).map (·.statement) = p.statements stage := by
  rw [lines, List.map_map]
  rfl

/-- What is declared in a stage. -/
def keys (p : Progress) (stage : Stage) : List Key :=
  (p.listing.definitionsOf stage).map (·.declaration.key)

end Progress

/-- Lines some of which may be left out. -/
theorem statements_writeSome (repetition : Repetition) (owner : NodeId) :
    ∀ (entries : List Entry) (body : List Line),
      ∃ added, added.Sublist (entries.map (·.statement)) ∧
        (entries.foldl (Listing.writeOne repetition owner) body).map (·.entry.statement) =
          body.map (·.entry.statement) ++ added
  | [], body => ⟨[], .slnil, by simp⟩
  | e :: entries, body => by
    rw [List.foldl_cons, Listing.writeOne]
    split
    · obtain ⟨added, hsub, heq⟩ := statements_writeSome repetition owner entries body
      exact ⟨added, hsub.cons _, heq⟩
    · obtain ⟨added, hsub, heq⟩ :=
        statements_writeSome repetition owner entries (body ++ [⟨owner, e⟩])
      exact ⟨e.statement :: added, hsub.cons_cons _, by rw [heq]; simp⟩

/-- Declarations are there once they were asked for. -/
theorem keys_defineOne (owner : NodeId) :
    ∀ (declarations : List Declaration) (state : List Definition × List Conflict) (key : Key),
      key ∈ (declarations.foldl (Listing.defineOne owner) state).1.map (·.declaration.key) ↔
        key ∈ state.1.map (·.declaration.key) ∨ key ∈ declarations.map Declaration.key
  | [], state, key => by simp
  | d :: declarations, (kept, conflicts), key => by
    rw [List.foldl_cons, keys_defineOne owner declarations]
    have hone : key ∈ (Listing.defineOne owner (kept, conflicts) d).1.map (·.declaration.key) ↔
        key ∈ kept.map (·.declaration.key) ∨ key = d.key := by
      simp only [Listing.defineOne]
      split
      · simp
      next existing hfind =>
        have hmem := List.mem_of_find?_eq_some hfind
        have hkey : existing.declaration.key = d.key := by simpa using List.find?_some hfind
        have himp : key = d.key → key ∈ kept.map (·.declaration.key) := by
          rintro rfl
          exact List.mem_map.mpr ⟨existing, hmem, hkey⟩
        split <;> simpa using fun h => by simpa using himp h
    rw [hone, List.map_cons, List.mem_cons, or_assoc]

namespace Progress

variable {p : Progress} {owner : NodeId}

theorem keys_add (p : Progress) (owner : NodeId) (c : Contribution) (key : Key) :
    key ∈ (p.add owner c).keys stage ↔
      key ∈ p.keys stage ∨ key ∈ (c.declarationsFor stage).map Declaration.key := by
  cases c with
  | define target declarations =>
    simp only [keys, add, Listing.define, Option.getD_some, Listing.definitionsOf,
      declarationsFor]
    by_cases htarget : target = stage
    · subst htarget
      rw [Table.get?_put_self, if_pos rfl, Option.getD_some]
      exact keys_defineOne owner declarations _ key
    · rw [Table.get?_put_of_ne htarget, if_neg htarget]
      simp
  | write target entries repetition =>
    simp [keys, add, Listing.write, Listing.definitionsOf, declarationsFor]
  | note note => simp [keys, add, declarationsFor]

/-- The statements of a contribution are added at the end, though not all need be. -/
theorem statements_add (p : Progress) (owner : NodeId) (stage : Stage) (c : Contribution) :
    ∃ added, added.Sublist (c.statementsFor stage) ∧
      (p.add owner c).statements stage = p.statements stage ++ added := by
  cases c with
  | define target declarations =>
    exact ⟨[], .slnil, by simp [statements, add, Listing.define, Listing.body]⟩
  | write target entries repetition =>
    simp only [statements, add, Listing.write, Option.getD_some, Listing.body, statementsFor]
    by_cases htarget : target = stage
    · subst htarget
      rw [Table.get?_put_self, if_pos rfl, Option.getD_some]
      exact statements_writeSome repetition owner entries _
    · rw [Table.get?_put_of_ne htarget, if_neg htarget]
      exact ⟨[], .slnil, by simp⟩
  | note note => exact ⟨[], .slnil, by simp [statements, add]⟩

theorem keys_foldl_add (owner : NodeId) (key : Key) :
    ∀ (cs : List Contribution) (p : Progress),
      key ∈ (cs.foldl (add owner) p).keys stage ↔
        key ∈ p.keys stage ∨ key ∈ Contribution.keys stage cs
  | [], p => by simp
  | c :: cs, p => by
    rw [List.foldl_cons, keys_foldl_add owner key cs, keys_add, or_assoc]
    simp only [Contribution.keys, declarations, List.flatMap_cons, List.map_append, List.mem_append]

theorem statements_foldl_add (owner : NodeId) (stage : Stage) :
    ∀ (cs : List Contribution) (p : Progress),
      ∃ added, added.Sublist (written stage cs) ∧
        (cs.foldl (add owner) p).statements stage = p.statements stage ++ added
  | [], p => ⟨[], .slnil, by simp⟩
  | c :: cs, p => by
    obtain ⟨first, hfirst, heq⟩ := p.statements_add owner stage c
    obtain ⟨rest, hrest, heqRest⟩ := statements_foldl_add owner stage cs (p.add owner c)
    refine ⟨first ++ rest, hfirst.append hrest, ?_⟩
    rw [List.foldl_cons, heqRest, heq, List.append_assoc]

/-- The body of a stage changes only when something is written there. -/
theorem body_add (p : Progress) (owner : NodeId) (stage : Stage) (c : Contribution) :
    (p.add owner c).listing.body stage =
      match c with
      | .write target es repetition =>
        if target = stage then es.foldl (Listing.writeOne repetition owner) (p.listing.body stage)
        else p.listing.body stage
      | _ => p.listing.body stage := by
  cases c with
  | define _ _ => rfl
  | note _ => rfl
  | write target es repetition =>
    simp only [add, Listing.write, Listing.body, Option.getD_some]
    split
    next heq =>
      subst heq
      rw [Table.get?_put_self, Option.getD_some]
    next hne => rw [Table.get?_put_of_ne hne]

theorem map_writeAllowed (owner : NodeId) :
    ∀ (es : List Entry) (body : List Line),
      (es.foldl (Listing.writeOne .allowed owner) body).map (·.entry) =
        body.map (·.entry) ++ es
  | [], body => by simp
  | e :: es, body => by
    rw [List.foldl_cons, map_writeAllowed owner es]
    simp [Listing.writeOne, Listing.isRepeated]

theorem lines_add_of_kept (p : Progress) (owner : NodeId) {c : Contribution}
    (hkept : ∀ es repetition, c = .write stage es repetition → repetition = .allowed) :
    (p.add owner c).lines stage = p.lines stage ++ entriesFor stage c := by
  rw [lines, lines, body_add]
  cases c with
  | define _ _ => exact (List.append_nil _).symm
  | note _ => exact (List.append_nil _).symm
  | write target es repetition =>
    simp only [entriesFor]
    split
    next heq =>
      subst heq
      rw [hkept es repetition rfl]
      exact map_writeAllowed owner es _
    next => exact (List.append_nil _).symm

theorem lines_foldl_add_of_kept (owner : NodeId) :
    ∀ {cs : List Contribution} {p : Progress},
      (∀ es repetition, .write stage es repetition ∈ cs → repetition = .allowed) →
        (cs.foldl (add owner) p).lines stage = p.lines stage ++ entries stage cs
  | [], p, _ => (List.append_nil _).symm
  | c :: cs, p, hkept => by
    have hfirst : ∀ es repetition, c = .write stage es repetition → repetition = .allowed := by
      rintro es repetition rfl
      exact hkept es repetition List.mem_cons_self
    have hrest := lines_foldl_add_of_kept (p := p.add owner c) owner
      fun es repetition hmem => hkept es repetition (List.mem_cons_of_mem _ hmem)
    rw [lines_add_of_kept p owner hfirst, List.append_assoc] at hrest
    exact hrest

end Progress

/-! ## §2. Networks in parts -/

/-- A node that was emitted and what it contributed. -/
structure Part where
  node : Node
  contributions : List Contribution

namespace Part

/-- The statements of a part for a stage. -/
def statements (stage : Stage) (part : Part) : List Statement :=
  written stage part.contributions

end Part

/-- The statements of parts for a stage. -/
def bodyOf (stage : Stage) (parts : List Part) : List Statement :=
  parts.flatMap (Part.statements stage)

/-- What parts declare in a stage. -/
def keysOf (stage : Stage) (parts : List Part) : List Key :=
  parts.flatMap fun part => keys stage part.contributions

/-- Adds the contributions of parts. -/
def Progress.addParts (p : Progress) (parts : List Part) : Progress :=
  parts.foldl (fun p part => part.contributions.foldl (Progress.add part.node.id) p) p

/-- The nodes that a stage needs of a network, as parts. -/
structure Graph.Emits (b : Backend) (context : Context) (stage : Stage) (scope : Scope)
    (roots : List NodeId) (g : Graph) (parts : List Part) : Prop where
  order : b.stageOrder g scope.path stage roots = .ok (parts.map (·.node))
  supported : ∀ part ∈ parts, b.checkSupported scope part.node = .ok ()
  emitted : ∀ part ∈ parts,
    part.node.kind.emit b { graph := g, node := part.node, stage, scope, context } =
      .ok part.contributions

theorem Node.emitAmong_eq {n : Node} :
    ∀ {ns : List Node}, ns.find? (·.id == n.id) = some n →
      Node.emitAmong b context stage scope g n.id ns =
        n.kind.emit b { graph := g, node := n, stage, scope, context }
  | { id, name, kind, dirty, error } :: ns, h => by
    rw [Node.emitAmong]
    by_cases hid : id = n.id
    · rw [List.find?_cons_of_pos (by simpa using hid)] at h
      cases h
      simp
    · rw [List.find?_cons_of_neg (by simpa using hid)] at h
      rw [if_neg hid]
      exact Node.emitAmong_eq h

/-- The nodes that a stage needs, in an order that suits them. -/
theorem Backend.schedules_of_stageOrder {path : String} {order : List Node}
    (h : b.stageOrder g path stage roots = .ok order) :
    g.Schedules (b.follows stage) (roots.filter (b.concerns g stage)) order := by
  obtain ⟨t, ht, rfl⟩ := map_eq_ok.mp h
  exact Graph.schedules_of_traverse ht

/-- Adds a node to a program. -/
def Graph.emitNode (b : Backend) (context : Context) (stage : Stage) (scope : Scope) (g : Graph)
    (p : Progress) (n : Node) : Except CompileError Progress := do
  b.checkSupported scope n
  p.addAll scope.path n (← Node.emitAmong b context stage scope g n.id g.nodes)

theorem Graph.emitStage_eq (g : Graph) (p : Progress) :
    g.emitStage b context stage scope roots p = (do
      let order ← b.stageOrder g scope.path stage roots
      order.foldlM (g.emitNode b context stage scope) p) := by
  obtain ⟨name, nodes, connections, version, error⟩ := g
  rw [Graph.emitStage]
  rfl

theorem Progress.addAll_eq_ok {p p' : Progress} {path : String} {n : Node}
    {cs : List Contribution} (h : p.addAll path n cs = .ok p') :
    p' = cs.foldl (Progress.add n.id) p ∧ p'.listing.conflicts = [] := by
  unfold addAll at h
  simp only at h
  split at h
  next hnone =>
    cases h
    exact ⟨rfl, hnone⟩
  next => cases h

/-- Nodes that were emitted one after the other are parts. -/
theorem Graph.parts_of_foldlM :
    ∀ {order : List Node} {p p' : Progress}, (∀ n ∈ order, g.node? n.id = some n) →
      order.foldlM (g.emitNode b context stage scope) p = .ok p' →
        ∃ parts : List Part, parts.map (·.node) = order ∧ p' = p.addParts parts ∧
          (∀ part ∈ parts, b.checkSupported scope part.node = .ok () ∧
            part.node.kind.emit b { graph := g, node := part.node, stage, scope, context } =
              .ok part.contributions) ∧
          (p'.listing.conflicts = [] ∨ parts = [])
  | [], p, p', _, h => by
    rw [List.foldlM_nil, pure_eq_ok] at h
    exact ⟨[], rfl, h.symm, by simp, .inr rfl⟩
  | n :: order, p, p', hfound, h => by
    rw [List.foldlM_cons] at h
    obtain ⟨middle, hn, hrest⟩ := bind_eq_ok.mp h
    obtain ⟨_, hsupported, hn⟩ := bind_eq_ok.mp hn
    obtain ⟨cs, hcs, hadd⟩ := bind_eq_ok.mp hn
    rw [Node.emitAmong_eq (hfound n List.mem_cons_self)] at hcs
    obtain ⟨parts, hnodes, hp', hparts, hquiet⟩ :=
      parts_of_foldlM (fun m hm => hfound m (List.mem_cons_of_mem _ hm)) hrest
    obtain ⟨hmiddle, hnone⟩ := Progress.addAll_eq_ok hadd
    refine ⟨⟨n, cs⟩ :: parts, by rw [List.map_cons, hnodes], ?_, ?_, .inl ?_⟩
    · rw [hp', hmiddle]
      rfl
    · intro part hpart
      rcases List.mem_cons.mp hpart with rfl | hpart
      · exact ⟨hsupported, hcs⟩
      · exact hparts part hpart
    · -- every node is checked, so the last one leaves no conflict
      rcases hquiet with hquiet | rfl
      · exact hquiet
      · rw [hp']
        exact hnone

/-- **A network that was emitted is a list of parts**, which leave no conflict. -/
theorem Graph.emits_of_emitStage {p p' : Progress}
    (h : g.emitStage b context stage scope roots p = .ok p') :
    ∃ parts, g.Emits b context stage scope roots parts ∧ p' = p.addParts parts ∧
      (p'.listing.conflicts = [] ∨ parts = []) := by
  rw [Graph.emitStage_eq] at h
  obtain ⟨order, horder, h⟩ := bind_eq_ok.mp h
  obtain ⟨parts, hnodes, hp', hparts, hquiet⟩ :=
    Graph.parts_of_foldlM (Backend.schedules_of_stageOrder horder).found h
  exact ⟨parts, ⟨by rw [hnodes]; exact horder, fun part hpart => (hparts part hpart).1,
    fun part hpart => (hparts part hpart).2⟩, hp', hquiet⟩

theorem Graph.Emits.schedules {parts : List Part}
    (h : g.Emits b context stage scope roots parts) :
    g.Schedules (b.follows stage) (roots.filter (b.concerns g stage)) (parts.map (·.node)) :=
  Backend.schedules_of_stageOrder h.order

/-! ## §3. Parts of a program -/

namespace Progress

/-- What parts declare is declared in the program. -/
theorem keys_addParts (key : Key) :
    ∀ (parts : List Part) (p : Progress),
      key ∈ (p.addParts parts).keys stage ↔ key ∈ p.keys stage ∨ key ∈ keysOf stage parts
  | [], p => by simp [addParts, keysOf]
  | part :: parts, p => by
    have ih := keys_addParts key parts (part.contributions.foldl (add part.node.id) p)
    rw [keys_foldl_add, or_assoc] at ih
    simpa [addParts, keysOf] using ih

/-- The statements of parts are in the program, in order, though not all need be. -/
theorem statements_addParts (stage : Stage) :
    ∀ (parts : List Part) (p : Progress),
      ∃ added, added.Sublist (bodyOf stage parts) ∧
        (p.addParts parts).statements stage = p.statements stage ++ added
  | [], p => ⟨[], .slnil, by simp [addParts]⟩
  | part :: parts, p => by
    obtain ⟨first, hfirst, heq⟩ := statements_foldl_add part.node.id stage part.contributions p
    obtain ⟨rest, hrest, heqRest⟩ :=
      statements_addParts stage parts (part.contributions.foldl (add part.node.id) p)
    refine ⟨first ++ rest, hfirst.append hrest, ?_⟩
    rw [heq, List.append_assoc] at heqRest
    exact heqRest

/-- In the stage that is built, all lines of parts are in the program, in order. -/
theorem lines_addParts_of_kept :
    ∀ {parts : List Part} {p : Progress},
      (∀ part ∈ parts, ∀ es repetition,
        .write stage es repetition ∈ part.contributions → repetition = .allowed) →
        (p.addParts parts).lines stage = p.lines stage ++
          parts.flatMap fun part => entries stage part.contributions
  | [], p, _ => (List.append_nil _).symm
  | part :: parts, p, hkept => by
    have hfirst := lines_foldl_add_of_kept (p := p) part.node.id (hkept part List.mem_cons_self)
    have hrest := lines_addParts_of_kept (p := part.contributions.foldl (add part.node.id) p)
      fun q hq => hkept q (List.mem_cons_of_mem _ hq)
    rw [hfirst, List.append_assoc] at hrest
    exact hrest

/-- So are their statements. -/
theorem statements_addParts_of_kept {parts : List Part} {p : Progress}
    (hkept : ∀ part ∈ parts, ∀ entries repetition,
      .write stage entries repetition ∈ part.contributions → repetition = .allowed) :
    (p.addParts parts).statements stage = p.statements stage ++ bodyOf stage parts := by
  rw [← map_lines, lines_addParts_of_kept hkept, List.map_append, map_lines, List.map_flatMap]
  congr 2
  funext part
  exact map_entries stage part.contributions

end Progress

/-! ## §4. Subnets -/

namespace Site

variable {s : Site} {subnet : Subnet} {bindings front : List Statement} {nested : Progress}

theorem written_map_note (notes : List Note) :
    written stage (notes.map Contribution.note) = [] := by
  refine written_of_notes fun c hc => ?_
  obtain ⟨note, _, rfl⟩ := List.mem_map.mp hc
  exact ⟨note, rfl⟩

/-- **The lines of a subnet** are those of its code, one unit deeper, between what opens it and the
    end of its block. -/
theorem entries_splice (s : Site) (front : List Statement) (nested : Progress) :
    entries s.stage (s.splice front nested) =
      front.map (fun statement => ({ statement } : Entry)) ++
        (nested.lines s.stage).map (Entry.indent s.context.config.formatting.indent) ++
        [{ statement := .closeBlock }] := by
  have hnotes : ∀ c ∈ nested.notes.map Contribution.note, entriesFor s.stage c = [] := by
    intro c hc
    obtain ⟨_, -, rfl⟩ := List.mem_map.mp hc
    rfl
  have hforward : ∀ c ∈ nested.listing.stages.flatMap (s.forward nested.listing),
      entriesFor s.stage c = [] := by
    intro c hc
    obtain ⟨target, -, hc⟩ := List.mem_flatMap.mp hc
    unfold forward at hc
    split at hc
    next =>
      rw [List.mem_singleton.mp hc]
      rfl
    next hne =>
      rcases List.mem_cons.mp hc with rfl | hc
      · rfl
      · rw [List.mem_singleton.mp hc, entriesFor, if_neg hne]
  -- only the last part of a splice writes for the stage of its own site
  rw [entries, splice, List.flatMap_append, List.flatMap_append,
    List.flatMap_eq_nil_iff.mpr hnotes, List.flatMap_eq_nil_iff.mpr hforward]
  simp [entriesFor, Progress.lines]

/-- **The code of a subnet** stands between what opens it and the end of its block. -/
theorem written_splice :
    written s.stage (s.splice front nested) =
      front ++ nested.statements s.stage ++ [.closeBlock] := by
  rw [← map_entries, entries_splice, ← Progress.map_lines]
  simp [Entry.indent, Function.comp_def]

/-- Other stages get from a subnet what they get from its code. -/
theorem mem_of_mem_written_splice {target : Stage} (hne : target ≠ s.stage) {st : Statement}
    (h : st ∈ written target (s.splice front nested)) : st ∈ nested.statements target := by
  rw [splice, written_append, written_append, written_map_note, List.nil_append, written_write,
    if_neg hne.symm, written_nil, List.append_nil, List.append_nil, written,
    List.flatMap_assoc] at h
  obtain ⟨source, _, hst⟩ := List.mem_flatMap.mp h
  unfold forward at hst
  split at hst
  · simp [statementsFor] at hst
  · simp only [List.flatMap_cons, List.flatMap_nil, statementsFor, List.nil_append,
      List.append_nil] at hst
    split at hst
    next heq =>
      subst heq
      simpa [Progress.statements] using hst
    next => simp at hst

/-- **What a subnet declares** in a stage is what its code declares there. -/
theorem mem_declarations_splice {target : Stage} {d : Declaration} :
    d ∈ declarations target (s.splice front nested) ↔
      ∃ kept ∈ nested.listing.definitionsOf target, kept.declaration = d := by
  have hforward : ∀ source, declarations target (s.forward nested.listing source) =
      if source = target then (nested.listing.definitionsOf source).map (·.declaration)
        else [] := by
    intro source
    unfold forward
    split <;> simp [declarations, declarationsFor]
  have hnotes : declarations target (nested.notes.map Contribution.note) = [] := by
    rw [declarations, List.flatMap_eq_nil_iff]
    intro c hc
    obtain ⟨note, _, rfl⟩ := List.mem_map.mp hc
    rfl
  rw [declarations] at hnotes
  rw [declarations, splice, List.flatMap_append, List.flatMap_append, hnotes, List.nil_append,
    List.flatMap_singleton, List.mem_append, List.flatMap_assoc, List.mem_flatMap]
  constructor
  · rintro (⟨source, _, hd⟩ | hd)
    · rw [← declarations, hforward] at hd
      split at hd
      next heq =>
        subst heq
        exact List.mem_map.mp hd
      next => cases hd
    · cases hd
  · rintro ⟨kept, hkept, rfl⟩
    -- a stage with definitions is one that was touched
    have hstage : target ∈ nested.listing.stages := by
      by_contra hnot
      have hkeys : target ∉ nested.listing.definitions.keys := fun hmem =>
        hnot (List.mem_append_left _ hmem)
      rw [Listing.definitionsOf, Table.get?_eq_none.mpr hkeys] at hkept
      simp at hkept
    refine .inl ⟨target, hstage, ?_⟩
    show _ ∈ declarations target (s.forward nested.listing target)
    rw [hforward, if_pos rfl]
    exact List.mem_map_of_mem hkept

/-- What the code of a subnet declares is declared outside, too. -/
theorem keys_splice_of_mem {target : Stage} {key : Key} (h : key ∈ nested.keys target) :
    key ∈ keys target (s.splice front nested) := by
  obtain ⟨kept, hkept, rfl⟩ := List.mem_map.mp h
  exact List.mem_map_of_mem (mem_declarations_splice.mpr ⟨kept, hkept, rfl⟩)

theorem kept_splice (entries : List Entry) (repetition : Repetition)
    (h : .write s.stage entries repetition ∈ s.splice front nested) :
    repetition = .allowed := by
  rw [splice] at h
  rcases List.mem_append.mp h with h | h
  · rcases List.mem_append.mp h with h | h
    · obtain ⟨note, _, heq⟩ := List.mem_map.mp h
      cases heq
    · obtain ⟨target, _, hmem⟩ := List.mem_flatMap.mp h
      unfold forward at hmem
      split at hmem
      · simp at hmem
      next hne =>
        simp only [List.mem_cons, reduceCtorEq, write.injEq, List.not_mem_nil, or_false,
          false_or] at hmem
        exact absurd hmem.1.symm hne
  · simp only [List.mem_singleton, write.injEq] at h
    exact h.2.2

/-- What stands in front of the code of a subnet. -/
def opening (s : Site) (subnet : Subnet) (bindings : List Statement) : List Statement :=
  bindings ++ subnet.outputs.map s.declareOutput ++ [s.opener subnet.block]

/-- A binding declares an input of the network with what feeds the subnet. -/
theorem exists_of_mem_bindings (h : subnet.inputs.mapM s.bindInput = .ok bindings)
    {st : Statement} (hst : st ∈ bindings) :
    ∃ spec ∈ subnet.inputs, ∃ o, s.input spec.name = .ok o ∧
      st = .declare spec.type (s.inner.inputVar spec.name) (.operand o) := by
  obtain ⟨spec, hspec, hbind⟩ := exists_of_mem_mapM h hst
  obtain ⟨o, ho, rfl⟩ := map_eq_ok.mp hbind
  exact ⟨spec, hspec, o, ho, rfl⟩

/-- What stands in front of the code of a subnet names nothing outside the body. -/
theorem globals_opening (h : subnet.inputs.mapM s.bindInput = .ok bindings) {st : Statement}
    (hst : st ∈ s.opening subnet bindings) : st.globals = [] := by
  rcases List.mem_append.mp hst with hst | hst
  · rcases List.mem_append.mp hst with hst | hst
    · obtain ⟨spec, _, o, ho, rfl⟩ := exists_of_mem_bindings h hst
      simp [Statement.globals, Expr.globals, Expr.operands, (s.input_spec ho).2.1]
    · obtain ⟨spec, _, rfl⟩ := List.mem_map.mp hst
      rfl
  · rw [List.mem_singleton] at hst
    subst hst
    cases subnet.block <;> rfl

end Site

/-- The part of a subnet is made of the parts of its network, which leave no conflict. -/
theorem Graph.Emits.subnet {parts : List Part} {part : Part}
    (h : g.Emits b context stage scope roots parts) (hpart : part ∈ parts) {subnet : Subnet}
    (hk : part.node.kind = .subnet subnet) :
    let s : Site := { graph := g, node := part.node, stage, scope, context }
    ∃ output bindings inner, subnet.outputNode? = some output ∧
      subnet.inputs.mapM s.bindInput = .ok bindings ∧
      subnet.network.Emits b context stage (scope.enter part.node.name)
        (output.id :: b.sideRoots subnet.network) inner ∧
      part.contributions =
        s.splice (s.opening subnet bindings) ((Progress.start stage).addParts inner) ∧
      ((Progress.start stage).addParts inner).listing.conflicts = [] := by
  intro s
  have hemit := h.emitted part hpart
  obtain ⟨inputs, outputs, block, network⟩ := subnet
  rw [hk, Kind.emit] at hemit
  obtain ⟨⟨opening, id⟩, hopen, hemit⟩ := bind_eq_ok.mp hemit
  obtain ⟨nested, hnested, hcs⟩ := bind_eq_ok.mp hemit
  rw [pure_eq_ok] at hcs
  unfold Site.openSubnet at hopen
  split at hopen
  next => cases hopen
  next output houtput =>
    obtain ⟨bindings, hbindings, hopen⟩ := bind_eq_ok.mp hopen
    rw [pure_eq_ok, Prod.mk.injEq] at hopen
    obtain ⟨rfl, rfl⟩ := hopen
    -- the network is a stage of its own, which starts from nothing
    obtain ⟨inner, hinner, rfl, hquiet⟩ := Graph.emits_of_emitStage hnested
    refine ⟨output, bindings, inner, houtput, hbindings, hinner, hcs.symm, ?_⟩
    rcases hquiet with hquiet | rfl
    · exact hquiet
    · rfl

/-- **A part is a leaf, or a subnet around parts.** -/
theorem Graph.Emits.cases {parts : List Part} {part : Part}
    (h : g.Emits b context stage scope roots parts) (hpart : part ∈ parts) :
    let s : Site := { graph := g, node := part.node, stage, scope, context }
    ((∀ subnet, part.node.kind ≠ .subnet subnet) ∧
        b.emitLeaf s part.node.kind = .ok part.contributions) ∨
      ∃ subnet output bindings inner, part.node.kind = .subnet subnet ∧
        subnet.outputNode? = some output ∧ subnet.inputs.mapM s.bindInput = .ok bindings ∧
        subnet.network.Emits b context stage (scope.enter part.node.name)
          (output.id :: b.sideRoots subnet.network) inner ∧
        part.contributions =
          s.splice (s.opening subnet bindings) ((Progress.start stage).addParts inner) := by
  intro s
  cases hk : part.node.kind with
  | subnet subnet =>
    obtain ⟨output, bindings, inner, houtput, hbindings, hinner, hcs, -⟩ := h.subnet hpart hk
    exact .inr ⟨subnet, output, bindings, inner, rfl, houtput, hbindings, hinner, hcs⟩
  | _ =>
    left
    refine ⟨by simp, ?_⟩
    have hemit := h.emitted part hpart
    rw [hk, Kind.emit] at hemit
    · exact hemit
    · simp

/-! ## §5. Every part brings what it names -/

theorem Part.mem_bodyOf {parts : List Part} {st : Statement} :
    st ∈ bodyOf stage parts ↔ ∃ part ∈ parts, st ∈ written stage part.contributions :=
  List.mem_flatMap

theorem Part.mem_keysOf {parts : List Part} {key : Key} :
    key ∈ keysOf stage parts ↔ ∃ part ∈ parts, key ∈ keys stage part.contributions :=
  List.mem_flatMap

theorem Progress.statements_start (parts : List Part)
    (hkept : ∀ part ∈ parts, ∀ entries repetition,
      .write stage entries repetition ∈ part.contributions → repetition = .allowed) :
    ((Progress.start stage).addParts parts).statements stage = bodyOf stage parts := by
  rw [Progress.statements_addParts_of_kept hkept]
  rfl

/-- The block around a network brings what the network names. -/
theorem SelfContained.splice {s : Site} {config : Config} {front : List Statement}
    {inner : List Part}
    (hinner : ∀ part ∈ inner, SelfContained b config s.stage part.contributions)
    (hfront : ∀ st ∈ front, st.globals = []) :
    SelfContained b config s.stage
      (s.splice front ((Progress.start s.stage).addParts inner)) := by
  have hown := Progress.statements_start inner fun part hpart => (hinner part hpart).kept
  have hother : ∀ target, ∀ st ∈ ((Progress.start s.stage).addParts inner).statements target,
      st ∈ bodyOf target inner := by
    intro target st hst
    obtain ⟨added, hsub, heq⟩ := Progress.statements_addParts target inner (.start s.stage)
    rw [heq] at hst
    exact hsub.subset hst
  have hkeys : ∀ target, ∀ key ∈ keysOf target inner,
      key ∈ keys target (s.splice front ((Progress.start s.stage).addParts inner)) :=
    fun target key hkey =>
      Site.keys_splice_of_mem ((Progress.keys_addParts key inner (.start s.stage)).mpr (.inr hkey))
  have hbody : ∀ target, ∀ st ∈ bodyOf target inner, ∀ key ∈ st.globals,
      key ∈ keys target (s.splice front ((Progress.start s.stage).addParts inner)) ∨
        b.Provides config target key := by
    intro target st hst key hkey
    obtain ⟨part, hpart, hst⟩ := Part.mem_bodyOf.mp hst
    refine ((hinner part hpart).covered target st hst key hkey).imp_left fun hmem => ?_
    exact hkeys target key (Part.mem_keysOf.mpr ⟨part, hpart, hmem⟩)
  refine ⟨Site.kept_splice, ?_, ?_⟩
  -- what other stages have comes from the network as it is
  · intro target hne st hst
    obtain ⟨part, hpart, hst⟩ :=
      Part.mem_bodyOf.mp (hother target st (Site.mem_of_mem_written_splice hne hst))
    exact (hinner part hpart).relays target hne st hst
  -- in its own stage there is also what stands around the network, which names nothing
  · intro target st hst key hkey
    by_cases hne : target = s.stage
    · subst hne
      rw [Site.written_splice, hown] at hst
      rcases List.mem_append.mp hst with hst | hst
      · rcases List.mem_append.mp hst with hst | hst
        · rw [hfront st hst] at hkey
          cases hkey
        · exact hbody s.stage st hst key hkey
      · rw [List.mem_singleton] at hst
        subst hst
        cases hkey
    · exact hbody target st (hother target st (Site.mem_of_mem_written_splice hne hst)) key hkey

theorem Graph.Emits.node_mem {parts : List Part} {part : Part}
    (h : g.Emits b context stage scope roots parts) (hpart : part ∈ parts) :
    part.node ∈ g.nodes :=
  Graph.mem_of_node? (h.schedules.found part.node (List.mem_map_of_mem hpart))

/-- A part that is a leaf. -/
theorem Graph.Emits.leaf {parts : List Part} {part : Part}
    (h : g.Emits b context stage scope roots parts) (hpart : part ∈ parts)
    (hsubnet : ∀ subnet, part.node.kind ≠ .subnet subnet) :
    Site.Leaf b { graph := g, node := part.node, stage, scope, context } part.contributions := by
  rcases h.cases hpart with ⟨_, hemit⟩ | ⟨subnet, _, _, _, hk, _⟩
  · exact leaf_of_emitLeaf hsubnet (h.schedules.found part.node (List.mem_map_of_mem hpart)) hemit
  · exact absurd hk (hsubnet subnet)

/-- **Every part brings what it names**, however deep the nodes that name it. -/
theorem Graph.Emits.selfContained :
    ∀ {g : Graph} {scope : Scope} {roots : List NodeId} {parts : List Part},
      g.Emits b context stage scope roots parts →
        ∀ part ∈ parts, SelfContained b context.config stage part.contributions := by
  intro g
  induction g using Graph.network_induction with
  | step g ih =>
    intro scope roots parts h part hpart
    rcases h.cases hpart with ⟨hsubnet, _⟩ |
      ⟨subnet, output, bindings, inner, hk, _, hbindings, hinner, hcs⟩
    · exact (h.leaf hpart hsubnet).1
    · have hnests : subnet.network.Nests g := ⟨part.node, h.node_mem hpart, subnet, hk, rfl⟩
      let s : Site := { graph := g, node := part.node, stage, scope, context }
      rw [hcs]
      exact SelfContained.splice (s := s) (ih _ hnests hinner)
        fun st hst => Site.globals_opening hbindings hst

/-- The statements of a subnet in its own stage. -/
theorem Graph.Emits.written_subnet {parts : List Part} {part : Part}
    (h : g.Emits b context stage scope roots parts) (hpart : part ∈ parts) {subnet : Subnet}
    (hk : part.node.kind = .subnet subnet) :
    let s : Site := { graph := g, node := part.node, stage, scope, context }
    ∃ output bindings inner, subnet.outputNode? = some output ∧
      subnet.inputs.mapM s.bindInput = .ok bindings ∧
      subnet.network.Emits b context stage (scope.enter part.node.name)
        (output.id :: b.sideRoots subnet.network) inner ∧
      part.statements stage = s.opening subnet bindings ++ bodyOf stage inner ++ [.closeBlock] := by
  intro s
  rcases h.cases hpart with ⟨hsubnet, _⟩ |
    ⟨subnet', output, bindings, inner, hk', houtput, hbindings, hinner, hcs⟩
  · exact absurd hk (hsubnet subnet)
  · rw [hk] at hk'
    cases hk'
    refine ⟨output, bindings, inner, houtput, hbindings, hinner, ?_⟩
    have hown := Progress.statements_start inner
      fun part hpart => (hinner.selfContained part hpart).kept
    show written s.stage part.contributions = _
    rw [hcs, Site.written_splice, hown]

/-! ## §6. Passes -/

/-- A pass that went well: what each stage was built from. -/
structure Backend.Builds (b : Backend) (g : Graph) (context : Context) (output : NodeId)
    (builds : List (Stage × List Part)) (p : Progress) : Prop where
  found : g.outputNode b.target = .ok output
  named : g.checkVariables (Scope.root g.name) = .ok ()
  stages : builds.map (·.1) = b.stages
  emits : ∀ build ∈ builds, g.Emits b context build.1 (Scope.root g.name)
    (output :: b.sideRoots g) build.2
  result : p = builds.foldl (fun p build => p.addParts build.2) (b.begin context.config output)
  quiet : (∃ build ∈ builds, build.2 ≠ []) → p.listing.conflicts = []

/-- Stages that were built one after the other. -/
theorem Graph.builds_of_foldlM :
    ∀ {stages : List Stage} {p p' : Progress},
      stages.foldlM (fun p stage => g.emitStage b context stage scope roots p) p = .ok p' →
        ∃ builds : List (Stage × List Part), builds.map (·.1) = stages ∧
          (∀ build ∈ builds, g.Emits b context build.1 scope roots build.2) ∧
          p' = builds.foldl (fun p build => p.addParts build.2) p ∧
          (p.listing.conflicts = [] ∨ (∃ build ∈ builds, build.2 ≠ []) →
            p'.listing.conflicts = [])
  | [], p, p', h => by
    rw [List.foldlM_nil, pure_eq_ok] at h
    exact ⟨[], rfl, by simp, h.symm, by simp [h]⟩
  | stage :: stages, p, p', h => by
    rw [List.foldlM_cons] at h
    obtain ⟨middle, hstage, hrest⟩ := bind_eq_ok.mp h
    -- a stage without parts checks nothing, so the conflicts of a pass show in one that has some
    obtain ⟨parts, hparts, rfl, hmiddle⟩ := Graph.emits_of_emitStage hstage
    obtain ⟨builds, hstages, hbuilds, hp', hquiet⟩ := builds_of_foldlM hrest
    refine ⟨(stage, parts) :: builds, by rw [List.map_cons, hstages], ?_, hp', fun h => hquiet ?_⟩
    · intro build hbuild
      rcases List.mem_cons.mp hbuild with rfl | hbuild
      · exact hparts
      · exact hbuilds build hbuild
    · rcases hmiddle with hmiddle | rfl
      · exact .inl hmiddle
      · rcases h with h | ⟨build, hbuild, hne⟩
        · exact .inl h
        · rcases List.mem_cons.mp hbuild with rfl | hbuild
          · exact absurd rfl hne
          · exact .inr ⟨build, hbuild, hne⟩

theorem Backend.builds_of_pass {p : Progress} (h : b.pass g context = .ok p) :
    ∃ output builds, b.Builds g context output builds p := by
  obtain ⟨output, houtput, h⟩ := bind_eq_ok.mp h
  obtain ⟨_, _, h⟩ := bind_eq_ok.mp h
  obtain ⟨_, hnamed, h⟩ := bind_eq_ok.mp h
  obtain ⟨_, _, h⟩ := bind_eq_ok.mp h
  obtain ⟨builds, hstages, hbuilds, hp, hquiet⟩ := Graph.builds_of_foldlM h
  exact ⟨output, builds, houtput, hnamed, hstages, hbuilds, hp, fun hsome => hquiet (.inr hsome)⟩

theorem Backend.stages_nodup (b : Backend) : b.stages.Nodup := by
  cases b with
  | material => decide
  | particles table =>
    refine List.Nodup.map ?_ List.nodup_range
    intro i j h
    cases h
    rfl
  | points => decide

/-- What every stage declares, as contributions. -/
theorem Backend.begin_eq (b : Backend) (config : Config) (output : NodeId) :
    b.begin config output =
      (b.stages.map fun stage => Contribution.define stage (b.declarations config stage)).foldl
        (Progress.add output) { listing := { current := b.stages.head?.getD .point } } := by
  have hfold : ∀ (stages : List Stage) (l : Listing),
      Progress.mk (stages.foldl (fun l stage =>
        l.define output (b.declarations config stage) (some stage)) l) [] =
      (stages.map fun stage => Contribution.define stage (b.declarations config stage)).foldl
        (Progress.add output) { listing := l } := by
    intro stages
    induction stages with
    | nil => intro l; rfl
    | cons stage stages ih =>
      intro l
      exact ih _
  exact hfold b.stages _

theorem Backend.statements_begin (config : Config) (output : NodeId) :
    (b.begin config output).statements stage = [] := by
  have hnone : written stage
      (b.stages.map fun stage => Contribution.define stage (b.declarations config stage)) = [] := by
    rw [written, List.flatMap_map, List.flatMap_eq_nil_iff]
    intro _ _
    rfl
  rw [Backend.begin_eq]
  obtain ⟨added, hsub, heq⟩ := Progress.statements_foldl_add output stage
    (b.stages.map fun stage => Contribution.define stage (b.declarations config stage))
    { listing := { current := b.stages.head?.getD .point } }
  rw [hnone, List.sublist_nil] at hsub
  rw [heq, hsub]
  rfl

namespace Backend.Builds

variable {output : NodeId} {builds : List (Stage × List Part)} {p : Progress}

theorem keys_of_base (h : b.Builds g context output builds p) (hstage : stage ∈ b.stages)
    {key : Key} (hkey : key ∈ b.baseKeys context.config stage) : key ∈ p.keys stage := by
  have hbegin : key ∈ (b.begin context.config output).keys stage := by
    rw [Backend.begin_eq, Progress.keys_foldl_add]
    right
    obtain ⟨d, hd, rfl⟩ := List.mem_map.mp hkey
    refine List.mem_map.mpr ⟨d, List.mem_flatMap.mpr ⟨_, List.mem_map_of_mem hstage, ?_⟩, rfl⟩
    rw [declarationsFor, if_pos rfl]
    exact hd
  have hfold : ∀ (builds : List (Stage × List Part)) (p : Progress), key ∈ p.keys stage →
      key ∈ (builds.foldl (fun p build => p.addParts build.2) p).keys stage := by
    intro builds
    induction builds with
    | nil => intro p hp; exact hp
    | cons build builds ih =>
      intro p hp
      exact ih _ ((Progress.keys_addParts key build.2 p).mpr (.inl hp))
  rw [h.result]
  exact hfold builds _ hbegin

theorem keys_of_build (h : b.Builds g context output builds p) {build : Stage × List Part}
    (hbuild : build ∈ builds) {key : Key} (hkey : key ∈ keysOf stage build.2) :
    key ∈ p.keys stage := by
  have hfold : ∀ (builds : List (Stage × List Part)) (p : Progress),
      key ∈ p.keys stage ∨ build ∈ builds →
        key ∈ (builds.foldl (fun p build => p.addParts build.2) p).keys stage := by
    intro builds
    induction builds with
    | nil => intro p hp; simpa using hp
    | cons first builds ih =>
      intro p hp
      refine ih _ ?_
      rcases hp with hp | hp
      · exact .inl ((Progress.keys_addParts key first.2 p).mpr (.inl hp))
      · rcases List.mem_cons.mp hp with rfl | hp
        · exact .inl ((Progress.keys_addParts key build.2 p).mpr (.inr hkey))
        · exact .inr hp
  rw [h.result]
  exact hfold builds _ (.inr hbuild)

/-- What a stage gets while other stages are built. -/
theorem statements_others :
    ∀ (builds : List (Stage × List Part)) (p : Progress),
      ∃ added, (∀ st ∈ added, ∃ other ∈ builds, st ∈ bodyOf stage other.2) ∧
        (builds.foldl (fun p build => p.addParts build.2) p).statements stage =
          p.statements stage ++ added
  | [], p => ⟨[], by simp, by simp⟩
  | build :: builds, p => by
    obtain ⟨first, hfirst, heq⟩ := p.statements_addParts stage build.2
    obtain ⟨rest, hrest, heqRest⟩ := statements_others builds (p.addParts build.2)
    refine ⟨first ++ rest, ?_, ?_⟩
    · intro st hst
      rcases List.mem_append.mp hst with hst | hst
      · exact ⟨build, List.mem_cons_self, hfirst.subset hst⟩
      · obtain ⟨other, hother, hst⟩ := hrest st hst
        exact ⟨other, List.mem_cons_of_mem _ hother, hst⟩
    · rw [List.foldl_cons, heqRest, heq, List.append_assoc]

/-- A stage is built once, between others. -/
theorem split (h : b.Builds g context output builds p) (hstage : stage ∈ b.stages) :
    ∃ front parts back, builds = front ++ (stage, parts) :: back ∧
      ∀ other ∈ front ++ back, other ∈ builds ∧ other.1 ≠ stage := by
  have hnodup := b.stages_nodup
  rw [← h.stages] at hstage hnodup
  obtain ⟨⟨target, parts⟩, hmem, rfl⟩ := List.mem_map.mp hstage
  obtain ⟨front, back, hsplit⟩ := List.append_of_mem hmem
  refine ⟨front, parts, back, hsplit, fun other hin => ⟨?_, fun heq => ?_⟩⟩
  · rw [hsplit]
    exact List.mem_append.mpr ((List.mem_append.mp hin).imp_right (List.mem_cons_of_mem _))
  · rw [hsplit, List.map_append, List.map_cons] at hnodup
    have hnot := List.nodup_middle.mp hnodup
    rw [List.nodup_cons, ← List.map_append] at hnot
    exact hnot.1 (List.mem_map.mpr ⟨other, hin, heq⟩)

/-- **The body of a stage** is what the stage was built from, between what other stages have
    for it. -/
theorem body (h : b.Builds g context output builds p) (hstage : stage ∈ b.stages) :
    ∃ parts before after, (stage, parts) ∈ builds ∧
      p.statements stage = before ++ bodyOf stage parts ++ after ∧
      ∀ st ∈ before ++ after, ∃ other ∈ builds, other.1 ≠ stage ∧ st ∈ bodyOf stage other.2 := by
  obtain ⟨front, parts, back, hsplit, hother⟩ := h.split hstage
  have hmem : (stage, parts) ∈ builds := by
    rw [hsplit]
    exact List.mem_append_right _ List.mem_cons_self
  -- stages before and after this one may send lines to it, none of which is its own
  obtain ⟨before, hbefore, heqBefore⟩ := statements_others front (b.begin context.config output)
  have hown := Progress.statements_addParts_of_kept
    (p := front.foldl (fun p build => p.addParts build.2) (b.begin context.config output))
    fun part hpart => ((h.emits _ hmem).selfContained part hpart).kept
  obtain ⟨after, hafter, heqAfter⟩ := statements_others back
    ((front.foldl (fun p build => p.addParts build.2)
      (b.begin context.config output)).addParts parts)
  refine ⟨parts, before, after, hmem, ?_, ?_⟩
  · rw [h.result, hsplit, List.foldl_append, List.foldl_cons, heqAfter, hown, heqBefore,
      Backend.statements_begin, List.nil_append]
  · intro st hst
    rcases List.mem_append.mp hst with hst | hst
    · obtain ⟨other, hin, hst⟩ := hbefore st hst
      obtain ⟨hbuilt, hne⟩ := hother other (List.mem_append_left _ hin)
      exact ⟨other, hbuilt, hne, hst⟩
    · obtain ⟨other, hin, hst⟩ := hafter st hst
      obtain ⟨hbuilt, hne⟩ := hother other (List.mem_append_right _ hin)
      exact ⟨other, hbuilt, hne, hst⟩

/-- What other stages have for a stage are relays. -/
theorem relay_of_other (h : b.Builds g context output builds p) {other : Stage × List Part}
    (hother : other ∈ builds) (hne : other.1 ≠ stage) {st : Statement}
    (hst : st ∈ bodyOf stage other.2) : ∃ name, st = .relay name := by
  obtain ⟨part, hpart, hst⟩ := Part.mem_bodyOf.mp hst
  exact ((h.emits other hother).selfContained part hpart).relays stage hne.symm st hst

/-- The body of a stage is what the stage was built from, between relays. -/
theorem body_between (h : b.Builds g context output builds p) (hstage : stage ∈ b.stages) :
    ∃ parts before after, (stage, parts) ∈ builds ∧
      p.statements stage = before ++ bodyOf stage parts ++ after ∧
      ∀ st ∈ before ++ after, ∃ name, st = .relay name := by
  obtain ⟨parts, before, after, hmem, hbody, hothers⟩ := h.body hstage
  refine ⟨parts, before, after, hmem, hbody, fun st hst => ?_⟩
  obtain ⟨other, hother, hne, hst⟩ := hothers st hst
  exact h.relay_of_other hother hne hst

end Backend.Builds

end ShaderFlow
