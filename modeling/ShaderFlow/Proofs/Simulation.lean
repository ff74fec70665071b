/-
  ShaderFlow.Proofs.Simulation — hierarchies that match compile alike.

  A compilation searches networks, emits what it finds and puts that into templates.  Each of
  these steps treats related nodes alike, so what comes out for two hierarchies that match is one
  program: the identities of nodes go with its lines while it is built and are dropped at its
  end.  Only what is asked of a whole graph has to agree by itself: which node is the output,
  which nodes act besides, whether all kinds are known and whether variables clash.

  Main definitions:
    * `Progress.rename` — a program that is being built for nodes with other identities;
    * `Graph.Matches`   — whether two graphs agree in all that a compilation asks of them.

  Main statements:
    * `Pairing.concurs_emitStage`         — networks that match are emitted alike;
    * `Particles.concurs_collectRequests` — and ask for the same attributes;
    * `Graph.Matches.concurs_pass`        — graphs that match have passes that are alike;
    * `Backend.compile_of_concurs`        — and from such passes comes one program.
-/

import ShaderFlow.Proofs.Copies
import ShaderFlow.Proofs.Counterparts
import ShaderFlow.Proofs.Definitions
import ShaderFlow.Proofs.Screening

namespace ShaderFlow

variable {ρ : NodeId → NodeId}

/-! ## §1. Programs for nodes with other identities -/

namespace Table

variable {κ α β : Type} [BEq κ]

/-- A table with changed values. -/
def mapValues (f : α → β) (t : Table κ α) : Table κ β := t.map fun (k, a) => (k, f a)

omit [BEq κ] in
theorem keys_mapValues (f : α → β) (t : Table κ α) : (t.mapValues f).keys = t.keys := by
  unfold keys mapValues
  rw [List.map_map]
  rfl

theorem get?_mapValues (f : α → β) (t : Table κ α) (k : κ) :
    (t.mapValues f).get? k = (t.get? k).map f := by
  unfold get? mapValues
  rw [List.find?_map, Option.map_map, Option.map_map]
  rfl

theorem put_mapValues (f : α → β) (t : Table κ α) (k : κ) (a : α) :
    (t.put k a).mapValues f = (t.mapValues f).put k (f a) := by
  have hhas : (t.mapValues f).has k = t.has k := by
    unfold has mapValues
    rw [List.any_map]
    rfl
  unfold put change
  rw [hhas]
  split
  · unfold mapValues
    rw [List.map_map, List.map_map]
    refine List.map_congr_left fun e _ => ?_
    by_cases he : e.1 == k <;> simp [he]
  · unfold mapValues
    rw [List.map_append]
    rfl

end Table

/-- A line of a node with another identity. -/
def Line.rename (ρ : NodeId → NodeId) (l : Line) : Line := { l with owner := ρ l.owner }

/-- A definition of a node with another identity. -/
def Definition.rename (ρ : NodeId → NodeId) (d : Definition) : Definition :=
  { d with owner := ρ d.owner }

/-- A conflict of a node with another identity. -/
def Conflict.rename (ρ : NodeId → NodeId) (c : Conflict) : Conflict :=
  { c with owner := ρ c.owner }

/-- What was collected of nodes with other identities. -/
def Listing.rename (ρ : NodeId → NodeId) (l : Listing) : Listing where
  current := l.current
  definitions := l.definitions.mapValues (List.map (Definition.rename ρ))
  bodies := l.bodies.mapValues (List.map (Line.rename ρ))
  conflicts := l.conflicts.map (Conflict.rename ρ)

/-- A program that is being built for nodes with other identities. -/
def Progress.rename (ρ : NodeId → NodeId) (p : Progress) : Progress :=
  { p with listing := p.listing.rename ρ }

namespace Listing

variable {owner : NodeId} {stage : Stage}

theorem definitionsOf_rename (l : Listing) (stage : Stage) :
    (l.rename ρ).definitionsOf stage = (l.definitionsOf stage).map (Definition.rename ρ) := by
  unfold definitionsOf rename
  simp only
  rw [Table.get?_mapValues]
  cases l.definitions.get? stage <;> rfl

theorem body_rename (l : Listing) (stage : Stage) :
    (l.rename ρ).body stage = (l.body stage).map (Line.rename ρ) := by
  unfold body rename
  simp only
  rw [Table.get?_mapValues]
  cases l.bodies.get? stage <;> rfl

theorem stages_rename (l : Listing) : (l.rename ρ).stages = l.stages := by
  unfold stages rename
  simp only
  rw [Table.keys_mapValues, Table.keys_mapValues]

/-- A declaration is kept, dropped or refused whoever asks for it. -/
theorem defineOne_rename (owner : NodeId) (state : List Definition × List Conflict)
    (d : Declaration) :
    defineOne (ρ owner) (state.1.map (Definition.rename ρ), state.2.map (Conflict.rename ρ)) d =
      ((defineOne owner state d).1.map (Definition.rename ρ),
        (defineOne owner state d).2.map (Conflict.rename ρ)) := by
  obtain ⟨kept, conflicts⟩ := state
  -- a definition is looked up by its key, and the owner is no part of a key
  have hfind : (kept.map (Definition.rename ρ)).find? (·.declaration.key == d.key) =
      (kept.find? (·.declaration.key == d.key)).map (Definition.rename ρ) := by
    rw [List.find?_map]
    rfl
  unfold defineOne
  simp only [hfind]
  cases kept.find? (·.declaration.key == d.key) with
  | none =>
    simp only [Option.map_none, List.map_append]
    rfl
  | some existing =>
    show (if existing.declaration.line == d.line then _ else _) = _
    simp only
    split
    · rfl
    · simp only [List.map_append]
      rfl

theorem foldl_defineOne_rename (owner : NodeId) :
    ∀ (ds : List Declaration) (state : List Definition × List Conflict),
      ds.foldl (defineOne (ρ owner))
          (state.1.map (Definition.rename ρ), state.2.map (Conflict.rename ρ)) =
        ((ds.foldl (defineOne owner) state).1.map (Definition.rename ρ),
          (ds.foldl (defineOne owner) state).2.map (Conflict.rename ρ))
  | [], _ => rfl
  | d :: ds, state => by
    rw [List.foldl_cons, List.foldl_cons, defineOne_rename, foldl_defineOne_rename owner ds]

theorem define_rename (l : Listing) (owner : NodeId) (ds : List Declaration) (stage : Stage) :
    (l.rename ρ).define (ρ owner) ds (some stage) =
      (l.define owner ds (some stage)).rename ρ := by
  have hkept := l.definitionsOf_rename (ρ := ρ) stage
  unfold definitionsOf at hkept
  have hfold := foldl_defineOne_rename (ρ := ρ) owner ds
    ((l.definitions.get? stage).getD [], l.conflicts)
  unfold define
  simp only [Option.getD_some]
  rw [hkept]
  unfold rename at hfold ⊢
  simp only at hfold ⊢
  rw [hfold, Table.put_mapValues]

/-- A line is left out for lines of the same owner or of any, which renaming tells apart. -/
theorem writeOne_rename (hρ : Function.Injective ρ) (repetition : Repetition) (owner : NodeId)
    (body : List Line) (e : Entry) :
    writeOne repetition (ρ owner) (body.map (Line.rename ρ)) e =
      (writeOne repetition owner body e).map (Line.rename ρ) := by
  -- a line counts as a repeat by which owners are equal, and `ρ` keeps that
  have hrepeated : isRepeated repetition (ρ owner) e (body.map (Line.rename ρ)) =
      isRepeated repetition owner e body := by
    cases repetition with
    | allowed => rfl
    | once =>
      unfold isRepeated
      simp only [List.any_map]
      rfl
    | oncePerOwner =>
      unfold isRepeated
      simp only [List.any_map]
      congr 1
      funext l
      show (l.text == e.text && ρ l.owner == ρ owner) = (l.text == e.text && l.owner == owner)
      congr 1
      rw [Bool.eq_iff_iff, beq_iff_eq, beq_iff_eq]
      exact hρ.eq_iff
  unfold writeOne
  rw [hrepeated]
  split
  · rfl
  · rw [List.map_append]
    rfl

theorem foldl_writeOne_rename (hρ : Function.Injective ρ) (repetition : Repetition)
    (owner : NodeId) :
    ∀ (es : List Entry) (body : List Line),
      es.foldl (writeOne repetition (ρ owner)) (body.map (Line.rename ρ)) =
        (es.foldl (writeOne repetition owner) body).map (Line.rename ρ)
  | [], _ => rfl
  | e :: es, body => by
    rw [List.foldl_cons, List.foldl_cons, writeOne_rename hρ,
      foldl_writeOne_rename hρ repetition owner es]

theorem write_rename (hρ : Function.Injective ρ) (l : Listing) (owner : NodeId) (es : List Entry)
    (repetition : Repetition) (stage : Stage) :
    (l.rename ρ).write (ρ owner) es repetition (some stage) =
      (l.write owner es repetition (some stage)).rename ρ := by
  have hbody := l.body_rename (ρ := ρ) stage
  unfold body at hbody
  unfold write
  simp only [Option.getD_some]
  rw [hbody, foldl_writeOne_rename hρ]
  unfold rename
  simp only
  rw [Table.put_mapValues]

end Listing

namespace Progress

theorem add_rename (hρ : Function.Injective ρ) (owner : NodeId) (p : Progress)
    (c : Contribution) : (p.rename ρ).add (ρ owner) c = (p.add owner c).rename ρ := by
  cases c with
  | define stage ds =>
    unfold add rename
    simp only [Listing.define_rename]
  | write stage es repetition =>
    unfold add rename
    simp only [Listing.write_rename hρ]
  | note note => rfl

theorem foldl_add_rename (hρ : Function.Injective ρ) (owner : NodeId) :
    ∀ (cs : List Contribution) (p : Progress),
      cs.foldl (add (ρ owner)) (p.rename ρ) = (cs.foldl (add owner) p).rename ρ
  | [], _ => rfl
  | c :: cs, p => by
    rw [List.foldl_cons, List.foldl_cons, add_rename hρ, foldl_add_rename hρ owner cs]

/-- **Related nodes are added alike** to programs that are alike, or contradict them alike. -/
theorem concurs_addAll {P : Matching} {g g' : Graph} {n n' : Node} (hP : Pairing ρ P)
    (h : P g n g' n') (p : Progress) (path : String) (cs : List Contribution) :
    Concurs ρ (fun p p' => p' = p.rename ρ) (p.addAll path n cs)
      ((p.rename ρ).addAll path n' cs) := by
  unfold addAll
  rw [hP.id h, foldl_add_rename hP.injective, hP.ref h path]
  generalize cs.foldl (add n.id) p = q
  have hconflicts : (q.rename ρ).listing.conflicts =
      q.listing.conflicts.map (Conflict.rename ρ) := rfl
  simp only [hconflicts]
  cases q.listing.conflicts with
  | nil => exact .ok rfl
  | cons conflict rest => exact .error (.conflictingDefinition _ conflict.kept conflict.dropped)

end Progress

/-! ## §2. Stages -/

section Stages

variable {P : Matching} {s s' : Site} {b : Backend} {context : Context} {stage : Stage}

/-- The boundary of related subnets is bound alike. -/
theorem Site.Alike.concurs_openSubnet (hP : Pairing ρ P) (h : s.Alike P s')
    {subnet subnet' : Subnet} (hs : subnet.Alike ρ P subnet') :
    Concurs ρ (fun x x' => x'.1 = x.1 ∧ Found ρ P subnet.network subnet'.network x.2 x'.2)
      (s.openSubnet subnet) (s'.openSubnet subnet') := by
  have hopener : s'.opener subnet.block = s.opener subnet.block := by
    unfold Site.opener
    rw [h.inner_eq hP]
  have houtputs : s'.declareOutput = s.declareOutput := by
    funext spec
    unfold Site.declareOutput Site.varName
    rw [h.variableOf_eq hP h.node]
  have hoffered := hs.output
  unfold Site.openSubnet
  rw [hs.inputs, hs.outputs, hs.block, hopener, houtputs]
  generalize subnet.outputNode? = found at hoffered
  generalize subnet'.outputNode? = found' at hoffered
  cases hoffered with
  | none =>
    rw [h.ref hP]
    exact .error (.missingSubnetOutput s.ref)
  | some ho =>
    refine .bind (R := Eq) (.mapM_eq fun spec _ => ?_) fun bindings _ _ _ heq => ?_
    · unfold Site.bindInput
      rw [h.inner_eq hP]
      exact (h.concurs_input hP spec.name).map fun _ _ heq => by rw [heq]
    · exact .ok ⟨by rw [heq], ho.2⟩

/-- A subnet that is opened has a node that collects its outputs. -/
theorem Site.exists_of_openSubnet {subnet : Subnet} {opened : List Statement × NodeId}
    (h : s.openSubnet subnet = .ok opened) :
    ∃ output, subnet.outputNode? = some output ∧ opened.2 = output.id := by
  unfold Site.openSubnet at h
  split at h
  next => cases h
  next output houtput =>
    obtain ⟨bindings, _, hopened⟩ := bind_eq_ok.mp h
    rw [← pure_eq_ok.mp hopened]
    exact ⟨output, houtput, rfl⟩

/-- What a subnet adds does not depend on who wrote the lines inside. -/
theorem Site.Alike.splice_rename (h : s.Alike P s') (opening : List Statement)
    (nested : Progress) : s'.splice opening (nested.rename ρ) = s.splice opening nested := by
  have hforward : s'.forward (nested.listing.rename ρ) = s.forward nested.listing := by
    funext target
    unfold Site.forward
    rw [Listing.definitionsOf_rename, Listing.body_rename, List.map_map, List.map_map, h.stage]
    rfl
  have hbody : ((nested.rename ρ).listing.body s'.stage).map
        (fun line => line.entry.indent s'.context.config.formatting.indent) =
      (nested.listing.body s.stage).map
        (fun line => line.entry.indent s.context.config.formatting.indent) := by
    unfold Progress.rename
    rw [Listing.body_rename, List.map_map, h.stage, h.context]
    rfl
  unfold Site.splice
  simp only [hbody]
  unfold Progress.rename
  simp only [hforward, Listing.stages_rename, h.stage]

/-- A node may stand where a related one may. -/
theorem Pairing.concurs_checkSupported {g g' : Graph} {n n' : Node} (hP : Pairing ρ P)
    (h : P g n g' n') (scope : Scope) :
    Concurs ρ Eq (b.checkSupported scope n) (b.checkSupported scope n') := by
  have hkind := hP.kind h
  have hsupports := hkind.supports_eq b
  unfold Backend.checkSupported
  rw [hP.ref h]
  generalize n.kind = k at hkind hsupports
  generalize n'.kind = k' at hkind hsupports
  rw [hsupports]
  have hrefusal : ∀ refused : Bool, Concurs ρ Eq
      (if refused then .error (.unsupportedNode (NodeRef.of scope.path n) b.target) else .ok ())
      (if refused then .error (.unsupportedNode ((NodeRef.of scope.path n).rename ρ) b.target)
        else .ok ()) := by
    intro refused
    cases refused with
    | false => exact .ok rfl
    | true => exact .error (.unsupportedNode (NodeRef.of scope.path n) b.target)
  cases hkind <;> exact hrefusal _

/-- **Networks that match are emitted alike** in each stage, at any depth, if what is used of
    what the host provides and of attributes agrees where the stage comes to it. -/
theorem Pairing.concurs_emitStage (hP : Pairing ρ P) :
    ∀ {g g' : Graph} {scope : Scope} {roots roots' : List NodeId} {p : Progress},
      List.Forall₂ (Found ρ P g g') roots roots' →
      (∀ s s', g.Meets b context stage scope roots s → s.Alike P s' → s.UsedAs b s') →
        Concurs ρ (fun p p' => p' = p.rename ρ) (g.emitStage b context stage scope roots p)
          (g'.emitStage b context stage scope roots' (p.rename ρ)) := by
  intro g
  induction g using Graph.network_induction with
  | step g ih =>
    intro g' scope roots roots' p hroots hused
    rw [Graph.emitStage_eq, Graph.emitStage_eq]
    refine .bind (hP.concurs_stageOrder b stage hroots) fun order order' horder horder' hnodes => ?_
    refine Concurs.foldlM (forall₂_mem hnodes) (fun n hn n' hnn' p p' hp => ?_) rfl
    obtain ⟨hnn', _, hn'⟩ := hnn'
    rw [hp]
    have hfound := (Backend.schedules_of_stageOrder horder).found n hn
    have hfound' := (Backend.schedules_of_stageOrder horder').found n' hn'
    let s : Site := { graph := g, node := n, stage, scope, context }
    let s' : Site := { graph := g', node := n', stage, scope, context }
    have halike : s.Alike P s' := ⟨hnn', rfl, rfl, rfl, hfound, hfound'⟩
    refine .bind (hP.concurs_checkSupported hnn' scope) fun _ _ hsupported _ _ => ?_
    rw [Backend.emitAmong_of_stageOrder horder hn, Backend.emitAmong_of_stageOrder horder' hn']
    -- what the node adds is the same, and so is the program with it
    refine Concurs.bind (R := Eq) ?_ fun cs cs' _ _ heq => ?_
    · have hkind := hP.kind hnn'
      generalize hk : n.kind = k at hkind
      generalize hk' : n'.kind = k' at hkind
      cases hkind with
      | leaf hleaf =>
        rw [Kind.emit_of_leaf hleaf, Kind.emit_of_leaf hleaf]
        have hsupports := (Backend.checkSupported_eq_ok.mp hsupported).1
        rw [← hk]
        exact halike.concurs_leaf hP hsupports (hused s s' (.here horder hn hsupported) halike)
      | @subnet subnet subnet' hs =>
        obtain ⟨inputs, outputs, block, network⟩ := subnet
        obtain ⟨inputs', outputs', block', network'⟩ := subnet'
        have hnests : network.Nests g := ⟨n, Graph.mem_of_node? hfound, _, hk, rfl⟩
        rw [Kind.emit, Kind.emit]
        refine .bind (halike.concurs_openSubnet hP hs) fun opened opened' hopen _ hopened => ?_
        obtain ⟨opening, output⟩ := opened
        obtain ⟨opening', output'⟩ := opened'
        obtain ⟨hopening, houtput⟩ := hopened
        obtain rfl : opening' = opening := hopening
        have hinner : s'.inner = s.inner := halike.inner_eq hP
        show Concurs ρ Eq
          (network.emitStage b context stage s.inner (output :: b.sideRoots network) _ >>= _)
          (network'.emitStage b context stage s'.inner (output' :: b.sideRoots network') _ >>= _)
        rw [hinner]
        have hroots : List.Forall₂ (Found ρ P network network') (output :: b.sideRoots network)
            (output' :: b.sideRoots network') := by
          refine .cons houtput ?_
          cases b <;> exact hs.sideRoots _ _
        obtain ⟨node, hnode, rfl⟩ := Site.exists_of_openSubnet hopen
        have hinside : ∀ t t', network.Meets b context stage s.inner
            (node.id :: b.sideRoots network) t → t.Alike P t' → t.UsedAs b t' :=
          fun t t' ht => hused t t' (.inside horder hn hk hnode ht)
        refine .bind (ih network hnests hroots hinside) fun p p' _ _ hp => ?_
        rw [hp]
        exact .ok (halike.splice_rename opening' p).symm
    · rw [heq]
      exact Progress.concurs_addAll hP hnn' p scope.path cs'

end Stages

/-! ## §3. Places -/

/-- A request by a node with another identity. -/
def AttributeRequest.rename (ρ : NodeId → NodeId) (r : AttributeRequest) : AttributeRequest :=
  { r with node := r.node.rename ρ }

/-- Requests by nodes with other identities. -/
abbrev Renamed (ρ : NodeId → NodeId) (requests requests' : List AttributeRequest) : Prop :=
  requests' = requests.map (AttributeRequest.rename ρ)

theorem Renamed.flatten {lists lists' : List (List AttributeRequest)}
    (h : List.Forall₂ (Renamed ρ) lists lists') : Renamed ρ lists.flatten lists'.flatten := by
  induction h with
  | nil => rfl
  | cons hhead _ ih =>
    unfold Renamed at hhead ih ⊢
    rw [List.flatten_cons, List.flatten_cons, List.map_append, hhead, ih]

namespace Particles

variable {P : Matching} {g g' : Graph} {path : String} {roots roots' : List NodeId}

/-- Whether the output nodes that a collection finds have the same inputs fed.  It looks for
    what feeds them in the graph that it starts from, wherever they stand. -/
def FedAlike (P : Matching) (path : String) (g : Graph) (roots : List NodeId) (g' : Graph)
    (roots' : List NodeId) : Prop :=
  ∀ v w, v.Alike P w → g.Reaches path .deep followAll roots v →
    g'.Reaches path .deep followAll roots' w → (∃ target, v.node.kind = .output target) →
      ∀ name ∈ outputAttributes,
        (g'.inputSource? w.node.id name).isSome = (g.inputSource? v.node.id name).isSome

/-- Related nodes ask for the same attributes, if the networks inside do. -/
theorem concurs_requestsOf (hP : Pairing ρ P) {v w : Visit} (h : v.Alike P w)
    {nested nested' : Graph → String → List NodeId →
      Except CompileError (List AttributeRequest)}
    (hfed : (∃ target, v.node.kind = .output target) → ∀ name ∈ outputAttributes,
      (g'.inputSource? w.node.id name).isSome = (g.inputSource? v.node.id name).isSome)
    (hnested : ∀ s s', v.node.kind = .subnet s → w.node.kind = .subnet s' → s.Alike ρ P s' →
      ∀ path, Concurs ρ (Renamed ρ)
        (nested s.network path s.network.exports) (nested' s'.network path s'.network.exports)) :
    Concurs ρ (Renamed ρ)
      (requestsOf nested g v.reached) (requestsOf nested' g' w.reached) := by
  have href : NodeRef.of w.path w.node = (NodeRef.of v.path v.node).rename ρ := by
    rw [h.path]
    exact hP.ref h.node v.path
  have hkind := hP.kind h.node
  unfold requestsOf Visit.reached
  simp only
  generalize hk : v.node.kind = k at hkind hfed hnested
  generalize hk' : w.node.kind = k' at hkind hnested
  -- a subnet asks what its network asks; only attribute and output nodes ask for themselves
  cases hkind with
  | @subnet s s' hs =>
    have hexports : s'.network.exports.isEmpty = s.network.exports.isEmpty := by
      have hroots := hs.sideRoots Kind.isAttribute Kind.exportInput
      unfold Graph.exports
      generalize s.network.sideRoots Kind.isAttribute Kind.exportInput = roots at hroots
      generalize s'.network.sideRoots Kind.isAttribute Kind.exportInput = roots' at hroots
      cases hroots <;> rfl
    simp only [hexports]
    split
    · exact .ok rfl
    · rw [h.path, hP.name h.node]
      exact hnested s s' rfl rfl hs _
  | leaf hleaf =>
    cases k with
    | subnet s => exact absurd rfl (hleaf s)
    | «attribute» name type =>
      refine .ok ?_
      rw [href]
      rfl
    | output target =>
      refine .ok ?_
      have hfilter : (outputAttributes.filter fun name => (g'.inputSource? w.node.id name).isSome) =
          outputAttributes.filter fun name => (g.inputSource? v.node.id name).isSome :=
        List.filter_congr (hfed ⟨target, rfl⟩)
      unfold Renamed
      rw [hfilter, href, List.map_map]
      rfl
    | _ => exact .ok rfl

/-- Networks that match ask for the same attributes, if the networks inside do. -/
theorem concurs_of_inside (hP : Pairing ρ P) {levels levels' : Nat}
    (hroots : List.Forall₂ (Found ρ P g g') roots roots')
    (hfed : FedAlike P path g roots g' roots')
    (hinside : ∀ s s' : Subnet, s.Alike ρ P s' → s.network.depth < g.depth →
      s'.network.depth < g'.depth → ∀ path,
        Concurs ρ (Renamed ρ)
          (requestsInside levels s.network path s.network.exports)
          (requestsInside levels' s'.network path s'.network.exports)) :
    Concurs ρ (Renamed ρ)
      (collectRequests levels g path roots) (collectRequests levels' g' path roots') := by
  -- the networks met lie below this one: what `hinside` may be used for
  have hdepth : ∀ {h : Graph} {roots : List NodeId} {v : Visit} {s : Subnet},
      h.Reaches path .deep followAll roots v → v.node.kind = .subnet s →
        s.network.depth < h.depth := by
    intro h roots v s hv hk
    obtain ⟨hwithin, hmem⟩ := hv.located.within
    exact Nat.lt_of_lt_of_le (Graph.depth_lt_of_nests ⟨v.node, hmem, s, hk, rfl⟩)
      (Graph.depth_le_of_within hwithin)
  rw [collectRequests_eq, collectRequests_eq]
  refine .bind (hP.concurs_hierarchy hroots) fun t t' _ _ hlisted => ?_
  refine .bind (Concurs.mapM (T := Renamed ρ) hlisted fun r _ r' _ halike => ?_)
    fun lists lists' _ _ hlists => ?_
  · obtain ⟨v, w, ⟨hvw, hv, hw⟩, rfl, rfl⟩ := halike
    exact concurs_requestsOf hP hvw (hfed v w hvw hv hw) fun s s' hk hk' hs =>
      hinside s s' hs (hdepth hv hk) (hdepth hw hk')
  · exact .ok (Renamed.flatten hlists)

/-- **Networks that match ask for the same attributes**, with as many levels as they need. -/
theorem concurs_collectRequests (hP : Pairing ρ P) :
    ∀ {levels levels' : Nat} {g g' : Graph} {path : String} {roots roots' : List NodeId},
      List.Forall₂ (Found ρ P g g') roots roots' → g.depth ≤ levels → g'.depth ≤ levels' →
      FedAlike P path g roots g' roots' →
        Concurs ρ (Renamed ρ)
          (collectRequests levels g path roots) (collectRequests levels' g' path roots')
  | 0, _, _, _, _, _, _, hroots, hdepth, _, hfed =>
    concurs_of_inside hP hroots hfed fun _ _ _ hlt _ _ => by omega
  | _ + 1, 0, _, _, _, _, _, hroots, _, hdepth', hfed =>
    concurs_of_inside hP hroots hfed fun _ _ _ _ hlt _ => by omega
  | levels + 1, levels' + 1, _, _, _, _, _, hroots, hdepth, hdepth', hfed =>
    concurs_of_inside hP hroots hfed fun s s' hs hlt hlt' path =>
      concurs_collectRequests hP (hs.sideRoots _ _) (by omega) (by omega)
        fun v w hvw _ _ _ name _ => by
          rw [hP.id hvw.node]
          exact hs.fed v.node.id name

/-- Whoever asks, the same places are made. -/
theorem concurs_update (table : Allocations) (requests : List AttributeRequest)
    (options : ParticlesOptions) :
    Concurs ρ Eq (table.update requests options)
      (table.update (requests.map (AttributeRequest.rename ρ)) options) := by
  unfold Allocations.update
  refine .bind (R := Eq) (.self fun e he => ?_) fun _ _ _ _ _ =>
    .bind (R := Eq) ?_ fun signature _ _ _ heq => ?_
  · cases hcheck : options.check <;> rw [hcheck] at he <;> cases he
    rfl
  · unfold Allocations.signatureOf
    split
    · exact .error (.invalidConfig _)
    · have hrequests : List.Forall₂ (fun r r' => r' = AttributeRequest.rename ρ r) requests
          (requests.map (AttributeRequest.rename ρ)) := by
        rw [List.forall₂_map_right_iff]
        exact List.forall₂_same.mpr fun _ _ => rfl
      refine Concurs.foldlM hrequests (fun r _ r' hr merged merged' heq => ?_) rfl
      rw [heq, hr]
      unfold Allocations.merge AttributeRequest.rename
      simp only
      split
      · exact .error (.unsupportedAttributeType r.node r.name r.type)
      · exact .ok rfl
  · rw [heq]
    exact .self fun e he => by
      simp only at he
      split at he <;> cases he

/-- **Graphs that match get the same places.** -/
theorem concurs_allocate (hP : Pairing ρ P) (table : Allocations) (context : Context)
    (hname : g'.name = g.name)
    (houtput : Concurs ρ (Found ρ P g g') (g.outputNode .particles) (g'.outputNode .particles))
    (hexports : List.Forall₂ (Found ρ P g g') g.exports g'.exports)
    (hfed : ∀ output output', g.outputNode .particles = .ok output →
      g'.outputNode .particles = .ok output' →
        FedAlike P (Scope.root g.name).path g (output :: g.exports) g' (output' :: g'.exports)) :
    Concurs ρ Eq (allocate table g context) (allocate table g' context) := by
  refine .bind houtput fun output output' ho ho' hfound => ?_
  rw [hname]
  refine .bind (concurs_collectRequests hP (.cons hfound hexports) (Nat.le_refl _) (Nat.le_refl _)
    (hfed output output' ho ho')) fun requests requests' _ _ heq => ?_
  rw [heq]
  refine .bind (concurs_update table requests _) fun updated _ _ _ heq => ?_
  rw [heq]
  exact .ok rfl

end Particles

/-! ## §4. Compilations -/

section Compilations

variable {P : Matching} {b : Backend} {g g' : Graph} {context : Context}

/-- A program begins alike for output nodes that correspond. -/
theorem Backend.begin_rename (b : Backend) (config : Config) (output : NodeId) :
    b.begin config (ρ output) = (b.begin config output).rename ρ := by
  have hdeclare : ∀ (stages : List Stage) (l : Listing),
      stages.foldl (fun l stage =>
          l.define (ρ output) (b.declarations config stage) (some stage)) (l.rename ρ) =
        (stages.foldl (fun l stage =>
          l.define output (b.declarations config stage) (some stage)) l).rename ρ := by
    intro stages
    induction stages with
    | nil => exact fun _ => rfl
    | cons stage stages ih =>
      intro l
      rw [List.foldl_cons, List.foldl_cons, Listing.define_rename, ih]
  unfold Backend.begin Progress.rename
  simp only
  rw [← hdeclare]
  rfl

/-- **Graphs that match** in all that a pass asks of them: they have one name, one output node
    and the same nodes that act besides it; both or neither have a node of a kind that is not
    known, and two values that share a variable; and what is used of the nodes that some stage
    comes to is used alike. -/
structure Graph.Matches (ρ : NodeId → NodeId) (P : Matching) (b : Backend) (context : Context)
    (g g' : Graph) : Prop where
  name : g'.name = g.name
  output : Concurs ρ (Found ρ P g g') (g.outputNode b.target) (g'.outputNode b.target)
  sideRoots : List.Forall₂ (Found ρ P g g') (b.sideRoots g) (b.sideRoots g')
  kinds : Concurs ρ Eq (b.checkNodes g (Scope.root g.name)) (b.checkNodes g' (Scope.root g.name))
  names : Concurs ρ Eq (g.checkVariables (Scope.root g.name))
    (g'.checkVariables (Scope.root g.name))
  used : ∀ s s', b.Meets g context s → s.Alike P s' → s.UsedAs b s'

/-- **Graphs that match have passes that are alike.** -/
theorem Graph.Matches.concurs_pass (hP : Pairing ρ P) (h : g.Matches ρ P b context g') :
    Concurs ρ (fun p p' => p' = p.rename ρ) (b.pass g context) (b.pass g' context) := by
  refine .bind h.output fun output output' houtput _ hfound => ?_
  rw [h.name]
  have hroots : List.Forall₂ (Found ρ P g g') (output :: b.sideRoots g)
      (output' :: b.sideRoots g') := .cons hfound h.sideRoots
  refine .bind h.kinds fun _ _ _ _ _ => .bind h.names fun _ _ _ _ _ =>
    .bind (hP.concurs_network (fun _ _ _ => rfl) hroots) fun _ _ _ _ _ => ?_
  have hid : output' = ρ output := hfound.id_eq
  subst hid
  rw [Backend.begin_rename]
  have hstages : List.Forall₂ Eq b.stages b.stages := List.forall₂_same.mpr fun _ _ => rfl
  refine Concurs.foldlM hstages (fun stage hstage stage' heq p p' hp => ?_) rfl
  rw [← heq, hp]
  refine hP.concurs_emitStage hroots fun s s' hs halike => h.used s s' ?_ halike
  have hs' : g.Meets b context s.stage (Scope.root g.name) (output :: b.sideRoots g) s := by
    rw [hs.stage_eq]
    exact hs
  exact ⟨output, houtput, hs.stage_eq ▸ hstage, hs'⟩

/-- The text of a stage does not depend on who wrote its lines. -/
theorem Progress.render_rename (p : Progress) (template : String) (stage : Stage)
    (epilogue : List String) :
    (p.rename ρ).render template stage epilogue = p.render template stage epilogue := by
  have hgrouped : (p.rename ρ).listing.definitionLines stage = p.listing.definitionLines stage := by
    unfold Listing.definitionLines Listing.grouped Progress.rename
    simp only [Listing.definitionsOf_rename, List.filter_map, List.map_flatMap, List.map_map]
    rfl
  have hbody : (p.rename ρ).bodyTexts stage epilogue = p.bodyTexts stage epilogue := by
    unfold Progress.bodyTexts Progress.rename
    rw [Listing.body_rename, List.map_map]
    rfl
  unfold Progress.render
  rw [hgrouped, hbody]

theorem MaterialProgram.assemble_rename (p : Progress) (config : Config) :
    assemble (p.rename ρ) config = assemble p config := by
  unfold assemble
  simp only [Progress.render_rename]
  rfl

theorem ParticlesProgram.assemble_rename (p : Progress) (table : Allocations) :
    assemble (p.rename ρ) table = assemble p table := by
  have hshader : SimulationShader.assemble (p.rename ρ) table =
      SimulationShader.assemble p table := by
    funext index
    unfold SimulationShader.assemble
    simp only [Progress.render_rename]
  unfold assemble
  rw [hshader]
  rfl

theorem PointProgram.assemble_rename (p : Progress) (config : Config) :
    assemble (p.rename ρ) config = assemble p config := by
  have hbody : (p.rename ρ).bodyTexts .point [] = p.bodyTexts .point [] := by
    unfold Progress.bodyTexts Progress.rename
    rw [Listing.body_rename, List.map_map]
    rfl
  have hhelpers : ((p.rename ρ).listing.definitionsOf .point).filterMap helper? =
      (p.listing.definitionsOf .point).filterMap helper? := by
    unfold Progress.rename
    rw [Listing.definitionsOf_rename, List.filterMap_map]
    rfl
  have hfree : ((p.rename ρ).listing.definitionsOf .point).filterMap freeVariable? =
      (p.listing.definitionsOf .point).filterMap freeVariable? := by
    unfold Progress.rename
    rw [Listing.definitionsOf_rename, List.filterMap_map]
    rfl
  unfold assemble
  simp only [hbody, hhelpers, hfree]
  rfl

/-- **What comes of graphs whose places and passes agree is the same**, but for the identities
    of nodes in errors. -/
theorem Backend.compile_of_concurs
    (hallocate : ∀ table, b = .particles table →
      Concurs ρ Eq (Particles.allocate table g context) (Particles.allocate table g' context))
    (hpass : Concurs ρ (fun p p' => p' = p.rename ρ) ((b.compile g context).1.pass g context)
      ((b.compile g context).1.pass g' context)) :
    b.compile g' context =
      ((b.compile g context).1, (b.compile g context).2.mapError (CompileError.rename ρ)) := by
  have htemplate : ∀ stage marker, (CompileError.template stage marker).rename ρ =
      .template stage marker := fun _ _ => rfl
  cases b with
  | material =>
    refine Prod.ext rfl (Concurs.eq_mapError (.bind hpass fun p p' _ _ hp => ?_))
    rw [hp, MaterialProgram.assemble_rename]
    exact .bind (.self (MaterialProgram.failsOnly_assemble htemplate)) fun _ _ _ _ heq =>
      .ok (congrArg Program.material heq)
  | particles table =>
    have hplaces := hallocate table rfl
    generalize hg : Particles.allocate table g context = places at hplaces
    generalize hg' : Particles.allocate table g' context = places' at hplaces
    cases hplaces with
    | error e =>
      unfold Backend.compile
      simp only [hg, hg']
      rfl
    | @ok table' _ heq =>
      subst heq
      unfold Backend.compile at hpass ⊢
      simp only [hg, hg'] at hpass ⊢
      refine Prod.ext rfl (Concurs.eq_mapError (.bind hpass fun p p' _ _ hp => ?_))
      rw [hp, ParticlesProgram.assemble_rename]
      exact .bind (.self (ParticlesProgram.failsOnly_assemble htemplate)) fun _ _ _ _ heq =>
        .ok (congrArg Program.particles heq)
  | points =>
    refine Prod.ext rfl (Concurs.eq_mapError (.bind hpass fun p p' _ _ hp => ?_))
    rw [hp, PointProgram.assemble_rename]
    exact .bind (.self (PointProgram.failsOnly_assemble htemplate)) fun _ _ _ _ heq =>
      .ok (congrArg Program.points heq)

end Compilations

end ShaderFlow
