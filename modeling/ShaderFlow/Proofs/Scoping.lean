/-
  ShaderFlow.Proofs.Scoping — what is used is declared before.

  A body is read with the blocks that are open: a declaration adds a variable to the innermost
  one, and the end of a block drops what was declared in it.  Where every subnet that a stage
  uses declares what it is asked for, every variable that a statement reads or assigns is in an
  open block.  Networks that fit together see to that.

  Main definitions:
    * `Statement.scopes`, `scopesAfter` — the open blocks and what they declare;
    * `InScope` — bodies that use open variables only.

  Main statements:
    * `Graph.Emits.inScope`               — the body of a network, however deep;
    * `Backend.Builds.inScope_of_covered` — the body of a stage;
    * `Backend.declares_first`            — variables and definitions, for every stage.
-/

import ShaderFlow.Proofs.Boundaries

namespace ShaderFlow

open Contribution

/-! ## §1. Open blocks -/

/-- The open blocks behind a statement, the innermost one first, each with the variables that
    were declared in it. -/
def Statement.scopes (blocks : List (List String)) : Statement → List (List String)
  | .declare _ name _ =>
    match blocks with
    | [] => [[name]]
    | top :: outer => (name :: top) :: outer
  | .openBlock _ => [] :: blocks
  | .closeBlock => blocks.tail
  | .assign .. | .raw _ => blocks

/-- The open blocks behind a body. -/
def scopesAfter (blocks : List (List String)) (body : List Statement) : List (List String) :=
  body.foldl Statement.scopes blocks

/-- Bodies whose statements use variables of open blocks only. -/
def InScope (blocks : List (List String)) : List Statement → Prop
  | [] => True
  | st :: rest => (∀ x ∈ st.locals, x ∈ blocks.flatten) ∧ InScope (st.scopes blocks) rest

instance InScope.decidable :
    ∀ (blocks : List (List String)) (body : List Statement), Decidable (InScope blocks body)
  | _, [] => .isTrue trivial
  | blocks, st :: rest =>
    have := InScope.decidable (st.scopes blocks) rest
    inferInstanceAs (Decidable ((∀ x ∈ st.locals, x ∈ blocks.flatten) ∧ _))

theorem scopesAfter_append (blocks : List (List String)) (first rest : List Statement) :
    scopesAfter blocks (first ++ rest) = scopesAfter (scopesAfter blocks first) rest :=
  List.foldl_append

theorem inScope_append {rest : List Statement} :
    ∀ {first : List Statement} {blocks : List (List String)},
      InScope blocks (first ++ rest) ↔
        InScope blocks first ∧ InScope (scopesAfter blocks first) rest
  | [], blocks => by simp [InScope, scopesAfter]
  | st :: first, blocks => by
    rw [List.cons_append, InScope, InScope, inScope_append, and_assoc]
    rfl

/-- Each statement uses what was declared, in a block that is still open, before it. -/
theorem InScope.before {blocks : List (List String)} {front back : List Statement} {st : Statement}
    (h : InScope blocks (front ++ st :: back)) :
    ∀ x ∈ st.locals, x ∈ (scopesAfter blocks front).flatten :=
  (inScope_append.mp h).2.1

/-- What is in an open block was declared, by the body or around it. -/
theorem mem_scopesAfter {body : List Statement} {blocks : List (List String)} {x : String}
    (h : x ∈ (scopesAfter blocks body).flatten) : x ∈ blocks.flatten ∨ x ∈ declaredIn body := by
  induction body generalizing blocks with
  | nil => exact .inl h
  | cons st body ih =>
    rw [declaredIn_cons, List.mem_append]
    rcases ih h with h | h
    · cases st with
      | declare type name value =>
        cases blocks with
        | nil => exact .inr (.inl (by simpa [Statement.scopes, Statement.declared] using h))
        | cons top outer =>
          rcases List.mem_cons.mp h with rfl | h
          · exact .inr (.inl List.mem_cons_self)
          · exact .inl h
      | openBlock condition => exact .inl h
      | closeBlock =>
        cases blocks with
        | nil => exact .inl h
        | cons top outer => exact .inl (List.mem_append_right _ h)
      | assign place value => exact .inl h
      | raw text => exact .inl h
    · exact .inr (.inr h)

variable {top : List String} {outer : List (List String)}

/-- Plain statements add their variables to the innermost block. -/
theorem scopesAfter_plain :
    ∀ {body : List Statement} {top : List String}, (∀ st ∈ body, st.isPlain = true) →
      scopesAfter (top :: outer) body = ((declaredIn body).reverse ++ top) :: outer
  | [], top, _ => rfl
  | st :: rest, top, h => by
    have ih : ∀ top, scopesAfter (top :: outer) rest =
        ((declaredIn rest).reverse ++ top) :: outer :=
      fun _ => scopesAfter_plain fun st' hst' => h st' (List.mem_cons_of_mem _ hst')
    cases st with
    | declare type name value =>
      show scopesAfter ((name :: top) :: outer) rest = _
      rw [ih]
      simp [Statement.declared]
    | assign place value =>
      show scopesAfter (top :: outer) rest = _
      rw [ih]
      simp [Statement.declared]
    | openBlock condition => exact absurd (h _ List.mem_cons_self) (by simp [Statement.isPlain])
    | closeBlock => exact absurd (h _ List.mem_cons_self) (by simp [Statement.isPlain])
    | raw text => exact absurd (h _ List.mem_cons_self) (by simp [Statement.isPlain])

/-- They are in scope where what they use is. -/
theorem inScope_plain :
    ∀ {body : List Statement} {top : List String}, (∀ st ∈ body, st.isPlain = true) →
      (∀ st ∈ body, ∀ x ∈ st.locals, x ∈ (top :: outer).flatten) → InScope (top :: outer) body
  | [], top, _, _ => trivial
  | st :: rest, top, hplain, huse => by
    refine ⟨huse st List.mem_cons_self, ?_⟩
    have hscopes : st.scopes (top :: outer) = (st.declared.reverse ++ top) :: outer := by
      have hone : scopesAfter (top :: outer) [st] =
          ((declaredIn [st]).reverse ++ top) :: outer :=
        scopesAfter_plain (by simpa using hplain st List.mem_cons_self)
      simpa [scopesAfter] using hone
    rw [hscopes]
    refine inScope_plain (fun st' hst' => hplain st' (List.mem_cons_of_mem _ hst')) ?_
    intro st' hst' x hx
    have hold := huse st' (List.mem_cons_of_mem _ hst') x hx
    rw [List.flatten_cons, List.mem_append] at hold ⊢
    exact hold.imp_left fun hin => List.mem_append_right _ hin

/-! ## §2. Variables that are there -/

variable {b : Backend} {context : Context} {stage : Stage} {scope : Scope} {roots : List NodeId}
  {g : Graph} {parts : List Part}

/-- The variables that a network asks of the subnet around it are declared around its nodes. -/
def Graph.Enclosed (b : Backend) (stage : Stage) (scope : Scope) (roots : List NodeId) (g : Graph)
    (blocks : List (List String)) : Prop :=
  ∀ direction spec, g.Asks b stage roots direction spec →
    scope.boundaryVar direction spec.name ∈ blocks.flatten

theorem Graph.Enclosed.mono {added : List String}
    (h : g.Enclosed b stage scope roots (top :: outer)) :
    g.Enclosed b stage scope roots ((added ++ top) :: outer) := by
  intro direction spec hasks
  have hold := h direction spec hasks
  rw [List.flatten_cons, List.mem_append] at hold ⊢
  exact hold.imp_left fun hin => List.mem_append_right _ hin

/-- The outputs of nodes that feed something have their variables. -/
def Graph.Offers (scope : Scope) (g : Graph) (nodes : List Node) (names : List String) : Prop :=
  ∀ n ∈ nodes, n.kind.isSubnetInput = false → ∀ output ∈ n.outputs.map (·.name),
    g.isOutputConnected n.id output = true → scope.varName n.name output ∈ names

theorem Graph.Offers.mono {nodes : List Node} {names more : List String}
    (h : g.Offers scope nodes names) (hsub : names ⊆ more) : g.Offers scope nodes more :=
  fun n hn hk output houtput hconnected => hsub (h n hn hk output houtput hconnected)

/-- A node that is emitted has something to do in its stage. -/
theorem Graph.Emits.engages (h : g.Emits b context stage scope roots parts) (hg : g.Wired)
    {part : Part} (hpart : part ∈ parts) : b.Engages stage part.node := by
  have hn : part.node ∈ parts.map (·.node) := List.mem_map_of_mem hpart
  have hfound := h.schedules.found part.node hn
  rcases h.schedules.needed part.node hn with hroot | ⟨m, _, input, _, _, c, hc, hsource⟩
  · have hconcerns := (List.mem_filter.mp hroot).2
    simp only [Backend.concerns, hfound, Bool.or_eq_true, List.isEmpty_iff, Bool.not_eq_true']
      at hconcerns
    exact hconcerns.imp_right .inl
  · have houtput := (hg.feeds hc hsource).1
    refine .inr (.inr ?_)
    intro hnone
    rw [hnone] at houtput
    cases houtput

/-- What a node reads was declared by the nodes in front of it, or around the network. -/
theorem Graph.Emits.fetched (h : g.Emits b context stage scope roots parts) (hg : g.Wired)
    {front : List Part} {part : Part} {back : List Part} (hsplit : parts = front ++ part :: back)
    (hoffers : g.Offers scope (front.map (·.node)) top)
    (henclosed : g.Enclosed b stage scope roots (top :: outer)) {x : String}
    (hx : Site.Fetches b { graph := g, node := part.node, stage, scope, context } x) :
    x ∈ (top :: outer).flatten := by
  obtain ⟨input, hinput, hallows, c, source, hc, hsource, rfl⟩ := hx
  have hnodes : parts.map (·.node) = front.map (·.node) ++ part.node :: back.map (·.node) := by
    rw [hsplit, List.map_append, List.map_cons]
  obtain ⟨source', hfront, hsource'⟩ :=
    h.schedules.behind _ _ _ hnodes input hinput hallows c hc
  rw [hsource] at hsource'
  obtain rfl := Option.some.inj hsource'
  obtain ⟨houtput, hconnected⟩ := hg.feeds hc hsource
  -- a variable of the boundary is in one of the blocks around, any other was declared in front
  cases hk : source.kind with
  | subnetInput ports =>
    have hvar : Site.variableOf { graph := g, node := part.node, stage, scope, context } source
        c.output = scope.inputVar c.output := by
      rw [Site.variableOf, hk]
      rfl
    obtain ⟨port, hport⟩ := Node.output?_of_mem houtput
    rw [hvar]
    exact henclosed .input _
      (.reads (h.uses (by rw [hsplit]; simp)) hinput hallows hc hsource (by rw [hk]; rfl) hport)
  | _ =>
    have hname : source.kind.isSubnetInput = false := by rw [hk]; rfl
    rw [Site.variableOf_eq hname, List.flatten_cons]
    exact List.mem_append_left _ (hoffers source hfront hname c.output houtput hconnected)

/-! ## §3. Parts in scope -/

/-- What is proved of a part: it uses open variables, and leaves the variables of its node in
    the block that it stands in. -/
structure Graph.Fits (scope : Scope) (g : Graph) (top : List String)
    (outer : List (List String)) (n : Node) (body : List Statement) : Prop where
  inScope : InScope (top :: outer) body
  after : ∃ added, scopesAfter (top :: outer) body = (added ++ top) :: outer ∧
    g.Offers scope [n] (added ++ top)
  noRaw : ∀ st ∈ body, ∀ text, st ≠ .raw text

theorem Statement.ne_raw_of_isPlain {st : Statement} (h : st.isPlain = true) (text : String) :
    st ≠ .raw text := by
  rintro rfl
  cases h

/-- A leaf fits. -/
theorem Graph.Emits.fits_leaf (h : g.Emits b context stage scope roots parts) (hg : g.Wired)
    {front : List Part} {part : Part} {back : List Part} (hsplit : parts = front ++ part :: back)
    (hsubnet : ∀ subnet, part.node.kind ≠ .subnet subnet)
    (hoffers : g.Offers scope (front.map (·.node)) top)
    (henclosed : g.Enclosed b stage scope roots (top :: outer)) :
    g.Fits scope top outer part.node (part.statements stage) := by
  have hpart : part ∈ parts := by rw [hsplit]; simp
  have htidy := (h.leaf hpart hsubnet).2
  refine ⟨inScope_plain htidy.plain ?_, ⟨_, scopesAfter_plain htidy.plain, ?_⟩,
    fun st hst => Statement.ne_raw_of_isPlain (htidy.plain st hst)⟩
  · intro st hst x hx
    rcases htidy.reads (h.engages hg hpart) st hst x hx with
      hfetches | ⟨hk, input, hinput, hfed, rfl⟩
    · exact h.fetched hg hsplit hoffers henclosed hfetches
    · obtain ⟨port, hport⟩ := Node.input?_of_mem hinput
      exact henclosed .output _ (.collects (h.uses hpart) hk hport hfed)
  · intro n hn hk output houtput hconnected
    rw [List.mem_singleton] at hn
    subst hn
    have hdeclared := htidy.offers hk output houtput hconnected
    rw [Site.varName, Site.variableOf_eq hk] at hdeclared
    exact List.mem_append_left _ (List.mem_reverse.mpr hdeclared)

/-- Parts that fit, one after the other. -/
theorem Graph.fits_parts
    (hfits : ∀ front part back top, parts = front ++ part :: back →
      g.Offers scope (front.map (·.node)) top →
      g.Enclosed b stage scope roots (top :: outer) →
        g.Fits scope top outer part.node (part.statements stage)) :
    ∀ (rest front : List Part) (top : List String), parts = front ++ rest →
      g.Offers scope (front.map (·.node)) top →
      g.Enclosed b stage scope roots (top :: outer) →
        InScope (top :: outer) (bodyOf stage rest) ∧
          (∃ added, scopesAfter (top :: outer) (bodyOf stage rest) = (added ++ top) :: outer) ∧
          ∀ st ∈ bodyOf stage rest, ∀ text, st ≠ .raw text
  | [], front, top, _, _, _ => ⟨trivial, ⟨[], rfl⟩, by simp [bodyOf]⟩
  | part :: rest, front, top, hsplit, hoffers, henclosed => by
    obtain ⟨hscope, ⟨added, hafter, hoffered⟩, hraw⟩ :=
      hfits front part rest top hsplit hoffers henclosed
    -- what the part declares is added to the innermost block, where the rest may use it
    have hsplit' : parts = (front ++ [part]) ++ rest := by rw [hsplit]; simp
    have hoffers' : g.Offers scope ((front ++ [part]).map (·.node)) (added ++ top) := by
      intro n hn
      rw [List.map_append, List.mem_append] at hn
      rcases hn with hn | hn
      · exact hoffers.mono (List.subset_append_right _ _) n hn
      · exact hoffered n hn
    obtain ⟨hrest, ⟨more, hmore⟩, hrawRest⟩ :=
      fits_parts hfits rest (front ++ [part]) (added ++ top) hsplit' hoffers' henclosed.mono
    have hbody : bodyOf stage (part :: rest) = part.statements stage ++ bodyOf stage rest := rfl
    rw [hbody]
    refine ⟨inScope_append.mpr ⟨hscope, by rw [hafter]; exact hrest⟩, ⟨more ++ added, ?_⟩, ?_⟩
    · rw [scopesAfter_append, hafter, hmore, List.append_assoc]
    · intro st hst
      rcases List.mem_append.mp hst with hst | hst
      · exact hraw st hst
      · exact hrawRest st hst

/-! ## §4. Networks in scope -/

namespace Site

variable {s : Site} {subnet : Subnet} {bindings : List Statement}

/-- What a subnet declares in front of its block. -/
def front (s : Site) (subnet : Subnet) (bindings : List Statement) : List Statement :=
  bindings ++ subnet.outputs.map s.declareOutput

theorem opening_eq : s.opening subnet bindings = s.front subnet bindings ++ [s.opener subnet.block] :=
  rfl

theorem plain_front (h : subnet.inputs.mapM s.bindInput = .ok bindings) :
    ∀ st ∈ s.front subnet bindings, st.isPlain = true := by
  intro st hst
  rcases List.mem_append.mp hst with hst | hst
  · obtain ⟨spec, _, o, _, rfl⟩ := exists_of_mem_bindings h hst
    rfl
  · obtain ⟨spec, _, rfl⟩ := List.mem_map.mp hst
    rfl

/-- In front of its block a subnet reads what feeds it. -/
theorem locals_front (hk : s.node.kind = .subnet subnet)
    (h : subnet.inputs.mapM s.bindInput = .ok bindings) :
    ∀ st ∈ s.front subnet bindings, ∀ x ∈ st.locals, s.Fetches b x := by
  intro st hst x hx
  rcases List.mem_append.mp hst with hst | hst
  · obtain ⟨spec, _, o, ho, rfl⟩ := exists_of_mem_bindings h hst
    have hall := b.follows_eq_all s.stage (n := s.node) (by rw [hk]; trivial)
    have hlocals : x ∈ o.locals := by
      simpa [Statement.locals, Expr.locals, Expr.operands] using hx
    exact s.fetches_of_input ho (by rw [hall]; rfl) x hlocals
  · obtain ⟨spec, _, rfl⟩ := List.mem_map.mp hst
    cases hx

theorem declaredIn_front (hk : s.node.kind = .subnet subnet)
    (h : subnet.inputs.mapM s.bindInput = .ok bindings) :
    declaredIn (s.front subnet bindings) = s.node.variables s.scope := by
  have hopening := declaredIn_opening hk h
  have hopener : (s.opener subnet.block).declared = [] := by
    cases subnet.block <;> rfl
  rw [opening_eq, declaredIn_append, declaredIn_cons, hopener, declaredIn_nil, List.append_nil,
    List.append_nil] at hopening
  exact hopening

/-- The block of a subnet is opened behind the declarations of its variables. -/
theorem scopesAfter_opening (hk : s.node.kind = .subnet subnet)
    (h : subnet.inputs.mapM s.bindInput = .ok bindings) (top : List String)
    (outer : List (List String)) :
    scopesAfter (top :: outer) (s.opening subnet bindings) =
      [] :: ((s.node.variables s.scope).reverse ++ top) :: outer := by
  rw [opening_eq, scopesAfter_append, scopesAfter_plain (plain_front h), declaredIn_front hk h]
  cases hblock : subnet.block <;> simp [opener, scopesAfter, Statement.scopes]

theorem ne_raw_opening (h : subnet.inputs.mapM s.bindInput = .ok bindings) :
    ∀ st ∈ s.opening subnet bindings, ∀ text, st ≠ .raw text := by
  intro st hst
  rw [opening_eq] at hst
  rcases List.mem_append.mp hst with hst | hst
  · exact Statement.ne_raw_of_isPlain (plain_front h st hst)
  · rw [List.mem_singleton] at hst
    subst hst
    cases subnet.block <;> simp [opener]

/-- A subnet that declares its condition opens its block in scope, if what feeds it is in scope. -/
theorem inScope_opening (hk : s.node.kind = .subnet subnet)
    (h : subnet.inputs.mapM s.bindInput = .ok bindings) (hcovers : subnet.Covers b stage)
    {top : List String} {outer : List (List String)}
    (hfetches : ∀ x, s.Fetches b x → x ∈ (top :: outer).flatten) :
    InScope (top :: outer) (s.opening subnet bindings) := by
  rw [opening_eq, inScope_append, scopesAfter_plain (plain_front h), declaredIn_front hk h]
  refine ⟨inScope_plain (plain_front h) ?_, ?_, trivial⟩
  · exact fun st hst x hx => hfetches x (locals_front hk h st hst x hx)
  · intro x hx
    cases hblock : subnet.block with
    | always => simp [opener, hblock, Statement.locals] at hx
    | conditional condition =>
      simp only [opener, hblock, Statement.locals, Operand.locals, List.mem_singleton] at hx
      have hvar : s.inner.inputVar condition ∈ s.node.variables s.scope :=
        Node.boundaryVar_mem_variables hk (hcovers .input _ (.condition hblock))
      rw [hx, List.flatten_cons]
      exact List.mem_append_left _ (List.mem_append_left _ (List.mem_reverse.mpr hvar))

end Site

theorem Node.mem_variables_of_output {subnet : Subnet} {n : Node} (hk : n.kind = .subnet subnet)
    {output : String} (houtput : output ∈ n.outputs.map (·.name)) :
    scope.varName n.name output ∈ n.variables scope := by
  unfold Node.variables
  rw [hk]
  obtain ⟨port, hport, rfl⟩ := List.mem_map.mp houtput
  exact List.mem_append_right _ (List.mem_map.mpr ⟨port, hport, rfl⟩)

/-- Inside a subnet that declares what it is asked for, the variables of its boundary are declared
    around the network. -/
theorem Subnet.Covers.enclosed {subnet : Subnet} (h : subnet.Covers b stage) {n output : Node}
    (hk : n.kind = .subnet subnet) (ho : subnet.outputNode? = some output)
    {blocks : List (List String)} (hblocks : n.variables scope ⊆ blocks.flatten) :
    subnet.network.Enclosed b stage (scope.enter n.name)
      (output.id :: b.sideRoots subnet.network) blocks :=
  fun direction spec hasks =>
    hblocks (Node.boundaryVar_mem_variables hk (h direction spec (.network ho hasks)))

/-- What is proved of the body of a network. -/
structure InBlocks (blocks : List (List String)) (body : List Statement) : Prop where
  inScope : InScope blocks body
  /-- What a body declares is gone with the block around it. -/
  after : (scopesAfter blocks body).tail = blocks.tail
  noRaw : ∀ st ∈ body, ∀ text, st ≠ .raw text

/-- A subnet fits whose network keeps to the blocks around it. -/
theorem Graph.Emits.fits_subnet (h : g.Emits b context stage scope roots parts) (hg : g.Wired)
    {front : List Part} {part : Part} {back : List Part} (hsplit : parts = front ++ part :: back)
    {subnet : Subnet} (hk : part.node.kind = .subnet subnet) (hcovers : subnet.Covers b stage)
    (hinner : ∀ (output : Node) (inner : List Part) (blocks : List (List String)),
      subnet.outputNode? = some output →
      subnet.network.Emits b context stage (scope.enter part.node.name)
        (output.id :: b.sideRoots subnet.network) inner →
      subnet.network.Enclosed b stage (scope.enter part.node.name)
        (output.id :: b.sideRoots subnet.network) ([] :: blocks) →
          InBlocks ([] :: blocks) (bodyOf stage inner))
    (hoffers : g.Offers scope (front.map (·.node)) top)
    (henclosed : g.Enclosed b stage scope roots (top :: outer)) :
    g.Fits scope top outer part.node (part.statements stage) := by
  have hpart : part ∈ parts := by rw [hsplit]; simp
  obtain ⟨output, bindings, inner, houtput, hbindings, hemits, hstatements⟩ :=
    h.written_subnet hpart hk
  let s : Site := { graph := g, node := part.node, stage, scope, context }
  let vars := (part.node.variables scope).reverse
  have hvars : part.node.variables scope ⊆ ([] :: (vars ++ top) :: outer).flatten := by
    intro x hx
    simp [vars, hx]
  -- the network is in a new block inside that of the variables of its boundary
  have hin := hinner output inner ((vars ++ top) :: outer) houtput hemits
    (hcovers.enclosed hk houtput hvars)
  have hopen := Site.scopesAfter_opening (s := s) hk hbindings top outer
  have hbody : scopesAfter (top :: outer) (s.opening subnet bindings ++ bodyOf stage inner) =
      scopesAfter ([] :: (vars ++ top) :: outer) (bodyOf stage inner) := by
    rw [scopesAfter_append, hopen]
  rw [hstatements]
  refine ⟨inScope_append.mpr ⟨inScope_append.mpr ⟨?_, ?_⟩, ?_⟩, ⟨vars, ?_, ?_⟩, ?_⟩
  · exact Site.inScope_opening hk hbindings hcovers
      fun x => h.fetched hg hsplit hoffers henclosed
  · rw [hopen]
    exact hin.inScope
  · rw [hbody]
    exact ⟨fun x hx => absurd hx List.not_mem_nil, trivial⟩
  · rw [scopesAfter_append, hbody]
    exact hin.after
  · intro n hn hname out hout _
    rw [List.mem_singleton] at hn
    subst hn
    exact List.mem_append_left _ (List.mem_reverse.mpr (Node.mem_variables_of_output hk hout))
  · intro st hst
    rcases List.mem_append.mp hst with hst | hst
    · rcases List.mem_append.mp hst with hst | hst
      · exact Site.ne_raw_opening hbindings st hst
      · exact hin.noRaw st hst
    · rw [List.mem_singleton] at hst
      subst hst
      simp

/-- **Networks in scope.**  The body of a network that uses subnets which declare what they are
    asked for uses variables of open blocks only, where the variables of its own boundary are
    open. -/
theorem Graph.Emits.inScope :
    ∀ {g : Graph} {scope : Scope} {roots : List NodeId} {parts : List Part}
      {top : List String} {outer : List (List String)}, g.Everywhere Graph.Wired →
        g.Covered b stage scope roots → g.Emits b context stage scope roots parts →
          g.Enclosed b stage scope roots (top :: outer) →
            InBlocks (top :: outer) (bodyOf stage parts) := by
  intro g
  induction g using Graph.network_induction with
  | step g ih =>
    intro scope roots parts top outer hg hcovered h henclosed
    have hfits : ∀ front part back top, parts = front ++ part :: back →
        g.Offers scope (front.map (·.node)) top →
        g.Enclosed b stage scope roots (top :: outer) →
          g.Fits scope top outer part.node (part.statements stage) := by
      intro front part back top hsplit hoffers henclosed
      have hpart : part ∈ parts := by rw [hsplit]; simp
      rcases h.cases hpart with ⟨hsubnet, _⟩ | ⟨subnet, _, _, _, hk, _⟩
      · exact h.fits_leaf hg.here hsplit hsubnet hoffers henclosed
      · have hnests : subnet.network.Nests g := ⟨part.node, h.node_mem hpart, subnet, hk, rfl⟩
        have hused := h.uses hpart
        exact h.fits_subnet hg.here hsplit hk (hcovered.here hused hk)
          (fun output _ _ houtput hemits henclosed => ih _ hnests (hg.inside hnests)
            (hcovered.inside hused hk houtput) hemits henclosed)
          hoffers henclosed
    obtain ⟨hscope, ⟨added, hafter⟩, hraw⟩ := Graph.fits_parts hfits parts [] top rfl
      (by intro n hn; cases hn) henclosed
    exact ⟨hscope, by rw [hafter]; rfl, hraw⟩

/-! ## §5. Whole graphs -/

/-- Nodes that act besides the output node are no boundaries. -/
theorem Backend.sideRoots_spec {id : NodeId} (h : id ∈ b.sideRoots g) :
    ∃ n ∈ g.nodes, n.id = id ∧ n.kind.isSubnetOutput = false := by
  have hkind : ∀ (writes : Kind → Bool) (input : String), id ∈ g.sideRoots writes input →
      (∀ k, writes k = true → k.isSubnetOutput = false) →
        ∃ n ∈ g.nodes, n.id = id ∧ n.kind.isSubnetOutput = false := by
    intro writes input hmem hwrites
    obtain ⟨n, hn, hacts, hid⟩ := Graph.mem_sideRoots.mp hmem
    refine ⟨n, hn, hid, ?_⟩
    rcases Node.acts_cases hacts with ⟨s, hk, _⟩ | ⟨_, hk, _⟩
    · rw [hk]
      rfl
    · exact hwrites _ hk
  have hvarying : ∀ k : Kind, k.isVaryingWrite = true → k.isSubnetOutput = false := by
    intro k hk
    cases k <;> first | rfl | cases hk
  have hattribute : ∀ k : Kind, k.isAttribute = true → k.isSubnetOutput = false := by
    intro k hk
    cases k <;> first | rfl | cases hk
  cases b with
  | material => exact hkind _ _ h hvarying
  | particles table => exact hkind _ _ h hattribute
  | points => exact hkind _ _ h hattribute

/-- The output node of a graph, found by its identity. -/
theorem Graph.Wired.node?_output {target : Target} {id : NodeId} (hg : g.Wired)
    (h : g.outputNode target = .ok id) :
    ∃ n, g.node? id = some n ∧ n ∈ g.nodes ∧ n.kind = .output target := by
  obtain ⟨n, hn, rfl⟩ := Graph.outputNode_spec h
  have hmem : n ∈ g.nodes.filter (Node.isOutputFor target) := by
    rw [hn]
    exact List.mem_singleton_self n
  obtain ⟨hnodes, houtput⟩ := List.mem_filter.mp hmem
  refine ⟨n, Graph.node?_of_mem hg.ids hnodes, hnodes, ?_⟩
  unfold Node.isOutputFor at houtput
  split at houtput
  next t hk => rw [hk, beq_iff_eq.mp houtput]
  next => cases houtput

/-- Outside the subnets nothing collects outputs, so a graph in which no stage reads what offers
    inputs asks for nothing. -/
theorem Graph.Wired.enclosed_root {output : NodeId} (hg : g.Wired)
    (houtput : g.outputNode b.target = .ok output)
    (htop : ∀ spec, ¬g.Asks b stage (output :: b.sideRoots g) .input spec)
    (blocks : List (List String)) :
    g.Enclosed b stage scope (output :: b.sideRoots g) blocks := by
  intro direction spec hasks
  exfalso
  cases hasks with
  | reads hn hinput hallow hc hsource hk hport =>
    exact htop _ (.reads hn hinput hallow hc hsource hk hport)
  | @collects n _ _ hn hk _ _ =>
    cases hn with
    | root hroot _ hfound =>
      rcases List.mem_cons.mp hroot with rfl | hside
      · obtain ⟨m, hm, _, hkind⟩ := hg.node?_output houtput
        obtain rfl := Option.some.inj (hfound.symm.trans hm)
        rw [hkind] at hk
        cases hk
      · obtain ⟨m, hm, rfl, hkind⟩ := Backend.sideRoots_spec hside
        obtain rfl := Option.some.inj (hfound.symm.trans (Graph.node?_of_mem hg.ids hm))
        rw [hkind] at hk
        cases hk
    -- a node that collects outputs has none itself, so nothing is fed by it
    | feed _ _ _ hc hsource =>
      have hname := (hg.feeds hc hsource).1
      obtain ⟨ports, hkind⟩ := Kind.exists_of_isSubnetOutput hk
      rw [Node.outputs, hkind] at hname
      cases hname

/-- Statements that use no variables are in scope everywhere. -/
theorem inScope_of_closed :
    ∀ {body : List Statement} {blocks : List (List String)}, (∀ st ∈ body, st.locals = []) →
      InScope blocks body
  | [], _, _ => trivial
  | st :: rest, blocks, h => by
    refine ⟨?_, inScope_of_closed fun st' hst' => h st' (List.mem_cons_of_mem _ hst')⟩
    rw [h st List.mem_cons_self]
    simp

/-- Relays leave the open blocks as they are. -/
theorem scopesAfter_relays {body : List Statement} (h : ∀ st ∈ body, ∃ name, st = .relay name) :
    scopesAfter (top :: outer) body = top :: outer := by
  have hplain : ∀ st ∈ body, st.isPlain = true := by
    intro st hst
    obtain ⟨name, rfl⟩ := h st hst
    rfl
  have hnone : declaredIn body = [] := by
    rw [declaredIn, List.flatMap_eq_nil_iff]
    intro st hst
    obtain ⟨name, rfl⟩ := h st hst
    rfl
  rw [scopesAfter_plain hplain, hnone]
  rfl

namespace Backend.Builds

variable {output : NodeId} {builds : List (Stage × List Part)} {p : Progress}

/-- The body of a stage as a whole is in scope, where all subnets that the stage uses declare what
    they are asked for and the graph itself asks for nothing. -/
theorem inScope_of_covered (h : b.Builds g context output builds p)
    (hg : g.Everywhere Graph.Wired)
    (hcovered : g.Covered b stage (Scope.root g.name) (output :: b.sideRoots g))
    (htop : ∀ spec, ¬g.Asks b stage (output :: b.sideRoots g) .input spec)
    (hstage : stage ∈ b.stages) :
    InScope [[]] (p.statements stage) ∧
      ∀ st ∈ p.statements stage, ∀ text, st ≠ .raw text := by
  obtain ⟨parts, before, after, hmem, hbody, hrelay⟩ := h.body_between hstage
  -- lines from other stages only hand attributes on
  have hclosed : ∀ st ∈ before ++ after, st.locals = [] := by
    intro st hst
    obtain ⟨name, rfl⟩ := hrelay st hst
    rfl
  have hblocks : scopesAfter [[]] before = [[]] :=
    scopesAfter_relays fun st hst => hrelay st (List.mem_append_left after hst)
  have hemits := h.emits _ hmem
  have hown : InBlocks [[]] (bodyOf stage parts) :=
    hemits.inScope hg hcovered (hg.here.enclosed_root h.found htop _)
  rw [hbody]
  constructor
  · refine inScope_append.mpr ⟨inScope_append.mpr ⟨?_, ?_⟩, ?_⟩
    · exact inScope_of_closed fun st hst => hclosed st (List.mem_append_left _ hst)
    · rw [hblocks]
      exact hown.inScope
    · exact inScope_of_closed fun st hst => hclosed st (List.mem_append_right _ hst)
  · intro st hst
    rcases List.mem_append.mp hst with hst | hst
    · rcases List.mem_append.mp hst with hst | hst
      · obtain ⟨name, rfl⟩ := hrelay st (List.mem_append_left _ hst)
        exact Statement.ne_raw_of_isPlain rfl
      · exact hown.noRaw st hst
    · obtain ⟨name, rfl⟩ := hrelay st (List.mem_append_right _ hst)
      exact Statement.ne_raw_of_isPlain rfl

/-- Networks that fit together are in scope. -/
theorem inScope (h : b.Builds g context output builds p) (hg : g.Everywhere Graph.Regular)
    (htop : ∀ n ∈ g.nodes, n.kind.isSubnetInput = false) (hstage : stage ∈ b.stages) :
    InScope [[]] (p.statements stage) ∧
      ∀ st ∈ p.statements stage, ∀ text, st ≠ .raw text := by
  refine h.inScope_of_covered (hg.mono fun _ => Graph.Regular.toWired)
    (Graph.covered_of_regular hg) ?_ hstage
  intro spec hasks
  cases hasks with
  | reads _ _ _ _ hsource hk _ =>
    rw [htop _ (Graph.mem_of_node? hsource)] at hk
    cases hk

/-- Whatever a statement of a stage names outside the body is declared in the stage, but for
    the matrix that the template declares. -/
theorem defined (h : b.Builds g context output builds p) (hstage : stage ∈ b.stages)
    {st : Statement} (hst : st ∈ p.statements stage) {key : Key} (hkey : key ∈ st.globals) :
    key ∈ p.keys stage ∨ key = normalMatrix := by
  obtain ⟨parts, before, after, hmem, hbody, hothers⟩ := h.body hstage
  have hin : ∃ build ∈ builds, st ∈ bodyOf stage build.2 := by
    rw [hbody, List.append_assoc, List.mem_append, List.mem_append] at hst
    rcases hst with hst | hst | hst
    · obtain ⟨other, hother, _, hst⟩ := hothers st (List.mem_append_left _ hst)
      exact ⟨other, hother, hst⟩
    · exact ⟨_, hmem, hst⟩
    · obtain ⟨other, hother, _, hst⟩ := hothers st (List.mem_append_right _ hst)
      exact ⟨other, hother, hst⟩
  obtain ⟨build, hbuild, hst⟩ := hin
  obtain ⟨part, hpart, hst⟩ := Part.mem_bodyOf.mp hst
  rcases ((h.emits _ hbuild).selfContained part hpart).covered stage st hst key hkey with
    hown | hbase | hnormal
  · exact .inl (h.keys_of_build hbuild (Part.mem_keysOf.mpr ⟨part, hpart, hown⟩))
  · exact .inl (h.keys_of_base hstage hbase)
  · exact .inr hnormal

end Backend.Builds

/-- **Everything used is declared first.**  Where the networks of a graph fit together and it
    compiles, every variable that a statement reads or assigns was declared before it in a
    block that is still open, and every attribute, varying, uniform, sampler and function that
    it names is among the definitions of its stage.  The one exception is the matrix for
    normals, which the template of the vertex stage declares. -/
theorem Backend.declares_first (b : Backend) (g : Graph) (context : Context)
    (hg : g.Everywhere Graph.Regular) (htop : ∀ n ∈ g.nodes, n.kind.isSubnetInput = false)
    (program : Program) (hprogram : (b.compile g context).2 = .ok program) :
    ∃ p, (b.compile g context).1.pass g context = .ok p ∧
      ∀ stage ∈ (b.compile g context).1.stages, ∀ front st back,
        p.statements stage = front ++ st :: back →
          (∀ text, st ≠ .raw text) ∧
          (∀ x ∈ st.locals, x ∈ (scopesAfter [[]] front).flatten) ∧
          ∀ key ∈ st.globals, key ∈ p.keys stage ∨ key = normalMatrix := by
  obtain ⟨p, hp⟩ := Backend.pass_of_compile hprogram
  obtain ⟨output, builds, hbuilds⟩ := Backend.builds_of_pass hp
  refine ⟨p, hp, fun stage hstage front st back hsplit => ?_⟩
  obtain ⟨hscope, hraw⟩ := hbuilds.inScope hg htop hstage
  have hst : st ∈ p.statements stage := by
    rw [hsplit]
    simp
  refine ⟨hraw st hst, ?_, fun key hkey => hbuilds.defined hstage hst hkey⟩
  rw [hsplit] at hscope
  exact hscope.before

/-! ## §6. Graphs that fit together, and one that does not -/

theorem negation_regular : negation.network.Everywhere Graph.Regular := by
  refine Graph.Everywhere.intro ⟨by decide, by decide, ?_⟩ ?_
  · intro n hn s hk
    simp only [negation, List.mem_cons, List.not_mem_nil, or_false] at hn
    rcases hn with rfl | rfl | rfl <;> cases hk
  · rintro inner ⟨n, hn, s, hk, rfl⟩
    simp only [negation, List.mem_cons, List.not_mem_nil, or_false] at hn
    rcases hn with rfl | rfl | rfl <;> cases hk

theorem negation_mirrored : negation.Mirrored := by
  constructor
  · intro n hn ports hk
    simp only [negation, List.mem_cons, List.not_mem_nil, or_false] at hn
    rcases hn with rfl | rfl | rfl <;> cases hk
    rfl
  · intro n hn ports hk
    simp only [negation, List.mem_cons, List.not_mem_nil, or_false] at hn
    rcases hn with rfl | rfl | rfl <;> cases hk
    rfl
  · intro name h
    cases h

theorem shading_regular : shading.Everywhere Graph.Regular := by
  refine Graph.Everywhere.intro ⟨by decide, by decide, ?_⟩ ?_
  · intro n hn s hk
    simp only [shading, List.mem_cons, List.not_mem_nil, or_false] at hn
    rcases hn with rfl | rfl | rfl <;> cases hk
    exact negation_mirrored
  · rintro inner ⟨n, hn, s, hk, rfl⟩
    simp only [shading, List.mem_cons, List.not_mem_nil, or_false] at hn
    rcases hn with rfl | rfl | rfl <;> cases hk
    exact negation_regular

/-- The points are shaded by variables that were declared before. -/
theorem shading_declares_first :
    ∃ p, Backend.points.pass shading {} = .ok p ∧
      InScope [[]] (p.statements .point) ∧
      ∀ front st back, p.statements .point = front ++ st :: back →
        ∀ x ∈ st.locals, x ∈ (scopesAfter [[]] front).flatten := by
  have hscope : (Backend.points.pass shading {}).map
      (fun p => decide (InScope [[]] (p.statements .point))) = .ok true := by
    decide +kernel
  obtain ⟨program, hprogram⟩ := shading_compiles
  obtain ⟨p, hp, hfirst⟩ := Backend.declares_first .points shading {} shading_regular
    (by decide) program hprogram
  have hpass : Backend.points.pass shading {} = .ok p := hp
  rw [hpass] at hscope
  refine ⟨p, hpass, of_decide_eq_true (Except.ok.inj hscope), ?_⟩
  exact fun front st back hsplit => (hfirst .point (by decide) front st back hsplit).2.1

/-- A material whose color comes from an output that its source does not have, and whose normal
    is fed, too. -/
def miswired : Graph :=
  { Graph.empty "miswired" with
    nodes :=
      [.make ⟨1⟩ "up" (.constant (.vector3 .zero .zero .one)),
       .make ⟨2⟩ "out" (.output .material)]
    connections :=
      [⟨⟨3⟩, ⟨1⟩, "value", ⟨2⟩, "normal"⟩, ⟨⟨4⟩, ⟨1⟩, "nothing", ⟨2⟩, "color"⟩] }

/-- Settings with templates that hold their markers only. -/
def bareContext : Context where
  config.material.vertexTemplate := some "// INSERT DEFINITIONS\n// INSERT BODY"
  config.material.fragmentTemplate := some "// INSERT DEFINITIONS\n// INSERT BODY"

/-- A connection that was inserted unchecked makes a stage read a variable that nothing
    declares, and the matrix for normals is among no definitions. -/
theorem miswired_uses_undeclared :
    (∀ n ∈ miswired.nodes, (∀ s, n.kind ≠ .subnet s) ∧ n.kind.isSubnetInput = false) ∧
    ∃ program p, (Backend.material.compile miswired bareContext).2 = .ok program ∧
      Backend.material.pass miswired bareContext = .ok p ∧
      (∃ front st back, p.statements .fragment = front ++ st :: back ∧
        "v_up_nothing" ∈ st.locals ∧ "v_up_nothing" ∉ (scopesAfter [[]] front).flatten) ∧
      (∃ st ∈ p.statements .vertex, normalMatrix ∈ st.globals) ∧
      normalMatrix ∉ p.keys .vertex := by
  constructor
  · intro n hn
    simp only [miswired, List.mem_cons, List.not_mem_nil, or_false] at hn
    rcases hn with rfl | rfl
    · exact ⟨nofun, rfl⟩
    · exact ⟨nofun, rfl⟩
  · have hcompile : (Backend.material.compile miswired bareContext).2.map (fun _ => ()) = .ok () := by
      decide +kernel
    obtain ⟨program, hprogram, _⟩ := map_eq_ok.mp hcompile
    obtain ⟨p, hp⟩ := Backend.pass_of_compile hprogram
    have hpass : Backend.material.pass miswired bareContext = .ok p := hp
    have hfragment : (Backend.material.pass miswired bareContext).map (·.statements .fragment) =
        .ok [.declare .vector3 "v_up_value" (.operand (.literal (.vector3 .zero .zero .one))),
          .declare .vector4 "diffuseColor"
            (.withAlpha (.var "v_up_nothing") (.literal (.float .one)))] := by
      decide +kernel
    have hvertex : (Backend.material.pass miswired bareContext).map (fun p =>
        decide ((∃ st ∈ p.statements .vertex, normalMatrix ∈ st.globals) ∧
          normalMatrix ∉ p.keys .vertex)) = .ok true := by
      decide +kernel
    rw [hpass] at hfragment hvertex
    refine ⟨program, p, hprogram, hpass, ?_, of_decide_eq_true (Except.ok.inj hvertex)⟩
    exact ⟨[_], _, [], Except.ok.inj hfragment, by decide, by decide⟩

end ShaderFlow
