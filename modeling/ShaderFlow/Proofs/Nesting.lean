/-
  ShaderFlow.Proofs.Nesting — the code of subnets stands in blocks, one unit deeper.

  Code is collected from the inside: the network of a subnet is compiled by itself, and what comes
  of it is put into a block, one unit of indentation deeper.  What this comes to for a whole
  hierarchy is said here from the outside, by a rule that speaks of nodes and their order only.

  Main definitions:
    * `Traced`, `Graph.LaysOut` — the lines that nodes of a network come to, by the rule;
    * `Entry.Balanced`          — lines in blocks, each indented by its level;
    * `Backend.Sends`           — lines that a node has for another stage.

  Main statements:
    * `Graph.LaysOut.unique`       — the rule leaves no choice;
    * `Graph.Emits.laysOut`        — a network that was emitted follows it;
    * `Backend.nests_subnets`      — and so does every stage of a compiled graph.
-/

import ShaderFlow.Proofs.Relays

namespace ShaderFlow

open Contribution

variable {b : Backend} {context : Context} {stage target : Stage} {scope : Scope}
  {roots : List NodeId} {g : Graph} {s : Site} {cs : List Contribution} {e : Entry}

/-! ## §1. The rule -/

/-- A line and the node that it comes from, in the network and the scope of the node. -/
structure Traced where
  site : Site
  entry : Entry

namespace Traced

/-- A line one unit deeper. -/
def indent (unit : String) (l : Traced) : Traced := { l with entry := l.entry.indent unit }

@[simp] theorem map_entry (s : Site) (es : List Entry) :
    (es.map (Traced.mk s)).map (·.entry) = es := by
  rw [List.map_map]
  exact List.map_id es

end Traced

/-- Statements of a node, with nothing in front of them. -/
def Site.plain (s : Site) (body : List Statement) : List Traced :=
  body.map fun statement => { site := s, entry := { statement } }

/-- **The lines of nodes**, one node after the other.  A leaf has what it writes into its own stage.
    A subnet has one binding for each of its inputs, one declaration for each of its outputs, the
    start of its block, the lines of its network by this very rule, each one unit deeper, and the
    end of its block. -/
inductive Graph.LaysOut (b : Backend) (context : Context) (stage : Stage) :
    Scope → Graph → List Node → List Traced → Prop where
  | nil {scope : Scope} {g : Graph} : Graph.LaysOut b context stage scope g [] []
  | leaf {scope : Scope} {g : Graph} {n : Node} {order : List Node} {s : Site}
      {cs : List Contribution} {rest : List Traced} (hs : s = ⟨g, n, stage, scope, context⟩)
      (hfound : g.node? n.id = some n) (hsubnet : ∀ subnet, n.kind ≠ .subnet subnet)
      (hemit : b.emitLeaf s n.kind = .ok cs)
      (hrest : Graph.LaysOut b context stage scope g order rest) :
      Graph.LaysOut b context stage scope g (n :: order)
        ((entries stage cs).map (Traced.mk s) ++ rest)
  | subnet {scope : Scope} {g : Graph} {n output : Node} {order inner : List Node} {s : Site}
      {subnet : Subnet} {bindings : List Statement} {lines rest : List Traced}
      (hs : s = ⟨g, n, stage, scope, context⟩) (hk : n.kind = .subnet subnet)
      (houtput : subnet.outputNode? = some output)
      (hbindings : List.Forall₂ (fun spec st => s.bindInput spec = .ok st) subnet.inputs bindings)
      (horder : b.stageOrder subnet.network (scope.enter n.name).path stage
        (output.id :: b.sideRoots subnet.network) = .ok inner)
      (hinner : Graph.LaysOut b context stage (scope.enter n.name) subnet.network inner lines)
      (hrest : Graph.LaysOut b context stage scope g order rest) :
      Graph.LaysOut b context stage scope g (n :: order)
        (s.plain bindings ++ s.plain (subnet.outputs.map s.declareOutput) ++
          s.plain [s.opener subnet.block] ++
          lines.map (Traced.indent context.config.formatting.indent) ++
          s.plain [.closeBlock] ++ rest)

namespace Graph.LaysOut

variable {order : List Node} {lines lines' : List Traced}

/-- The rule leaves no choice. -/
theorem unique (h : g.LaysOut b context stage scope order lines) :
    g.LaysOut b context stage scope order lines' → lines = lines' := by
  induction h generalizing lines' with
  | nil =>
    intro h'
    cases h'
    rfl
  | leaf hs _ hsubnet hemit _ ih =>
    intro h'
    cases h' with
    | leaf hs' _ _ hemit' hrest' =>
      subst hs hs'
      obtain rfl := Except.ok.inj (hemit.symm.trans hemit')
      rw [ih hrest']
    | subnet _ hk' => exact absurd hk' (hsubnet _)
  | subnet hs hk houtput hbindings horder _ _ ih ihrest =>
    intro h'
    cases h' with
    | leaf _ _ hsubnet' => exact absurd hk (hsubnet' _)
    | subnet hs' hk' houtput' hbindings' horder' hinner' hrest' =>
      subst hs hs'
      obtain rfl := Kind.subnet.inj (hk.symm.trans hk')
      obtain rfl := Option.some.inj (houtput.symm.trans houtput')
      obtain rfl := Except.ok.inj (horder.symm.trans horder')
      obtain rfl := Except.ok.inj
        ((mapM_eq_ok.mpr hbindings).symm.trans (mapM_eq_ok.mpr hbindings'))
      rw [ih hinner', ihrest hrest']

end Graph.LaysOut

/-! ## §2. Networks that were emitted -/

/-- **A network that was emitted follows the rule.** -/
theorem Graph.Emits.laysOut :
    ∀ {g : Graph} {scope : Scope} {roots : List NodeId} {parts : List Part},
      g.Emits b context stage scope roots parts →
        ∃ lines, g.LaysOut b context stage scope (parts.map (·.node)) lines ∧
          lines.map (·.entry) =
            parts.flatMap fun part => entries stage part.contributions := by
  intro g
  induction g using Graph.network_induction with
  | step g ih =>
    intro scope roots parts h
    -- the rule is about any of the parts, so that it can be built up from the last one
    have hsome : ∀ some : List Part, (∀ part ∈ some, part ∈ parts) →
        ∃ lines, g.LaysOut b context stage scope (some.map (·.node)) lines ∧
          lines.map (·.entry) = some.flatMap fun part => entries stage part.contributions := by
      intro some
      induction some with
      | nil => exact fun _ => ⟨[], .nil, rfl⟩
      | cons part some ihsome =>
        intro hsub
        have hpart := hsub part List.mem_cons_self
        obtain ⟨rest, hrest, hentries⟩ := ihsome fun q hq => hsub q (List.mem_cons_of_mem _ hq)
        rcases h.cases hpart with ⟨hsubnet, hemit⟩ |
          ⟨subnet, output, bindings, inner, hk, houtput, hbindings, hinner, hcs⟩
        · have hfound := h.schedules.found part.node (List.mem_map_of_mem hpart)
          refine ⟨_, .leaf rfl hfound hsubnet hemit hrest, ?_⟩
          rw [List.map_append, Traced.map_entry, List.flatMap_cons, hentries]
        · let s : Site := { graph := g, node := part.node, stage, scope, context }
          obtain ⟨lines, hlines, hbody⟩ :=
            ih _ ⟨part.node, h.node_mem hpart, subnet, hk, rfl⟩ hinner
          refine ⟨_, .subnet rfl hk houtput (mapM_eq_ok.mp hbindings) hinner.order hlines hrest, ?_⟩
          -- the code inside is collected from nothing, so it has the lines of its parts only
          have hown : ((Progress.start stage).addParts inner).lines stage =
              lines.map (·.entry) := by
            rw [Progress.lines_addParts_of_kept
              fun q hq => (hinner.selfContained q hq).kept, hbody]
            rfl
          have hsplice := s.entries_splice (s.opening subnet bindings)
            ((Progress.start stage).addParts inner)
          rw [List.flatMap_cons, hcs, hsplice, hown]
          simp [Site.plain, Site.opening, Traced.indent, hentries, s, Function.comp_def]
    exact hsome parts fun _ => id

/-! ## §3. Levels -/

namespace Entry

/-- The white space of a level. -/
def padding (unit : String) (level : Nat) : String := String.join (List.replicate level unit)

theorem padding_succ (unit : String) (level : Nat) :
    padding unit (level + 1) = unit ++ padding unit level := by
  rw [padding, List.replicate_succ, String.join_cons, padding]

/-- Lines in blocks: a line that is not the start or the end of a block has the white space of its
    level, and so have the start and the end of a block, with the lines in between one level
    deeper. -/
inductive Balanced (unit : String) : Nat → List Entry → Prop where
  | nil {level : Nat} : Balanced unit level []
  | plain {level : Nat} {e : Entry} {rest : List Entry} (hplain : e.statement.isPlain = true)
      (hpad : e.pad = padding unit level) (hrest : Balanced unit level rest) :
      Balanced unit level (e :: rest)
  | block {level : Nat} {inner rest : List Entry} (condition : Option Operand)
      (hinner : Balanced unit (level + 1) inner) (hrest : Balanced unit level rest) :
      Balanced unit level ({ pad := padding unit level, statement := .openBlock condition } ::
        inner ++ { pad := padding unit level, statement := .closeBlock } :: rest)

namespace Balanced

variable {unit : String} {level : Nat} {es more : List Entry}

theorem append (h : Balanced unit level es) :
    Balanced unit level more → Balanced unit level (es ++ more) := by
  induction h with
  | nil => exact id
  | plain hplain hpad _ ih => exact fun hmore => .plain hplain hpad (ih hmore)
  | block condition hinner _ _ ih =>
    intro hmore
    rw [List.append_assoc]
    exact .block condition hinner (ih hmore)

theorem of_plain (h : ∀ e ∈ es, e.statement.isPlain = true ∧ e.pad = padding unit level) :
    Balanced unit level es := by
  induction es with
  | nil => exact .nil
  | cons e es ih =>
    rw [List.forall_mem_cons] at h
    exact .plain h.1.1 h.1.2 (ih h.2)

/-- Everything is one level deeper when it is indented by one unit. -/
theorem indent (h : Balanced unit level es) :
    Balanced unit (level + 1) (es.map (Entry.indent unit)) := by
  induction h with
  | nil => exact .nil
  | @plain level e rest hplain hpad _ ih =>
    refine .plain hplain ?_ ih
    rw [padding_succ, ← hpad]
    rfl
  | block condition _ _ ih ihrest =>
    have hblock := Balanced.block condition ih ihrest
    simpa [Entry.indent, ← padding_succ] using hblock

end Balanced

end Entry

namespace Graph.LaysOut

open Entry

variable {order : List Node} {lines : List Traced}

/-- **A line has one unit of white space for each subnet around its node** that stands inside the
    network. -/
theorem pad_eq (h : g.LaysOut b context stage scope order lines) :
    ∀ l ∈ lines, ∃ level, l.site.scope.depth = scope.depth + level ∧
      l.entry.pad = padding context.config.formatting.indent level := by
  have hplain : ∀ {s : Site} {body : List Statement}, ∀ l ∈ s.plain body,
      ∃ level, l.site.scope.depth = s.scope.depth + level ∧
        l.entry.pad = padding context.config.formatting.indent level := by
    intro s body l hl
    obtain ⟨_, -, rfl⟩ := List.mem_map.mp hl
    exact ⟨0, rfl, rfl⟩
  induction h with
  | nil => exact List.forall_mem_nil _
  | leaf hs hfound _ hemit _ ih =>
    subst hs
    intro l hl
    rcases List.mem_append.mp hl with hl | hl
    · obtain ⟨e, he, rfl⟩ := List.mem_map.mp hl
      exact ⟨0, rfl, Backend.Brings.pad_eq (Backend.brings_of_emitLeaf hfound hemit) he⟩
    · exact ih l hl
  | subnet hs _ _ _ _ _ _ ih ihrest =>
    subst hs
    simp only [List.forall_mem_append]
    refine ⟨⟨⟨⟨⟨hplain, hplain⟩, hplain⟩, ?_⟩, hplain⟩, ihrest⟩
    intro l hl
    obtain ⟨inner, hinner, rfl⟩ := List.mem_map.mp hl
    obtain ⟨level, hdepth, hpad⟩ := ih inner hinner
    -- a line of the network inside is one level deeper, and one indentation further in
    refine ⟨level + 1, ?_, ?_⟩
    · show inner.site.scope.depth = _
      rw [hdepth]
      show _ + 1 + level = _
      omega
    · show _ ++ inner.entry.pad = _
      rw [hpad, padding_succ]

/-- **Every block is closed at the level at which it was opened.** -/
theorem balanced (h : g.LaysOut b context stage scope order lines) :
    Balanced context.config.formatting.indent 0 (lines.map (·.entry)) := by
  induction h with
  | nil => exact .nil
  | @leaf scope g n order s cs rest hs hfound hsubnet hemit _ ih =>
    subst hs
    rw [List.map_append, Traced.map_entry]
    refine (Balanced.of_plain ?_).append ih
    intro e he
    have hst : e.statement ∈ written stage cs := by
      rw [← map_entries]
      exact List.mem_map_of_mem he
    exact ⟨(leaf_of_emitLeaf hsubnet hfound hemit).2.plain _ hst,
      Backend.Brings.pad_eq (Backend.brings_of_emitLeaf hfound hemit) he⟩
  | @subnet scope g n output order inner s subnet bindings lines rest hs _ _ hbindings _ _ _ ih
      ihrest =>
    have hfront : ∀ {body : List Statement}, (∀ st ∈ body, st.isPlain = true) →
        Balanced context.config.formatting.indent 0 ((s.plain body).map (·.entry)) := by
      intro body hbody
      apply Balanced.of_plain
      intro e he
      rw [Site.plain, List.map_map] at he
      obtain ⟨st, hst, rfl⟩ := List.mem_map.mp he
      exact ⟨hbody st hst, rfl⟩
    have hbind : ∀ st ∈ bindings, st.isPlain = true := by
      intro st hst
      obtain ⟨_, -, _, -, rfl⟩ := Site.exists_of_mem_bindings (mapM_eq_ok.mpr hbindings) hst
      rfl
    have hdeclare : ∀ st ∈ subnet.outputs.map s.declareOutput, st.isPlain = true := by
      intro st hst
      obtain ⟨_, -, rfl⟩ := List.mem_map.mp hst
      rfl
    obtain ⟨condition, hopener⟩ : ∃ condition, s.opener subnet.block = .openBlock condition := by
      cases subnet.block <;> exact ⟨_, rfl⟩
    -- bindings and declarations stand in front of the block, at the level of the node
    have hblock := Balanced.block condition ih.indent ihrest
    have hall := ((hfront hbind).append (hfront hdeclare)).append hblock
    rw [hopener]
    simpa [Site.plain, Traced.indent, padding, Function.comp_def] using hall

end Graph.LaysOut

/-! ## §4. Lines for other stages -/

/-- A line that a leaf which another stage comes to has for this one. -/
def Backend.Sends (b : Backend) (g : Graph) (context : Context) (stage : Stage) (e : Entry) :
    Prop :=
  ∃ s cs, b.Meets g context s ∧ s.stage ≠ stage ∧ b.emitLeaf s s.node.kind = .ok cs ∧
    e ∈ entries stage cs

namespace Backend.Builds

variable {output : NodeId} {builds : List (Stage × List Part)} {p : Progress}

/-- What a stage gets while other stages are built. -/
theorem lines_others :
    ∀ (others : List (Stage × List Part)) (p : Progress),
      (∀ other ∈ others, ∀ part ∈ other.2, Modest stage part.contributions) →
        ∃ sent, (others.foldl (fun p build => p.addParts build.2) p).lines stage =
            p.lines stage ++ sent ∧
          ∀ e ∈ sent, ∃ other ∈ others, ∃ part ∈ other.2, e ∈ entries stage part.contributions
  | [], p, _ => ⟨[], (List.append_nil _).symm, List.forall_mem_nil _⟩
  | other :: others, p, hmodest => by
    obtain ⟨added, hbody, -, hadded⟩ :=
      (Progress.gains_addParts stage other.2 p (hmodest other List.mem_cons_self)).gained
    obtain ⟨rest, hrest, hlater⟩ := lines_others others (p.addParts other.2)
      fun more hmore => hmodest more (List.mem_cons_of_mem _ hmore)
    refine ⟨added.map (·.entry) ++ rest, ?_, ?_⟩
    · rw [List.foldl_cons, hrest, Progress.lines, hbody, List.map_append, List.append_assoc]
      rfl
    · intro e he
      rcases List.mem_append.mp he with he | he
      · obtain ⟨l, hl, rfl⟩ := List.mem_map.mp he
        obtain ⟨part, hpart, hl⟩ := List.mem_flatMap.mp (hadded l hl).1
        exact ⟨other, List.mem_cons_self, part, hpart, hl⟩
      · obtain ⟨more, hmore, hpart⟩ := hlater e he
        exact ⟨more, List.mem_cons_of_mem _ hmore, hpart⟩

/-- Lines that a stage gets while another stage is built are sent there: in a material, to the
    vertex stage, to hand on an attribute. -/
theorem sends_of_other (h : b.Builds g context output builds p) {other : Stage × List Part}
    (hother : other ∈ builds) (hne : other.1 ≠ stage) {part : Part} (hpart : part ∈ other.2)
    (he : e ∈ entries stage part.contributions) :
    b.Sends g context stage e ∧
      b = .material ∧ stage = .vertex ∧ ∃ name, e = { statement := .relay name } := by
  obtain ⟨s, cs, hs, hemit, he⟩ :=
    Graph.Emits.exists_sender hne.symm (h.emits other hother) part hpart e he
  have hfound := hs.found
  have hstage := hs.stage_eq
  have hmem : other.1 ∈ b.stages := by
    rw [← h.stages]
    exact List.mem_map_of_mem hother
  rw [← hstage] at hs hne hmem
  obtain ⟨hb, htarget, name, _, -, heq⟩ :=
    Backend.Brings.of_mem_entries (Backend.brings_of_emitLeaf hfound hemit) hne.symm he
  exact ⟨⟨s, cs, ⟨output, h.found, hmem, hs⟩, hne, hemit, he⟩, hb, htarget, name, heq⟩

theorem lines_begin (config : Config) (output : NodeId) :
    (b.begin config output).lines stage = [] := by
  have hstatements : (b.begin config output).statements stage = [] :=
    Backend.statements_begin config output
  rw [Progress.statements, List.map_eq_nil_iff] at hstatements
  rw [Progress.lines, hstatements, List.map_nil]

/-- **The body of a stage** is what the stage was built from, and behind it what was sent there. -/
theorem lines_eq (h : b.Builds g context output builds p) (hstage : stage ∈ b.stages) :
    ∃ parts sent, (stage, parts) ∈ builds ∧
      p.lines stage =
        (parts.flatMap fun part => entries stage part.contributions) ++ sent ∧
      ∀ e ∈ sent, b.Sends g context stage e ∧ ∃ name, e = { statement := .relay name } := by
  obtain ⟨front, parts, back, hsplit, hother⟩ := h.split hstage
  have hmem : (stage, parts) ∈ builds := by
    rw [hsplit]
    exact List.mem_append_right _ List.mem_cons_self
  have hmodest : ∀ other ∈ front ++ back, ∀ part ∈ other.2, Modest stage part.contributions :=
    fun other hin part hpart => (h.emits other (hother other hin).1).modest hpart
      (hother other hin).2.symm
  obtain ⟨before, hbefore, hearly⟩ := lines_others front (b.begin context.config output)
    fun other hin => hmodest other (List.mem_append_left _ hin)
  obtain ⟨sent, hafter, hlate⟩ := lines_others back
    ((front.foldl (fun p build => p.addParts build.2)
      (b.begin context.config output)).addParts parts)
    fun other hin => hmodest other (List.mem_append_right _ hin)
  have hown := Progress.lines_addParts_of_kept
    (p := front.foldl (fun p build => p.addParts build.2) (b.begin context.config output))
    fun part hpart => ((h.emits _ hmem).selfContained part hpart).kept
  -- only the vertex stage is sent anything, and it is built first
  have hnothing : before = [] := by
    rw [List.eq_nil_iff_forall_not_mem]
    intro e he
    obtain ⟨other, hin, part, hpart, he⟩ := hearly e he
    obtain ⟨hbuilt, hne⟩ := hother other (List.mem_append_left _ hin)
    obtain ⟨-, rfl, rfl, -⟩ := h.sends_of_other hbuilt hne hpart he
    have hstages := h.stages
    rw [hsplit] at hstages
    cases front with
    | nil => cases hin
    | cons first front =>
      have hfirst : first.1 = .vertex := (List.cons.inj hstages).1
      exact (hother first (List.mem_append_left _ List.mem_cons_self)).2 hfirst
  refine ⟨parts, sent, hmem, ?_, ?_⟩
  · rw [h.result, hsplit, List.foldl_append, List.foldl_cons, hafter, hown, hbefore, hnothing,
      lines_begin]
    rfl
  · intro e he
    obtain ⟨other, hin, part, hpart, he⟩ := hlate e he
    obtain ⟨hbuilt, hne⟩ := hother other (List.mem_append_right _ hin)
    obtain ⟨hsends, -, -, hrelay⟩ := h.sends_of_other hbuilt hne hpart he
    exact ⟨hsends, hrelay⟩

end Backend.Builds

/-! ## §5. Compiled graphs -/

/-- How the body of a stage is laid out: `lines` are what the nodes come to that the stage needs of
    the graph, and `sent` is what other stages have for it. -/
structure Progress.LaidOut (b : Backend) (g : Graph) (context : Context) (stage : Stage)
    (lines : List Traced) (sent : List Entry) (p : Progress) : Prop where
  /-- The body holds these lines, in this order, and no others. -/
  body : p.lines stage = lines.map (·.entry) ++ sent
  /-- The nodes come to their lines by the rule, in the order in which they are emitted. -/
  rule : ∃ output order, g.outputNode b.target = .ok output ∧
    b.stageOrder g (Scope.root g.name).path stage (output :: b.sideRoots g) = .ok order ∧
    g.LaysOut b context stage (Scope.root g.name) order lines
  /-- What comes behind was sent from other stages. -/
  sent : ∀ e ∈ sent, b.Sends g context stage e
  /-- A line has one unit of indentation for each subnet around its node. -/
  padded : ∀ l ∈ lines,
    l.entry.pad = Entry.padding context.config.formatting.indent l.site.scope.depth
  /-- Every block is closed at the level at which it was opened. -/
  balanced : Entry.Balanced context.config.formatting.indent 0 (p.lines stage)

theorem Backend.Builds.laidOut {output : NodeId} {builds : List (Stage × List Part)}
    {p : Progress} (h : b.Builds g context output builds p) (hstage : stage ∈ b.stages) :
    ∃ lines sent, p.LaidOut b g context stage lines sent := by
  obtain ⟨parts, sent, hmem, hbody, hsent⟩ := h.lines_eq hstage
  have hemits := h.emits _ hmem
  obtain ⟨lines, hlines, hentries⟩ := hemits.laysOut
  rw [← hentries] at hbody
  refine ⟨lines, sent, hbody, ⟨output, _, h.found, hemits.order, hlines⟩,
    fun e he => (hsent e he).1, ?_, ?_⟩
  · intro l hl
    obtain ⟨level, hdepth, hpad⟩ := hlines.pad_eq l hl
    have hdepth : l.site.scope.depth = level := hdepth.trans (Nat.zero_add level)
    rw [hpad, hdepth]
  · rw [hbody]
    refine hlines.balanced.append (.of_plain ?_)
    intro e he
    obtain ⟨name, rfl⟩ := (hsent e he).2
    exact ⟨rfl, rfl⟩

/-- **Subnets nest.**  When a graph compiles, the body of each stage is the lines of the nodes that
    the stage needs, node after node, with a block for each subnet around the lines of its network;
    behind them stands only what other stages sent.  Each line has as many units of indentation as
    there are subnets around its node, and each block ends at the level at which it starts. -/
theorem Backend.nests_subnets {left : Backend} {program : Program}
    (h : b.compile g context = (left, .ok program)) :
    ∃ p, left.pass g context = .ok p ∧
      ∀ stage ∈ left.stages, ∃ lines sent, p.LaidOut left g context stage lines sent := by
  obtain ⟨p, hp⟩ := Backend.pass_of_compile (congrArg Prod.snd h)
  rw [congrArg Prod.fst h] at hp
  obtain ⟨output, builds, hbuilds⟩ := Backend.builds_of_pass hp
  exact ⟨p, hp, fun stage hstage => hbuilds.laidOut hstage⟩

/-- A subnet around the subnet `tap`, in a block that runs if the input `open` is set. -/
def valve : Subnet where
  inputs := [⟨"open", .bool⟩]
  outputs := [⟨"y", .float⟩]
  block := .conditional "open"
  network :=
    { Graph.empty "valve" with
      nodes :=
        [.make ⟨30⟩ "input" (.subnetInput [⟨"open", .bool⟩]),
         .make ⟨31⟩ "output" (.subnetOutput [⟨"y", .float⟩]),
         .make ⟨32⟩ "tap" (.subnet Material.tap)]
      connections := [⟨⟨40⟩, ⟨32⟩, "y", ⟨31⟩, "y"⟩]
      version := 4 }

/-- A material whose alpha comes out of a subnet in a subnet, from an attribute. -/
def piped : Graph :=
  { Graph.empty "g" with
    nodes :=
      [.make ⟨1⟩ "out" (.output .material),
       .make ⟨2⟩ "valve" (.subnet valve)]
    connections := [⟨⟨3⟩, ⟨2⟩, "y", ⟨1⟩, "alpha"⟩]
    version := 3 }

/-- The fragment stage has a block in a block; the vertex stage hands the attribute on, outside of
    every block. -/
theorem piped_nests : ∃ program p,
    Backend.material.compile piped {} = (.material, .ok program) ∧
      Backend.material.pass piped {} = .ok p ∧
      (∀ stage ∈ Backend.material.stages, ∃ lines sent,
        p.LaidOut .material piped {} stage lines sent) ∧
      (p.lines .vertex).map Entry.text =
        ["vec3 transformed = position;", "v_attr_weight = weight;"] ∧
      (p.lines .fragment).map Entry.text =
        ["bool v_valve_input_open = false;",
         "float v_valve_y = 0.0;",
         "if (v_valve_input_open) \x7b",
         "\tfloat v_valve_tap_y = 0.0;",
         "\tif (true) \x7b",
         "\t\tfloat v_valve_tap_weight_value = v_attr_weight;",
         "\t\tv_valve_tap_y = v_valve_tap_weight_value;",
         "\t\x7d",
         "\tv_valve_y = v_valve_tap_y;",
         "\x7d",
         "vec4 diffuseColor = vec4(vec3(1.0, 1.0, 1.0), v_valve_y);"] := by
  have hpass : (Backend.material.pass piped {}).map (fun p =>
      ((p.lines .vertex).map Entry.text, (p.lines .fragment).map Entry.text)) =
      .ok (["vec3 transformed = position;", "v_attr_weight = weight;"],
        ["bool v_valve_input_open = false;",
         "float v_valve_y = 0.0;",
         "if (v_valve_input_open) \x7b",
         "\tfloat v_valve_tap_y = 0.0;",
         "\tif (true) \x7b",
         "\t\tfloat v_valve_tap_weight_value = v_attr_weight;",
         "\t\tv_valve_tap_y = v_valve_tap_weight_value;",
         "\t\x7d",
         "\tv_valve_y = v_valve_tap_y;",
         "\x7d",
         "vec4 diffuseColor = vec4(vec3(1.0, 1.0, 1.0), v_valve_y);"]) := by
    decide +kernel
  obtain ⟨p, hp, heval⟩ := map_eq_ok.mp hpass
  obtain ⟨hvertex, hfragment⟩ := Prod.mk.inj heval
  obtain ⟨program, hcompile, -⟩ := Backend.compile_material rfl hp
  obtain ⟨p', hp', hlaid⟩ := Backend.nests_subnets hcompile
  obtain rfl := Except.ok.inj (hp.symm.trans hp')
  exact ⟨_, p, hcompile, hp, hlaid, hvertex, hfragment⟩

end ShaderFlow
