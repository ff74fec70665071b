/-
  ShaderFlow.Proofs.Relays — how attributes reach the fragment stage.

  What reads an attribute in the fragment stage, at whatever depth, asks the vertex stage for a
  line that hands the attribute on.  Such lines go up through the programs of the subnets
  around, each of which leaves out a line whose text it has already.  So the vertex stage gets
  each of them once, unless its own code has a line of the very same text.

  Main definitions:
    * `Gains`             — lines that are added to a body, each text once;
    * `Backend.Brings`    — what a leaf may add, and to which stage;
    * `Entry.Laid`        — lines of a program in blocks;
    * `Material.Relayed`  — what becomes of the attributes that the fragment stage reads.

  Main statements:
    * `Progress.gains_addParts`     — what parts add to a stage that is not theirs;
    * `Graph.Emits.exists_sender`   — lines for another stage come from leaves as they are;
    * `Graph.Emits.reads_of_entry`  — lines for the vertex stage come from readers;
    * `Graph.Emits.entry_of_reads`  — and every reader brings its line;
    * `Entry.Laid.text_ne`          — the code of the vertex stage itself reads differently;
    * `Material.relays_attributes`  — the same for compiled materials.
-/

import ShaderFlow.Proofs.Agreement
import ShaderFlow.Proofs.Listings
import ShaderFlow.Proofs.Scoping
import ShaderFlow.Proofs.Varyings

namespace ShaderFlow

open Contribution

variable {b : Backend} {context : Context} {stage target : Stage} {scope : Scope}
  {roots : List NodeId} {g : Graph} {s : Site} {cs : List Contribution} {e : Entry}

/-! ## §1. Lines of contributions -/

namespace Contribution

theorem mem_entries :
    e ∈ entries stage cs ↔ ∃ es repetition, .write stage es repetition ∈ cs ∧ e ∈ es := by
  rw [entries, List.mem_flatMap]
  constructor
  · rintro ⟨c, hc, he⟩
    cases c with
    | write target es repetition =>
      rw [entriesFor] at he
      split at he
      next heq =>
        subst heq
        exact ⟨es, repetition, hc, he⟩
      next => cases he
    | define _ _ => cases he
    | note _ => cases he
  · rintro ⟨es, repetition, hc, he⟩
    refine ⟨_, hc, ?_⟩
    rw [entriesFor, if_pos rfl]
    exact he

/-- Contributions that write into a stage only what is not there yet. -/
def Modest (stage : Stage) (cs : List Contribution) : Prop :=
  ∀ es repetition, .write stage es repetition ∈ cs → repetition = .once

end Contribution

/-! ## §2. Lines that are added once -/

/-- What comes of a body when lines are asked for: it only grows, by lines that were asked for
    and whose texts it did not have, each once; and in the end it has the text of every line
    that was asked for. -/
structure Gains (before after : List Line) (asked : List Entry) : Prop where
  gained : ∃ added, after = before ++ added ∧ (added.map Line.text).Nodup ∧
    ∀ l ∈ added, l.entry ∈ asked ∧ ∀ other ∈ before, other.text ≠ l.text
  met : ∀ e ∈ asked, ∃ l ∈ after, l.text = e.text

namespace Gains

variable {before middle after : List Line} {asked more : List Entry}

theorem refl (before : List Line) : Gains before before [] where
  gained := ⟨[], by simp, List.nodup_nil, List.forall_mem_nil _⟩
  met := List.forall_mem_nil _

theorem trans (h : Gains before middle asked) (hmore : Gains middle after more) :
    Gains before after (asked ++ more) := by
  obtain ⟨first, rfl, hfirst, hasked⟩ := h.gained
  obtain ⟨rest, rfl, hrest, hlater⟩ := hmore.gained
  constructor
  · refine ⟨first ++ rest, by rw [List.append_assoc], ?_, ?_⟩
    · rw [List.map_append, List.nodup_append]
      refine ⟨hfirst, hrest, ?_⟩
      intro text htext other hother
      obtain ⟨l, hl, rfl⟩ := List.mem_map.mp htext
      obtain ⟨l', hl', rfl⟩ := List.mem_map.mp hother
      -- the first lines were there when the others were added
      exact (hlater l' hl').2 l (List.mem_append_right _ hl)
    · intro l hl
      rcases List.mem_append.mp hl with hl | hl
      · exact ⟨List.mem_append_left _ (hasked l hl).1, (hasked l hl).2⟩
      · refine ⟨List.mem_append_right _ (hlater l hl).1, ?_⟩
        intro other hother
        exact (hlater l hl).2 other (List.mem_append_left _ hother)
  · intro e he
    rcases List.mem_append.mp he with he | he
    · obtain ⟨l, hl, htext⟩ := h.met e he
      exact ⟨l, List.mem_append_left _ hl, htext⟩
    · exact hmore.met e he

/-- A line that was asked for is there once, unless its text was there before. -/
theorem filter_eq (h : Gains before after asked) (he : e ∈ asked)
    (hnew : ∀ l ∈ before, l.text ≠ e.text) :
    ∃ l, after.filter (·.text == e.text) = [l] ∧ l.entry ∈ asked := by
  obtain ⟨added, rfl, hnodup, hadded⟩ := h.gained
  obtain ⟨l, hl, htext⟩ := h.met e he
  have hl : l ∈ added := by
    rcases List.mem_append.mp hl with hl | hl
    · exact absurd htext (hnew l hl)
    · exact hl
  refine ⟨l, ?_, (hadded l hl).1⟩
  have hbefore : before.filter (·.text == e.text) = [] := by
    rw [List.filter_eq_nil_iff]
    intro other hother heq
    exact hnew other hother (eq_of_beq heq)
  rw [List.filter_append, hbefore, List.nil_append, ← htext]
  exact filter_key_eq hnodup hl

/-- What one node writes if each text goes there once. -/
theorem of_fills {owner : NodeId} (h : Listing.Fills .once owner asked before after) :
    Gains before after asked := by
  obtain ⟨added, rfl, hsub, hfresh, hpairwise, -⟩ := h.grown
  refine ⟨⟨added, rfl, List.pairwise_map.mpr hpairwise, fun l hl => ⟨?_, hfresh l hl⟩⟩, ?_⟩
  · obtain ⟨e, he, rfl⟩ := List.mem_map.mp (hsub.subset hl)
    exact he
  · intro e he
    rcases h.met e he with hmem | ⟨other, hother, hrepeats⟩
    · exact ⟨_, hmem, rfl⟩
    · exact ⟨other, hother, hrepeats⟩

end Gains

theorem mem_foldl_writeOne {repetition : Repetition} {owner : NodeId} {es : List Entry}
    {body : List Line} {l : Line} (h : l ∈ es.foldl (Listing.writeOne repetition owner) body) :
    l ∈ body ∨ l.entry ∈ es := by
  have hfills : Listing.Fills repetition owner es body _ := Listing.fills_foldl_writeOne es body
  obtain ⟨added, hadded, hsub, -⟩ := hfills.grown
  rw [hadded] at h
  rcases List.mem_append.mp h with h | h
  · exact .inl h
  · obtain ⟨e, he, rfl⟩ := List.mem_map.mp (hsub.subset h)
    exact .inr he

namespace Progress

variable {p : Progress}

theorem gains_foldl_add (owner : NodeId) (stage : Stage) :
    ∀ (cs : List Contribution) (p : Progress), Modest stage cs →
      Gains (p.listing.body stage) ((cs.foldl (add owner) p).listing.body stage)
        (entries stage cs)
  | [], p, _ => .refl _
  | c :: cs, p, hmodest => by
    have hfirst : Gains (p.listing.body stage) ((p.add owner c).listing.body stage)
        (entriesFor stage c) := by
      rw [body_add]
      cases c with
      | define _ _ => exact .refl _
      | note _ => exact .refl _
      | write target es repetition =>
        simp only [entriesFor]
        split
        next heq =>
          subst heq
          rw [hmodest es repetition List.mem_cons_self]
          exact .of_fills (Listing.fills_foldl_writeOne es _)
        next => exact .refl _
    have hrest := gains_foldl_add owner stage cs (p.add owner c)
      fun es repetition hmem => hmodest es repetition (List.mem_cons_of_mem _ hmem)
    exact hfirst.trans hrest

/-- **What parts add to a stage** that they do not belong to. -/
theorem gains_addParts (stage : Stage) :
    ∀ (parts : List Part) (p : Progress), (∀ part ∈ parts, Modest stage part.contributions) →
      Gains (p.listing.body stage) ((p.addParts parts).listing.body stage)
        (parts.flatMap fun part => entries stage part.contributions)
  | [], _, _ => .refl _
  | part :: parts, p, hmodest =>
    (gains_foldl_add part.node.id stage part.contributions p
        (hmodest part List.mem_cons_self)).trans
      (gains_addParts stage parts _ fun q hq => hmodest q (List.mem_cons_of_mem _ hq))

/-- Whatever is written, a line of a body was there before or was asked for. -/
theorem mem_body_add {owner : NodeId} {c : Contribution} {l : Line}
    (h : l ∈ (p.add owner c).listing.body stage) :
    l ∈ p.listing.body stage ∨ l.entry ∈ entriesFor stage c := by
  rw [body_add] at h
  cases c with
  | define _ _ => exact .inl h
  | note _ => exact .inl h
  | write target es repetition =>
    unfold entriesFor
    by_cases htarget : target = stage
    · simp only [if_pos htarget] at h ⊢
      exact mem_foldl_writeOne h
    · simp only [if_neg htarget] at h
      exact .inl h

theorem mem_body_foldl_add {owner : NodeId} {l : Line}
    (h : l ∈ (cs.foldl (add owner) p).listing.body stage) :
    l ∈ p.listing.body stage ∨ l.entry ∈ entries stage cs := by
  induction cs generalizing p with
  | nil => exact .inl h
  | cons c cs ih =>
    rw [entries, List.flatMap_cons, List.mem_append]
    rcases ih h with h | h
    · exact (mem_body_add h).imp_right .inl
    · exact .inr (.inr h)

theorem mem_body_addParts {parts : List Part} {l : Line}
    (h : l ∈ (p.addParts parts).listing.body stage) :
    l ∈ p.listing.body stage ∨ ∃ part ∈ parts, l.entry ∈ entries stage part.contributions := by
  induction parts generalizing p with
  | nil => exact .inl h
  | cons part parts ih =>
    rcases ih h with h | ⟨q, hq, h⟩
    · rcases mem_body_foldl_add h with h | h
      · exact .inl h
      · exact .inr ⟨part, List.mem_cons_self, h⟩
    · exact .inr ⟨q, List.mem_cons_of_mem _ hq, h⟩

end Progress

/-! ## §3. Subnets -/

namespace Site

variable {front : List Statement} {nested : Progress}

/-- **What a subnet writes**: into other stages the lines of its code for them, once; into its
    own stage its code, one unit deeper, between what opens its block and the end of it. -/
theorem mem_splice_write {es : List Entry} {repetition : Repetition} :
    .write target es repetition ∈ s.splice front nested ↔
      (target ≠ s.stage ∧ target ∈ nested.listing.stages ∧
        es = (nested.listing.body target).map (·.entry) ∧ repetition = .once) ∨
      (target = s.stage ∧ repetition = .allowed ∧
        es = front.map (fun statement => ({ statement } : Entry)) ++
          (nested.listing.body s.stage).map
            (fun line => line.entry.indent s.context.config.formatting.indent) ++
          [{ statement := .closeBlock }]) := by
  -- a network is written once for each other stage that it has lines for
  have hforward : ∀ other, .write target es repetition ∈ s.forward nested.listing other ↔
      other ≠ s.stage ∧ target = other ∧ es = (nested.listing.body other).map (·.entry) ∧
        repetition = .once := by
    intro other
    unfold forward
    by_cases hother : other = s.stage
    · simp [hother]
    · simp [hother]
  rw [splice, List.mem_append, List.mem_append, List.mem_flatMap]
  constructor
  · rintro ((h | ⟨other, hstage, h⟩) | h)
    · obtain ⟨n, -, heq⟩ := List.mem_map.mp h
      cases heq
    · obtain ⟨hne, rfl, hes, hrepetition⟩ := (hforward other).mp h
      exact .inl ⟨hne, hstage, hes, hrepetition⟩
    · obtain ⟨htarget, hes, hrepetition⟩ := write.inj (List.mem_singleton.mp h)
      exact .inr ⟨htarget, hrepetition, hes⟩
  · rintro (⟨hne, hstage, hes, hrepetition⟩ | ⟨rfl, rfl, rfl⟩)
    · exact .inl (.inr ⟨target, hstage, (hforward target).mpr ⟨hne, rfl, hes, hrepetition⟩⟩)
    · exact .inr (List.mem_singleton_self _)

/-- What a subnet writes into another stage it does not repeat. -/
theorem modest_splice (hne : target ≠ s.stage) : Modest target (s.splice front nested) := by
  intro es repetition h
  rcases mem_splice_write.mp h with ⟨-, -, -, hrepetition⟩ | ⟨htarget, -⟩
  · exact hrepetition
  · exact absurd htarget hne

/-- It writes there the lines of its code for that stage. -/
theorem mem_entries_splice (hne : target ≠ s.stage) :
    e ∈ entries target (s.splice front nested) ↔
      ∃ l ∈ nested.listing.body target, l.entry = e := by
  rw [mem_entries]
  constructor
  · rintro ⟨es, repetition, h, he⟩
    rcases mem_splice_write.mp h with ⟨-, -, rfl, -⟩ | ⟨htarget, -⟩
    · exact List.mem_map.mp he
    · exact absurd htarget hne
  · rintro ⟨l, hl, rfl⟩
    -- a stage with lines is one that was touched
    have hkeys : target ∈ nested.listing.bodies.keys := by
      by_contra hnot
      rw [Listing.body, Table.get?_eq_none.mpr hnot] at hl
      cases hl
    have hstage : target ∈ nested.listing.stages := by
      by_cases hdefined : target ∈ nested.listing.definitions.keys
      · exact List.mem_append_left _ hdefined
      · exact List.mem_append_right _ (List.mem_filter.mpr ⟨hkeys, by simpa using hdefined⟩)
    exact ⟨_, .once, mem_splice_write.mpr (.inl ⟨hne, hstage, rfl, rfl⟩), List.mem_map_of_mem hl⟩

/-- In its own stage a subnet writes what opens it, its code and the end of its block. -/
theorem cases_entries_splice (h : e ∈ entries s.stage (s.splice front nested)) :
    (∃ st ∈ front, e = { statement := st }) ∨
      (∃ l ∈ nested.listing.body s.stage,
        e = l.entry.indent s.context.config.formatting.indent) ∨
      e = { statement := .closeBlock } := by
  simp only [entries_splice, Progress.lines, List.mem_append, List.mem_map,
    List.mem_singleton] at h
  obtain (⟨st, hst, rfl⟩ | ⟨_, ⟨l, hl, rfl⟩, rfl⟩) | rfl := h
  · exact .inl ⟨st, hst, rfl⟩
  · exact .inr (.inl ⟨l, hl, rfl⟩)
  · exact .inr (.inr rfl)

end Site

/-! ## §4. Leaves -/

/-- What a leaf adds: whatever it declares and notes, lines without white space in front for its
    own stage, which compute in a material, and in any stage of a material but the vertex stage a
    line of the vertex stage for each attribute that it reads. -/
inductive Backend.Brings (b : Backend) (s : Site) : Contribution → Prop where
  | define (stage : Stage) (declarations : List Declaration) :
      b.Brings s (.define stage declarations)
  | note (n : Note) : b.Brings s (.note n)
  | own {body : List Statement} (h : b = .material → ∀ st ∈ body, st.isComputation = true) :
      b.Brings s (.statements s.stage body)
  | relay {name : String} {type : PortType} (hb : b = .material)
      (hreads : Material.Reads s name type) (hne : s.stage ≠ .vertex) :
      b.Brings s (.write .vertex [{ statement := .relay name }] .once)

namespace Backend

variable {name : String} {type : PortType}

theorem brings_declare (output : String) (value : Expr) :
    b.Brings s (.statements s.stage [s.declare output value]) :=
  .own fun _ => List.forall_mem_singleton.mpr rfl

theorem brings_of_samples {c : Contribution} (h : s.Samples c) : b.Brings s c := by
  cases h with
  | sampler texture => exact .define _ _
  | note name => exact .note _

theorem brings_readAttribute (hreads : Material.Reads s name type) :
    ∀ c ∈ (Material.readAttribute s name type).contributions, Backend.material.Brings s c := by
  unfold Material.readAttribute
  by_cases hstage : s.stage = .vertex
  · rw [if_pos hstage]
    simp only [List.forall_mem_cons]
    exact ⟨.note _, .define _ _, List.forall_mem_nil _⟩
  · rw [if_neg hstage]
    simp only [List.cons_append, List.nil_append, List.forall_mem_cons]
    exact ⟨.note _, .define _ _, .define _ _, .define _ _, .relay rfl hreads hstage,
      List.forall_mem_nil _⟩

/-- A value of the host is declared and noted; in a material some are attributes. -/
theorem ReadsGlobal.brings {output : String} {r : Reading} (hk : s.node.kind = .globals)
    (houtput : output ∈ Kind.globalOutputs.map (·.name))
    (hused : s.graph.isOutputConnected s.node.id output = true)
    (h : b.ReadsGlobal s output r) : ∀ c ∈ r.contributions, b.Brings s c := by
  cases h with
  | time => exact List.forall_mem_cons.mpr ⟨.define _ _, List.forall_mem_singleton.mpr (.note _)⟩
  | resolution _ =>
    exact List.forall_mem_cons.mpr ⟨.define _ _, List.forall_mem_singleton.mpr (.note _)⟩
  | noted => exact List.forall_mem_singleton.mpr (.note _)
  | fragCoord _ | place _ => exact List.forall_mem_nil _
  | position => exact brings_readAttribute (.geometry hk (by simp) hused)
  | uv hother =>
    obtain rfl := Kind.eq_uv_of_mem_globalOutputs houtput hother
    exact brings_readAttribute (.geometry hk (by simp) hused)
  | sampled hread => exact fun c hc => brings_of_samples (Particles.samples_read hread c hc)
  | field _ => exact fun c hc => brings_of_samples (Points.samples_readField _ c hc)

theorem brings_exchange {readings : List Reading} {writes : List (Contribution × Statement)}
    (hb : b ≠ .material) (hreadings : ∀ r ∈ readings, ∀ c ∈ r.contributions, s.Samples c)
    (hwrites : ∀ write ∈ writes, ∃ name, write.1 = .note (.writes name)) :
    ∀ c ∈ s.exchange readings writes, b.Brings s c := by
  refine Site.forall_mem_exchange (fun r hr c hc => brings_of_samples (hreadings r hr c hc)) ?_
    fun _ => .own fun heq => absurd heq hb
  intro write hwrite
  obtain ⟨name, hnote⟩ := hwrites write hwrite
  rw [hnote]
  exact .note _

/-- In the vertex stage the output node computes, and may read the position of the vertex. -/
theorem brings_vertex {target : Target} {position : Reading} {definitions : List Contribution}
    {body : List Statement} (hk : s.node.kind = .output target) (hvertex : s.stage = .vertex)
    (hposition : Material.position s = .ok position)
    (hnormal : Material.normal s = .ok (definitions, body)) :
    ∀ c ∈ position.contributions ++ definitions ++
        [.statements s.stage
          (.declare .vector3 "transformed" (.operand position.operand) :: body)],
      Backend.material.Brings s c := by
  have hfirst : ∀ c ∈ position.contributions, Backend.material.Brings s c := by
    rcases Material.position_cases hposition with ⟨o, -, -, rfl⟩ | ⟨hfed, rfl⟩
    · exact List.forall_mem_nil _
    · exact brings_readAttribute (.output hk hvertex hfed rfl rfl)
  have hsecond : (∀ c ∈ definitions, Backend.material.Brings s c) ∧
      ∀ st ∈ body, st.isComputation = true := by
    rcases Material.normal_cases hnormal with ⟨-, rfl, rfl⟩ | ⟨o, -, -, rfl, rfl⟩
    · exact ⟨List.forall_mem_nil _, List.forall_mem_nil _⟩
    · exact ⟨List.forall_mem_cons.mpr ⟨.define _ _, List.forall_mem_singleton.mpr (.define _ _)⟩,
        List.forall_mem_singleton.mpr rfl⟩
  have hlast : Backend.material.Brings s (.statements s.stage
      (.declare .vector3 "transformed" (.operand position.operand) :: body)) :=
    .own fun _ => List.forall_mem_cons.mpr ⟨rfl, hsecond.2⟩
  simp only [List.forall_mem_append]
  exact ⟨⟨hfirst, hsecond.1⟩, List.forall_mem_singleton.mpr hlast⟩

/-- **What a leaf adds**, whatever its kind and the backend. -/
theorem brings_of_emitLeaf (hfound : s.graph.node? s.node.id = some s.node)
    (h : b.emitLeaf s s.node.kind = .ok cs) : ∀ c ∈ cs, b.Brings s c := by
  -- each part of what a kind adds is one of the four, and only materials hand attributes on
  cases Site.emits_of_emitLeaf h with
  | constant _ | math _ _ => exact List.forall_mem_singleton.mpr (brings_declare _ _)
  | param _ =>
    simp only [emitParam, List.forall_mem_cons]
    exact ⟨.define _ _, .note _, brings_declare _ _, List.forall_mem_nil _⟩
  | globals hk hreadings =>
    simp only [List.forall_mem_append, List.forall_mem_flatMap]
    refine ⟨fun r hr => ?_, List.forall_mem_singleton.mpr (.own fun _ st hst => ?_)⟩
    · obtain ⟨output, houtput, hread⟩ := exists_mem_of_forall₂ hreadings.flip r hr
      obtain ⟨hlisted, hused⟩ := (Site.mem_connectedOutputs hk hfound).mp houtput
      exact hread.brings hk hlisted hused
    · obtain ⟨_, _, -, rfl⟩ := Site.mem_declareAll hst
      rfl
  | «attribute» hk h =>
    cases h with
    | read =>
      simp only [List.forall_mem_append]
      exact ⟨brings_readAttribute (.named hk), List.forall_mem_singleton.mpr (brings_declare _ _)⟩
    | exchanged hb hreadings hwrites =>
      refine brings_exchange hb hreadings.samples fun write hwrite => ?_
      exact ⟨_, hwrites.note_eq write hwrite⟩
  | varyingWrite _ _ =>
    simp only [List.forall_mem_append]
    refine ⟨⟨List.forall_mem_singleton.mpr (.define _ _), ?_⟩,
      List.forall_mem_singleton.mpr (.own fun _ => List.forall_mem_singleton.mpr rfl)⟩
    split
    · exact List.forall_mem_singleton.mpr (.define _ _)
    · exact List.forall_mem_nil _
  | varyingRead _ =>
    simp only [emitVaryingRead, List.forall_mem_cons]
    exact ⟨.define _ _, brings_declare _ _, List.forall_mem_nil _⟩
  | function _ _ _ =>
    simp only [List.forall_mem_cons]
    exact ⟨.define _ _, brings_declare _ _, List.forall_mem_nil _⟩
  | output hk h =>
    cases h with
    | vertex hvertex hposition hnormal => exact brings_vertex hk hvertex hposition hnormal
    | fragment _ _ _ =>
      exact List.forall_mem_singleton.mpr (.own fun _ => List.forall_mem_singleton.mpr rfl)
    | written hb hwrites =>
      refine brings_exchange hb (List.forall_mem_nil _) fun write hwrite => ?_
      obtain ⟨name, -, hnote⟩ := hwrites.note_eq write hwrite
      exact ⟨name, hnote⟩
  | subnet _ | subnetInput _ => exact List.forall_mem_nil _
  | subnetOutput _ hbody =>
    refine List.forall_mem_singleton.mpr (.own fun _ st hst => ?_)
    obtain ⟨name, -, value, -, rfl⟩ := exists_mem_of_forall₂ hbody.flip st hst
    rfl

end Backend

namespace Backend.Brings

/-- A leaf does not indent. -/
theorem pad_eq (h : ∀ c ∈ cs, b.Brings s c) (he : e ∈ entries target cs) : e.pad = "" := by
  obtain ⟨c, hc, he⟩ := List.mem_flatMap.mp he
  cases h c hc with
  | define _ _ => cases he
  | note _ => cases he
  | own _ =>
    rw [Contribution.statements, entriesFor] at he
    split at he
    · obtain ⟨_, -, rfl⟩ := List.mem_map.mp he
      rfl
    · cases he
  | relay _ _ _ =>
    rw [entriesFor] at he
    split at he
    · rw [List.mem_singleton.mp he]
    · cases he

/-- Other stages get relays, in materials only, and only the vertex stage does. -/
theorem of_mem_entries (h : ∀ c ∈ cs, b.Brings s c) (hne : target ≠ s.stage)
    (he : e ∈ entries target cs) :
    b = .material ∧ target = .vertex ∧
      ∃ name type, Material.Reads s name type ∧ e = { statement := .relay name } := by
  obtain ⟨c, hc, he⟩ := List.mem_flatMap.mp he
  cases h c hc with
  | define _ _ => cases he
  | note _ => cases he
  | own _ =>
    rw [Contribution.statements, entriesFor, if_neg hne.symm] at he
    cases he
  | relay hb hreads _ =>
    rw [entriesFor] at he
    split at he
    next htarget => exact ⟨hb, htarget.symm, _, _, hreads, List.mem_singleton.mp he⟩
    next => cases he

/-- What is for other stages is not repeated there. -/
theorem modest (h : ∀ c ∈ cs, b.Brings s c) (hne : target ≠ s.stage) : Modest target cs := by
  intro es repetition hmem
  generalize hc : Contribution.write target es repetition = c at hmem
  cases h c hmem with
  | define _ _ => cases hc
  | note _ => cases hc
  | own _ => exact absurd (Contribution.write.inj hc).1 hne
  | relay _ _ _ => exact (Contribution.write.inj hc).2.2

end Backend.Brings

namespace Material

/-- In another stage than the vertex stage a leaf has a line of the latter for each attribute that
    it reads. -/
theorem mem_entries_of_emitLeaf (hfound : s.graph.node? s.node.id = some s.node)
    (h : Backend.material.emitLeaf s s.node.kind = .ok cs) (hne : s.stage ≠ .vertex) :
    e ∈ entries .vertex cs ↔
      ∃ name type, Reads s name type ∧ e = { statement := .relay name } := by
  constructor
  · intro he
    have hbrings := Backend.brings_of_emitLeaf hfound h
    exact (Backend.Brings.of_mem_entries hbrings hne.symm he).2.2
  · rintro ⟨name, type, hreads, rfl⟩
    have hrelay : .write .vertex [{ statement := .relay name }] .once ∈
        (readAttribute s name type).contributions := by
      rw [readAttribute, if_neg hne]
      exact List.mem_append_right _ (by simp [Statement.relay])
    exact mem_entries.mpr
      ⟨_, _, subset_of_reads hreads hfound h hrelay, List.mem_singleton_self _⟩

/-- In the vertex stage it computes. -/
theorem computes_of_mem_entries (hfound : s.graph.node? s.node.id = some s.node)
    (h : Backend.material.emitLeaf s s.node.kind = .ok cs) (hstage : s.stage = .vertex)
    (he : e ∈ entries .vertex cs) : e.pad = "" ∧ e.statement.isComputation = true := by
  have hbrings := Backend.brings_of_emitLeaf hfound h
  refine ⟨Backend.Brings.pad_eq hbrings he, ?_⟩
  obtain ⟨c, hc, he⟩ := List.mem_flatMap.mp he
  cases hbrings c hc with
  | define _ _ => cases he
  | note _ => cases he
  | own hbody =>
    rw [Contribution.statements, entriesFor, if_pos hstage] at he
    obtain ⟨st, hst, rfl⟩ := List.mem_map.mp he
    exact hbody rfl st hst
  | relay _ _ hne => exact absurd hstage hne

end Material

/-! ## §5. Networks -/

namespace Graph.Emits

variable {name : String} {type : PortType} {parts : List Part} {part : Part}

/-- A part that is built for one stage does not repeat lines in another one. -/
theorem modest (h : g.Emits b context stage scope roots parts) (hpart : part ∈ parts)
    (hne : target ≠ stage) : Modest target part.contributions := by
  rcases h.cases hpart with ⟨-, hemit⟩ | ⟨subnet, output, bindings, inner, -, -, -, -, hcs⟩
  · have hfound := h.schedules.found part.node (List.mem_map_of_mem hpart)
    exact Backend.Brings.modest (Backend.brings_of_emitLeaf hfound hemit) hne
  · rw [hcs]
    exact Site.modest_splice hne

/-- **A line for another stage comes from a leaf as it is**, through every subnet around. -/
theorem exists_sender (hne : target ≠ stage) :
    ∀ {g : Graph} {scope : Scope} {roots : List NodeId} {parts : List Part},
      g.Emits b context stage scope roots parts →
        ∀ part ∈ parts, ∀ e ∈ entries target part.contributions,
          ∃ s cs, g.Meets b context stage scope roots s ∧ b.emitLeaf s s.node.kind = .ok cs ∧
            e ∈ entries target cs := by
  intro g
  induction g using Graph.network_induction with
  | step g ih =>
    intro scope roots parts h part hpart e he
    have hmem : part.node ∈ parts.map (·.node) := List.mem_map_of_mem hpart
    rcases h.cases hpart with ⟨-, hemit⟩ |
      ⟨subnet, output, bindings, inner, hk, houtput, -, hinner, hcs⟩
    · exact ⟨_, _, .here h.order hmem (h.supported part hpart), hemit, he⟩
    · rw [hcs] at he
      obtain ⟨l, hl, rfl⟩ := (Site.mem_entries_splice hne).mp he
      -- the program of a subnet starts without lines, so its parts asked for this one
      rcases Progress.mem_body_addParts hl with hstart | ⟨q, hq, he⟩
      · cases hstart
      · obtain ⟨s, cs, hs, hemit, he⟩ :=
          ih _ ⟨part.node, h.node_mem hpart, subnet, hk, rfl⟩ hinner q hq _ he
        exact ⟨s, cs, .inside h.order hmem hk houtput hs, hemit, he⟩

/-- **Lines for the vertex stage come from readers**, at whatever depth. -/
theorem reads_of_entry (hne : stage ≠ .vertex)
    (h : g.Emits .material context stage scope roots parts) (hpart : part ∈ parts)
    (he : e ∈ entries .vertex part.contributions) :
    ∃ s name type, g.Meets .material context stage scope roots s ∧
      Material.Reads s name type ∧ e = { statement := .relay name } := by
  obtain ⟨s, cs, hs, hemit, he⟩ := exists_sender hne.symm h part hpart e he
  have hstage : s.stage ≠ .vertex := by
    rwa [hs.stage_eq]
  obtain ⟨name, type, hreads, heq⟩ :=
    (Material.mem_entries_of_emitLeaf hs.found hemit hstage).mp he
  exact ⟨s, name, type, hs, hreads, heq⟩

/-- **Every reader brings its line**, through every subnet around it. -/
theorem entry_of_reads (hne : stage ≠ .vertex)
    (hs : g.Meets .material context stage scope roots s) (hreads : Material.Reads s name type) :
    ∀ {parts : List Part}, g.Emits .material context stage scope roots parts →
      ∃ part ∈ parts, ∃ e ∈ entries .vertex part.contributions,
        e.text = (Statement.relay name).render := by
  induction hs with
  | @here scope roots g order n horder hn _ =>
    intro parts h
    obtain ⟨part, hpart, rfl⟩ := h.exists_part horder hn
    have hleaf : ∀ subnet, part.node.kind ≠ .subnet subnet := by
      intro subnet hk
      cases hreads <;> simp_all
    have hemit := h.emitted part hpart
    rw [Kind.emit_of_leaf hleaf] at hemit
    have hfound := h.schedules.found part.node (List.mem_map_of_mem hpart)
    refine ⟨part, hpart, { statement := .relay name }, ?_, ?_⟩
    · exact (Material.mem_entries_of_emitLeaf hfound hemit hne).mpr ⟨name, type, hreads, rfl⟩
    · exact String.empty_append
  | @inside scope roots g order n output subnet s horder hn hk ho _ ih =>
    intro parts h
    obtain ⟨part, hpart, rfl⟩ := h.exists_part horder hn
    obtain ⟨output', bindings, inner, ho', -, hinner, hcs, -⟩ := h.subnet hpart hk
    obtain rfl := Option.some.inj (ho.symm.trans ho')
    obtain ⟨q, hq, e, he, htext⟩ := ih hreads hinner
    -- the program of the subnet has a line of this text, if not this very line
    have hgains := Progress.gains_addParts .vertex inner (.start stage)
      fun part hpart => hinner.modest hpart hne.symm
    obtain ⟨l, hl, hline⟩ := hgains.met e (List.mem_flatMap.mpr ⟨q, hq, he⟩)
    refine ⟨part, hpart, l.entry, ?_, hline.trans htext⟩
    rw [hcs]
    exact (Site.mem_entries_splice hne.symm).mpr ⟨l, hl, rfl⟩

end Graph.Emits

/-! ## §6. The code of the vertex stage itself -/

/-- A line of a program in blocks: a computation, or the start or the end of a block, behind
    white space that begins like the unit of indentation. -/
structure Entry.Laid (unit : String) (e : Entry) : Prop where
  pad : e.pad = "" ∨ e.pad.toList.head? = unit.toList.head?
  statement : e.statement.isComputation = true ∨ (∃ condition, e.statement = .openBlock condition) ∨
    e.statement = .closeBlock

/-- The text of a line that hands on an attribute. -/
@[simp] theorem Statement.render_relay (name : String) :
    (relay name).render = "v_attr_" ++ name ++ " = " ++ name ++ ";" := rfl

/-- It begins as the names of such varyings do. -/
theorem Statement.toList_relay (name : String) :
    ∃ rest, (relay name).render.toList = "v_attr_".toList ++ rest := by
  refine ⟨(name ++ " = " ++ name ++ ";").toList, ?_⟩
  simp only [render_relay, String.toList_append, List.append_assoc]

/-- A declaration does not: no type is spelled with an underscore in second place. -/
theorem PortType.toList_declare (type : PortType) (name : String) :
    ∃ c d rest, (type.declare name).toList = c :: d :: rest ∧ d ≠ '_' := by
  have hsecond : type.glslName.toList[1]?.any (· != '_') = true := by
    cases type with
    | array element length =>
      show (elementName element).toList[1]?.any (· != '_') = true
      cases element <;> decide
    | _ => decide
  rw [declare_eq, String.append_assoc, String.append_assoc, String.toList_append]
  cases hchars : type.glslName.toList with
  | nil => simp [hchars] at hsecond
  | cons c tail =>
    cases tail with
    | nil => simp [hchars] at hsecond
    | cons d rest => exact ⟨c, d, _, rfl, by simpa [hchars] using hsecond⟩

/-- An assignment that begins so assigns to a name that does. -/
theorem reserved_of_assign {x value : String} {rest : List Char}
    (h : (x ++ " = " ++ value).toList = "v_attr_".toList ++ rest) : Reserved x := by
  rw [String.append_assoc, String.toList_append] at h
  rcases List.append_eq_append_iff.mp h with ⟨back, hback, hrest⟩ | ⟨back, hx, -⟩
  · cases back with
    | nil => exact ⟨_, List.mem_cons_self, by rw [hback]; simp⟩
    | cons c back =>
      -- the name would end inside the prefix, which has no space
      exfalso
      have hequals : " = ".toList = [' ', '=', ' '] := by decide
      rw [String.toList_append, hequals] at hrest
      obtain ⟨rfl, -⟩ := List.cons.inj hrest
      have hspace : ' ' ∈ "v_attr_".toList := by
        rw [hback]
        simp
      exact absurd hspace (by decide)
  · exact ⟨_, List.mem_cons_self, back, hx.symm⟩

namespace Entry.Laid

variable {unit name : String}

theorem of_statement {st : Statement} (h : st.isComputation = true ∨
    (∃ condition, st = .openBlock condition) ∨ st = .closeBlock) :
    Laid unit { statement := st } :=
  ⟨.inl rfl, h⟩

theorem indent (h : e.Laid unit) : (e.indent unit).Laid unit where
  pad := by
    show unit ++ e.pad = "" ∨ (unit ++ e.pad).toList.head? = _
    rw [String.toList_append]
    by_cases hunit : unit = ""
    · subst hunit
      simpa using h.pad
    · right
      cases hchars : unit.toList with
      | nil => exact absurd (String.toList_eq_nil_iff.mp hchars) hunit
      | cons c rest => rfl
  statement := h.statement

/-- It reads like a line that hands on an attribute only if it assigns to what has the name of
    such a varying. -/
theorem text_ne (h : e.Laid unit) (hunit : unit.toList.head? ≠ some 'v')
    (hvar : ∀ x value, e.statement = .assign (.var x) value → ¬Reserved x)
    (hvarying : ∀ x value, e.statement = .assign (.varying x) value →
      x = "v_normal" ∨ ∃ v, x = Backend.varyingName v) :
    e.text ≠ (Statement.relay name).render := by
  intro htext
  obtain ⟨rest, hrelay⟩ := Statement.toList_relay name
  have hchars : e.pad.toList ++ e.statement.render.toList = "v_attr_".toList ++ rest := by
    rw [← hrelay, ← htext, Entry.text, String.toList_append]
  by_cases hpad : e.pad = ""
  · rw [hpad, String.toList_empty, List.nil_append] at hchars
    rcases h.statement with hcomputes | ⟨condition, hst⟩ | hst
    · cases hst : e.statement with
      | declare type x value =>
        obtain ⟨c, d, more, hdeclare, hd⟩ := type.toList_declare x
        rw [hst, Statement.render, String.append_assoc, String.append_assoc,
          String.toList_append, hdeclare] at hchars
        exact hd (List.cons.inj (List.cons.inj hchars).2).1
      | assign place value =>
        rw [hst, Statement.render, String.append_assoc] at hchars
        cases place with
        | var x => exact hvar x value hst (reserved_of_assign hchars)
        | varying x =>
          rcases hvarying x value hst with rfl | ⟨v, rfl⟩
          · simp [Place.render] at hchars
          · simp [Place.render, Backend.varyingName] at hchars
        | channels swizzle => simp [hst, Statement.isComputation] at hcomputes
        | field record x => simp [hst, Statement.isComputation] at hcomputes
      | _ => simp [hst, Statement.isComputation] at hcomputes
    · rw [hst] at hchars
      cases condition <;> simp [Statement.render] at hchars
    · rw [hst] at hchars
      simp [Statement.render] at hchars
  · -- the first character is white space
    cases hfirst : e.pad.toList with
    | nil => exact hpad (String.toList_eq_nil_iff.mp hfirst)
    | cons c more =>
      rw [hfirst] at hchars
      obtain ⟨rfl, -⟩ := List.cons.inj hchars
      apply hunit
      rw [← h.pad.resolve_left hpad, hfirst]
      rfl

end Entry.Laid

namespace Graph.Emits

/-- **The lines that a material has for the stage that is built** are laid out in blocks. -/
theorem laid :
    ∀ {g : Graph} {scope : Scope} {roots : List NodeId} {parts : List Part},
      g.Emits .material context .vertex scope roots parts →
        ∀ part ∈ parts, ∀ e ∈ entries .vertex part.contributions,
          e.Laid context.config.formatting.indent := by
  intro g
  induction g using Graph.network_induction with
  | step g ih =>
    intro scope roots parts h part hpart e he
    have hmem : part.node ∈ parts.map (·.node) := List.mem_map_of_mem hpart
    rcases h.cases hpart with ⟨-, hemit⟩ |
      ⟨subnet, output, bindings, inner, hk, -, hbindings, hinner, hcs⟩
    · obtain ⟨hpad, hcomputes⟩ :=
        Material.computes_of_mem_entries (h.schedules.found _ hmem) hemit rfl he
      exact ⟨.inl hpad, .inl hcomputes⟩
    · rw [hcs] at he
      let s : Site := { graph := g, node := part.node, stage := .vertex, scope, context }
      -- around a network stand declarations, an opener and a closer; its lines move one step in
      rcases Site.cases_entries_splice (s := s) he with ⟨st, hst, rfl⟩ | ⟨l, hl, rfl⟩ | rfl
      · apply Entry.Laid.of_statement
        rcases List.mem_append.mp hst with hst | hst
        · rcases List.mem_append.mp hst with hst | hst
          · obtain ⟨spec, -, o, -, rfl⟩ := Site.exists_of_mem_bindings hbindings hst
            exact .inl rfl
          · obtain ⟨spec, -, rfl⟩ := List.mem_map.mp hst
            exact .inl rfl
        · rw [List.mem_singleton.mp hst]
          right
          left
          cases subnet.block <;> exact ⟨_, rfl⟩
      · rcases Progress.mem_body_addParts hl with hstart | ⟨q, hq, he⟩
        · cases hstart
        · exact (ih _ ⟨part.node, h.node_mem hpart, subnet, hk, rfl⟩ hinner q hq _ he).indent
      · exact .of_statement (.inr (.inr rfl))

variable {parts : List Part} {part : Part}

/-- The varyings that the vertex stage sets are those of its nodes and the normal. -/
theorem assigned (h : g.Emits .material context .vertex scope roots parts) (hpart : part ∈ parts)
    {x : String} {value : Expr}
    (hst : .assign (.varying x) value ∈ written .vertex part.contributions) :
    x = "v_normal" ∨ ∃ v, x = Backend.varyingName v := by
  have hkey : (DefinitionKind.varying, x) ∈ Statement.globals (.assign (.varying x) value) :=
    List.mem_append_left _ List.mem_cons_self
  rcases (h.selfContained part hpart).covered _ _ hst _ hkey with hkey | hbase | hnormal
  · obtain ⟨d, hd, hkey⟩ := List.mem_map.mp hkey
    obtain ⟨s, cs, hs, hemit, -, hd⟩ := h.meets_of_declaration part hpart hd
    have hstage := hs.stage_eq
    cases d with
    | varying type v =>
      obtain ⟨-, rfl⟩ := Prod.mk.inj hkey
      rcases Material.cases_varying (Backend.asks_of_mem hs.found hemit hd) with
        ⟨name, hv, -, -⟩ | ⟨name, hv, -, -, -⟩ | ⟨hv, -⟩ | ⟨name, -, -, hne, -⟩
      · exact .inr ⟨name, hv⟩
      · exact .inr ⟨name, hv⟩
      · exact .inl hv
      · -- the vertex stage reads attributes without a varying
        exact absurd hstage hne
    | _ => cases hkey
  · simp [Backend.baseKeys, Backend.declarations, Declaration.key, Declaration.kind] at hbase
  · cases hnormal

end Graph.Emits

/-! ## §7. Materials -/

/-- Where the networks of a graph fit together, what a stage assigns to has a name that is free
    for variables. -/
theorem Backend.Builds.not_reserved {output : NodeId} {builds : List (Stage × List Part)}
    {p : Progress} (h : b.Builds g context output builds p) (hg : g.Everywhere Graph.Regular)
    (htop : ∀ n ∈ g.nodes, n.kind.isSubnetInput = false) (hstage : stage ∈ b.stages) {x : String}
    {value : Expr} (hst : .assign (.var x) value ∈ p.statements stage) : ¬Reserved x := by
  obtain ⟨front, back, hsplit⟩ := List.append_of_mem hst
  have hscope := (h.inScope hg htop hstage).1
  rw [hsplit] at hscope
  have hx := hscope.before x (List.mem_append_left _ List.mem_cons_self)
  have hdeclared : x ∈ declaredIn (p.statements stage) := by
    rw [hsplit, declaredIn_append, List.mem_append]
    exact .inl ((mem_scopesAfter hx).resolve_left (by simp))
  exact ((h.distinct hstage).2 x hdeclared).1

namespace Material

variable {p : Progress} {own : List Line}

/-- What becomes of the attributes that the fragment stage of a material reads, where `own` are
    the lines of the vertex stage before the fragment stage is built. -/
structure Relayed (g : Graph) (context : Context) (own : List Line) (p : Progress) : Prop where
  /-- The fragment stage has no attributes of its own. -/
  absent : ∀ type name, .attribute type name ∉ p.declared .fragment
  /-- An attribute is declared in the vertex stage, and in both stages the varying for it, all
      with the same type. -/
  declared : ∀ s name type, Backend.material.Meets g context s → s.stage = .fragment →
    Reads s name type → .attribute type name ∈ p.declared .vertex ∧
      .varying type (attributeVarying name) ∈ p.declared .vertex ∧
      .varying type (attributeVarying name) ∈ p.declared .fragment
  /-- The vertex stage hands it on once, outside every block, unless it has a line of this very
      text anyway. -/
  once : ∀ s name type, Backend.material.Meets g context s → s.stage = .fragment →
    Reads s name type → (∀ l ∈ own, l.text ≠ (Statement.relay name).render) →
      ∃ l, (p.listing.body .vertex).filter (·.text == (Statement.relay name).render) = [l] ∧
        l.entry.pad = ""
  /-- Nothing else is added to the vertex stage. -/
  added : ∃ added, p.listing.body .vertex = own ++ added ∧ (added.map Line.text).Nodup ∧
    ∀ l ∈ added, (∀ other ∈ own, other.text ≠ l.text) ∧
      ∃ s name type, Backend.material.Meets g context s ∧ s.stage = .fragment ∧
        Reads s name type ∧ l.entry = { statement := .relay name }
  /-- In networks that fit together, indented by something that does not begin like a varying,
      the vertex stage has no such line by itself. -/
  fitting : g.Everywhere Graph.Regular → (∀ n ∈ g.nodes, n.kind.isSubnetInput = false) →
    context.config.formatting.indent.toList.head? ≠ some 'v' →
      ∀ l ∈ own, ∀ name, l.text ≠ (Statement.relay name).render

/-- Attributes are declared in the vertex stage only. -/
theorem attribute_absent (hp : Backend.material.pass g context = .ok p) (type : PortType)
    (name : String) : .attribute type name ∉ p.declared .fragment := by
  intro hd
  rcases Backend.asks_of_declared hp hd with ⟨-, hbase⟩ | ⟨s, -, hasks⟩
  · simp [Backend.declarations] at hbase
  · cases hasks with
    | «attribute» _ _ htarget _ => cases htarget
    | _ => simp_all

/-- A pass builds the vertex stage and, on top of it, the fragment stage. -/
theorem stages_of_pass (hp : Backend.material.pass g context = .ok p) :
    ∃ output first, g.outputNode .material = .ok output ∧
      g.emitStage .material context .vertex (Scope.root g.name) (output :: sideRoots g)
        (Backend.material.begin context.config output) = .ok first ∧
      g.emitStage .material context .fragment (Scope.root g.name) (output :: sideRoots g) first =
        .ok p := by
  obtain ⟨output, houtput, h⟩ := bind_eq_ok.mp hp
  obtain ⟨_, -, h⟩ := bind_eq_ok.mp h
  obtain ⟨_, -, h⟩ := bind_eq_ok.mp h
  obtain ⟨_, -, h⟩ := bind_eq_ok.mp h
  obtain ⟨first, hvertex, h⟩ := bind_eq_ok.mp h
  obtain ⟨last, hfragment, h⟩ := bind_eq_ok.mp h
  obtain rfl := pure_eq_ok.mp h
  exact ⟨output, first, houtput, hvertex, hfragment⟩

variable {left : Backend} {program : Program}

/-- **How attributes reach the fragment stage.**  When a material compiles, each attribute that
    the fragment stage reads, at whatever depth and however often, comes through one varying,
    which the vertex stage sets once; and setting such varyings is all that the fragment stage
    adds to the vertex stage. -/
theorem relays_attributes (h : Backend.material.compile g context = (left, .ok program)) :
    ∃ output first p, g.outputNode .material = .ok output ∧
      g.emitStage .material context .vertex (Scope.root g.name) (output :: sideRoots g)
        (Backend.material.begin context.config output) = .ok first ∧
      g.emitStage .material context .fragment (Scope.root g.name) (output :: sideRoots g) first =
        .ok p ∧
      Backend.material.pass g context = .ok p ∧
      Relayed g context (first.listing.body .vertex) p := by
  obtain ⟨p, hp⟩ := Backend.pass_of_compile (congrArg Prod.snd h)
  have hp : Backend.material.pass g context = .ok p := hp
  obtain ⟨output, first, houtput, hvertex, hfragment⟩ := stages_of_pass hp
  refine ⟨output, first, p, houtput, hvertex, hfragment, hp, ?_⟩
  obtain ⟨own, hown, hfirst, -⟩ := Graph.emits_of_emitStage hvertex
  obtain ⟨parts, hparts, hlast, -⟩ := Graph.emits_of_emitStage hfragment
  have hne : Stage.fragment ≠ .vertex := by decide
  have hgains := Progress.gains_addParts .vertex parts first
    fun part hpart => hparts.modest hpart hne.symm
  rw [← hlast] at hgains
  have hrelay : ∀ e ∈ parts.flatMap fun part => entries .vertex part.contributions,
      ∃ s name type, Backend.material.Meets g context s ∧ s.stage = .fragment ∧
        Reads s name type ∧ e = { statement := .relay name } := by
    intro e he
    obtain ⟨part, hpart, he⟩ := List.mem_flatMap.mp he
    obtain ⟨s, name, type, hs, hreads, heq⟩ := hparts.reads_of_entry hne hpart he
    have hstage := hs.stage_eq
    rw [← hstage] at hs
    exact ⟨s, name, type, ⟨output, houtput, by rw [hstage]; decide, hs⟩, hstage, hreads, heq⟩
  obtain ⟨added, hbody, hnodup, hadded⟩ := hgains.gained
  constructor
  · exact attribute_absent hp
  · intro s name type hs hstage hreads
    have hother : s.stage ≠ .vertex := by
      rw [hstage]
      exact hne
    refine ⟨?_, ?_, ?_⟩
    · exact Backend.declared_of_asks hp hs (.attribute rfl hreads rfl rfl) nofun
    · exact Backend.declared_of_asks hp hs (.relay rfl hreads hother (.inl rfl) rfl) nofun
    · exact Backend.declared_of_asks hp hs (.relay rfl hreads hother (.inr hstage.symm) rfl) nofun
  · intro s name type hs hstage hreads hnone
    obtain ⟨output', houtput', -, hs⟩ := hs
    obtain rfl := Except.ok.inj (houtput.symm.trans houtput')
    rw [hstage] at hs
    obtain ⟨part, hpart, e, he, htext⟩ := Graph.Emits.entry_of_reads hne hs hreads hparts
    rw [← htext] at hnone ⊢
    obtain ⟨l, hone, hl⟩ := hgains.filter_eq (List.mem_flatMap.mpr ⟨part, hpart, he⟩) hnone
    obtain ⟨_, _, _, -, -, -, heq⟩ := hrelay _ hl
    exact ⟨l, hone, by rw [heq]⟩
  · exact ⟨added, hbody, hnodup, fun l hl => ⟨(hadded l hl).2, hrelay _ (hadded l hl).1⟩⟩
  · intro hg htop hindent l hl name
    obtain ⟨output', builds, hbuilds⟩ := Backend.builds_of_pass hp
    have hentry : ∃ part ∈ own, l.entry ∈ entries .vertex part.contributions := by
      rw [hfirst] at hl
      exact (Progress.mem_body_addParts hl).resolve_left nofun
    obtain ⟨part, hpart, he⟩ := hentry
    apply (hown.laid part hpart _ he).text_ne hindent
    · intro x value hst
      have hmem : .assign (.var x) value ∈ p.statements .vertex := by
        rw [Progress.statements, hbody, ← hst]
        exact List.mem_map_of_mem (List.mem_append_left _ hl)
      exact hbuilds.not_reserved hg htop (by decide) hmem
    · intro x value hst
      have hmem : .assign (.varying x) value ∈ written .vertex part.contributions := by
        rw [← map_entries, ← hst]
        exact List.mem_map_of_mem he
      exact hown.assigned hpart hmem

/-- What the fragment stage declares for an attribute some node of it reads. -/
theorem exists_reads (hp : Backend.material.pass g context = .ok p) {name : String}
    {type : PortType} (hd : .varying type (attributeVarying name) ∈ p.declared .fragment) :
    ∃ s, Backend.material.Meets g context s ∧ s.stage = .fragment ∧ Reads s name type := by
  obtain ⟨s, hs, hasks⟩ := (varying_mem_declared hp).mp hd
  obtain ⟨hne, hreads⟩ := reads_of_asks hasks
  -- a material has no third stage
  have hstage : s.stage = .fragment := by
    obtain ⟨_, -, hmem, -⟩ := hs
    simpa [Backend.stages, hne] using hmem
  exact ⟨s, hs, hstage, hreads⟩

/-- A subnet that passes on the attribute `weight`. -/
def tap : Subnet where
  inputs := []
  outputs := [⟨"y", .float⟩]
  block := .always
  network :=
    { Graph.empty "tap" with
      nodes :=
        [.make ⟨10⟩ "output" (.subnetOutput [⟨"y", .float⟩]),
         .make ⟨11⟩ "weight" (.attribute "weight" .float)]
      connections := [⟨⟨20⟩, ⟨11⟩, "value", ⟨10⟩, "y"⟩]
      version := 3 }

/-- A material whose alpha is the sum of the attribute `weight` and of the same one out of a
    subnet. -/
def weighted : Graph :=
  { Graph.empty "g" with
    nodes :=
      [.make ⟨1⟩ "out" (.output .material),
       .make ⟨2⟩ "weight" (.attribute "weight" .float),
       .make ⟨3⟩ "tap" (.subnet tap),
       .make ⟨4⟩ "sum" (.math .add .float)]
    connections :=
      [⟨⟨5⟩, ⟨2⟩, "value", ⟨4⟩, "a"⟩, ⟨⟨6⟩, ⟨3⟩, "y", ⟨4⟩, "b"⟩,
       ⟨⟨7⟩, ⟨4⟩, "result", ⟨1⟩, "alpha"⟩]
    version := 7 }

theorem tap_regular : tap.network.Everywhere Graph.Regular := by
  apply Graph.Everywhere.intro
  · refine ⟨by decide, by decide, ?_⟩
    intro n hn s hk
    simp only [tap, List.mem_cons, List.not_mem_nil, or_false] at hn
    rcases hn with rfl | rfl <;> cases hk
  · rintro inner ⟨n, hn, s, hk, rfl⟩
    simp only [tap, List.mem_cons, List.not_mem_nil, or_false] at hn
    rcases hn with rfl | rfl <;> cases hk

theorem tap_mirrored : tap.Mirrored := by
  constructor
  · intro n hn ports hk
    simp only [tap, List.mem_cons, List.not_mem_nil, or_false] at hn
    rcases hn with rfl | rfl <;> cases hk
  · intro n hn ports hk
    simp only [tap, List.mem_cons, List.not_mem_nil, or_false] at hn
    rcases hn with rfl | rfl <;> cases hk
    rfl
  · intro name h
    cases h

theorem weighted_regular : weighted.Everywhere Graph.Regular := by
  apply Graph.Everywhere.intro
  · refine ⟨by decide, by decide, ?_⟩
    intro n hn s hk
    simp only [weighted, List.mem_cons, List.not_mem_nil, or_false] at hn
    rcases hn with rfl | rfl | rfl | rfl <;> cases hk
    exact tap_mirrored
  · rintro inner ⟨n, hn, s, hk, rfl⟩
    simp only [weighted, List.mem_cons, List.not_mem_nil, or_false] at hn
    rcases hn with rfl | rfl | rfl | rfl <;> cases hk
    exact tap_regular

/-- The attribute is read twice, at different depths, and handed on once. -/
theorem weighted_relayed : ∃ program p,
    Backend.material.compile weighted {} = (.material, .ok program) ∧
      Backend.material.pass weighted {} = .ok p ∧
      .varying .float "v_attr_weight" ∈ p.declared .fragment ∧
      .attribute .float "weight" ∈ p.declared .vertex ∧
      ∃ l, (p.listing.body .vertex).filter (·.text == "v_attr_weight = weight;") = [l] ∧
        l.entry.pad = "" := by
  have hpass : (Backend.material.pass weighted {}).map
      (fun p => (p.declared .fragment).contains (.varying .float "v_attr_weight")) = .ok true := by
    decide +kernel
  obtain ⟨p, hp, hcontains⟩ := map_eq_ok.mp hpass
  obtain ⟨program, hcompile, -⟩ := Backend.compile_material rfl hp
  have hd : .varying .float (attributeVarying "weight") ∈ p.declared .fragment :=
    List.contains_iff_mem.mp hcontains
  obtain ⟨s, hs, hstage, hreads⟩ := exists_reads hp hd
  obtain ⟨_, first, p', -, -, -, hp', hrelayed⟩ := relays_attributes hcompile
  obtain rfl := Except.ok.inj (hp.symm.trans hp')
  have hown := hrelayed.fitting weighted_regular (by decide) (by decide)
  refine ⟨_, p, hcompile, hp, hd, (hrelayed.declared s _ _ hs hstage hreads).1, ?_⟩
  exact hrelayed.once s _ _ hs hstage hreads fun l hl => hown l hl "weight"

/-- A subnet that sets a varying; what collects its outputs has two that it does not declare,
    of one name. -/
def mislabelled : Subnet where
  inputs := []
  outputs := []
  block := .always
  network :=
    { Graph.empty "attr" with
      nodes :=
        [.make ⟨10⟩ "input" (.subnetInput [⟨"a", .float⟩]),
         .make ⟨11⟩ "output"
          (.subnetOutput [⟨"v_attr_input_a", .float⟩, ⟨"v_attr_input_a", .float⟩]),
         .make ⟨12⟩ "w" (.varyingWrite "h" .float)]
      connections :=
        [⟨⟨20⟩, ⟨10⟩, "a", ⟨11⟩, "v_attr_input_a"⟩, ⟨⟨21⟩, ⟨10⟩, "a", ⟨12⟩, "value"⟩]
      version := 5 }

/-- A material whose alpha is an attribute that has the name of a variable. -/
def relabelled : Graph :=
  { Graph.empty "g" with
    nodes :=
      [.make ⟨1⟩ "a" (.attribute "v_attr_input_a" .float),
       .make ⟨2⟩ "attr" (.subnet mislabelled),
       .make ⟨3⟩ "out" (.output .material)]
    connections := [⟨⟨4⟩, ⟨1⟩, "value", ⟨3⟩, "alpha"⟩]
    version := 4 }

/-- Settings that indent nothing. -/
def flushContext : Context where
  config.formatting.indent := ""

/-- Here the vertex stage assigns to the variables of the outputs, and without indentation its
    two lines read like the one that hands on the attribute. -/
theorem relabelled_relayed_twice : ∃ program p s,
    Backend.material.compile relabelled flushContext = (.material, .ok program) ∧
      Backend.material.pass relabelled flushContext = .ok p ∧
      Backend.material.Meets relabelled flushContext s ∧ s.stage = .fragment ∧
      Reads s "v_attr_input_a" .float ∧
      ((p.listing.body .vertex).filter
        (·.text == "v_attr_v_attr_input_a = v_attr_input_a;")).length = 2 := by
  have hpass : (Backend.material.pass relabelled flushContext).map (fun p =>
      ((p.declared .fragment).contains (.varying .float "v_attr_v_attr_input_a"),
        ((p.listing.body .vertex).filter
          (·.text == "v_attr_v_attr_input_a = v_attr_input_a;")).length)) = .ok (true, 2) := by
    decide +kernel
  obtain ⟨p, hp, heval⟩ := map_eq_ok.mp hpass
  obtain ⟨hcontains, htwice⟩ := Prod.mk.inj heval
  obtain ⟨program, hcompile, -⟩ := Backend.compile_material rfl hp
  have hd : .varying .float (attributeVarying "v_attr_input_a") ∈ p.declared .fragment :=
    List.contains_iff_mem.mp hcontains
  obtain ⟨s, hs, hstage, hreads⟩ := exists_reads hp hd
  exact ⟨_, p, s, hcompile, hp, hs, hstage, hreads, htwice⟩

end Material

end ShaderFlow
