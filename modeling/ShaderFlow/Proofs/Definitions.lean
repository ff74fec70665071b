/-
  ShaderFlow.Proofs.Definitions — what stages declare, and which nodes asked for it.

  A stage keeps the first declaration of each category and name.  A node whose declaration reads
  differently ends the compilation, so in the end a stage declares, word for word, all that any
  node asked for, and nothing else; the subnets in between pass declarations and notes on.

  Main definitions:
    * `Collects`               — declarations that are added to those of a stage;
    * `Progress.Declares`      — a stage that declares something in the same words.

  Main statements:
    * `Progress.collects_addParts`    — what parts add to a stage;
    * `Graph.Emits.carries_of_meets`  — what a node adds reaches the parts around it;
    * `Graph.Emits.meets_of_declaration` — what parts declare was asked for by a leaf;
    * `Backend.includes_of_meets`, `Backend.origin` — the same for whole passes.
-/

import ShaderFlow.Proofs.Sites

namespace ShaderFlow

open Contribution

variable {b : Backend} {context : Context} {stage : Stage} {scope : Scope} {roots : List NodeId}
  {g : Graph}

/-! ## §1. Collecting declarations -/

/-- The declarations of a stage, and the conflicts of the whole program. -/
abbrev Collection := List Definition × List Conflict

/-- Whether a declaration is among definitions, in the same words. -/
def Spelled (definitions : List Definition) (d : Declaration) : Prop :=
  ∃ kept ∈ definitions, kept.declaration.key = d.key ∧ kept.declaration.line = d.line

theorem Spelled.mono {definitions more : List Definition} {d : Declaration}
    (h : Spelled definitions d) (hmore : definitions ⊆ more) : Spelled more d := by
  obtain ⟨kept, hmem, hwords⟩ := h
  exact ⟨kept, hmore hmem, hwords⟩

/-- What comes of a collection when declarations are asked for: it only grows, by declarations
    that were asked for, and unless there is a conflict it has them all. -/
structure Collects (before after : Collection) (asked : List Declaration) : Prop where
  kept : before.1 <+: after.1
  quiet : after.2 = [] → before.2 = []
  fresh : ∀ d ∈ after.1, d ∈ before.1 ∨ d.declaration ∈ asked
  met : after.2 = [] → ∀ d ∈ asked, Spelled after.1 d
  nodup : (before.1.map (·.declaration.key)).Nodup → (after.1.map (·.declaration.key)).Nodup

namespace Collects

variable {before middle after : Collection} {asked more : List Declaration}

theorem refl (before : Collection) : Collects before before [] where
  kept := List.prefix_refl _
  quiet := id
  fresh _ hd := .inl hd
  met _ := by simp
  nodup := id

theorem trans (h : Collects before middle asked) (hmore : Collects middle after more) :
    Collects before after (asked ++ more) where
  kept := h.kept.trans hmore.kept
  quiet hquiet := h.quiet (hmore.quiet hquiet)
  fresh := by
    intro d hd
    rw [List.mem_append]
    rcases hmore.fresh d hd with hd | hd
    · rcases h.fresh d hd with hd | hd
      · exact .inl hd
      · exact .inr (.inl hd)
    · exact .inr (.inr hd)
  met := by
    intro hquiet d hd
    rcases List.mem_append.mp hd with hd | hd
    · exact (h.met (hmore.quiet hquiet) d hd).mono hmore.kept.subset
    · exact hmore.met hquiet d hd
  nodup hnodup := hmore.nodup (h.nodup hnodup)

end Collects

/-- One declaration is added unless its name is taken; a conflict is added if it is taken by
    other words. -/
theorem collects_defineOne (owner : NodeId) (before : Collection) (d : Declaration) :
    Collects before (Listing.defineOne owner before d) [d] := by
  obtain ⟨kept, conflicts⟩ := before
  unfold Listing.defineOne
  simp only
  -- the key is new, or it is kept already: then a conflict is noted if the words differ
  cases hfind : kept.find? (·.declaration.key == d.key) with
  | none =>
    have hnew : ∀ other ∈ kept, other.declaration.key ≠ d.key := by
      simpa using List.find?_eq_none.mp hfind
    exact {
      kept := List.prefix_append kept _
      quiet := id
      fresh := by
        intro other hother
        rcases List.mem_append.mp hother with hother | hother
        · exact .inl hother
        · rw [List.mem_singleton.mp hother]
          exact .inr List.mem_cons_self
      met := by
        intro _ other hother
        rw [List.mem_singleton.mp hother]
        exact ⟨_, List.mem_append_right _ List.mem_cons_self, rfl, rfl⟩
      nodup := by
        intro hnodup
        rw [List.map_append, List.nodup_append]
        refine ⟨hnodup, List.nodup_singleton _, ?_⟩
        intro key hkey other hother
        obtain ⟨def', hdef, rfl⟩ := List.mem_map.mp hkey
        rw [List.map_singleton, List.mem_singleton] at hother
        rw [hother]
        exact hnew def' hdef }
  | some existing =>
    have hmem := List.mem_of_find?_eq_some hfind
    have hkey : existing.declaration.key = d.key := by simpa using List.find?_some hfind
    simp only
    split
    next hline =>
      exact {
        kept := List.prefix_refl _
        quiet := id
        fresh := fun _ hother => .inl hother
        met := by
          intro _ other hother
          rw [List.mem_singleton.mp hother]
          exact ⟨existing, hmem, hkey, by simpa using hline⟩
        nodup := id }
    next =>
      exact {
        kept := List.prefix_refl _
        quiet := fun hquiet => absurd hquiet (by simp)
        fresh := fun _ hother => .inl hother
        met := fun hquiet => absurd hquiet (by simp)
        nodup := id }

theorem collects_foldl_defineOne (owner : NodeId) :
    ∀ (asked : List Declaration) (before : Collection),
      Collects before (asked.foldl (Listing.defineOne owner) before) asked
  | [], before => .refl before
  | d :: asked, before =>
    (collects_defineOne owner before d).trans (collects_foldl_defineOne owner asked _)

namespace Progress

/-- The definitions of a stage, with the conflicts. -/
def collection (p : Progress) (stage : Stage) : Collection :=
  (p.listing.definitionsOf stage, p.listing.conflicts)

/-- Whether a stage declares something, in the same words. -/
def Declares (p : Progress) (stage : Stage) (d : Declaration) : Prop :=
  Spelled (p.listing.definitionsOf stage) d

theorem collects_add (p : Progress) (owner : NodeId) (stage : Stage) (c : Contribution) :
    Collects (p.collection stage) ((p.add owner c).collection stage) (declarationsFor stage c) := by
  cases c with
  | define target asked =>
    have hfold := collects_foldl_defineOne owner asked (p.collection target)
    simp only [collection, add, Listing.define, Option.getD_some, Listing.definitionsOf,
      declarationsFor] at hfold ⊢
    by_cases htarget : target = stage
    · subst htarget
      rw [Table.get?_put_self, if_pos rfl, Option.getD_some]
      exact hfold
    · -- another stage collects, but the conflicts are those of all stages
      rw [Table.get?_put_of_ne htarget, if_neg htarget]
      exact { Collects.refl _ with quiet := hfold.quiet, met := by simp }
  | write target entries repetition => exact .refl _
  | note note => exact .refl _

theorem collects_foldl_add (owner : NodeId) (stage : Stage) :
    ∀ (cs : List Contribution) (p : Progress),
      Collects (p.collection stage) ((cs.foldl (add owner) p).collection stage)
        (declarations stage cs)
  | [], _ => .refl _
  | c :: cs, p => (p.collects_add owner stage c).trans (collects_foldl_add owner stage cs _)

/-- **What parts add to a stage.** -/
theorem collects_addParts (stage : Stage) :
    ∀ (parts : List Part) (p : Progress),
      Collects (p.collection stage) ((p.addParts parts).collection stage)
        (parts.flatMap fun part => declarations stage part.contributions)
  | [], _ => .refl _
  | part :: parts, p =>
    (collects_foldl_add part.node.id stage part.contributions p).trans
      (collects_addParts stage parts _)

end Progress

/-! ## §2. What reaches the parts of a program -/

/-- Contributions that carry others: they declare all that those declare, in the same words, and
    leave their notes. -/
structure Carries (cs carried : List Contribution) : Prop where
  declared : ∀ stage, ∀ d ∈ declarations stage carried,
    ∃ kept ∈ declarations stage cs, kept.key = d.key ∧ kept.line = d.line
  noted : ∀ n, Contribution.note n ∈ carried → Contribution.note n ∈ cs

theorem Carries.refl (cs : List Contribution) : Carries cs cs where
  declared _ d hd := ⟨d, hd, rfl, rfl⟩
  noted _ := id

theorem Carries.trans {cs middle carried : List Contribution} (h : Carries cs middle)
    (hcarried : Carries middle carried) : Carries cs carried where
  declared stage d hd := by
    obtain ⟨kept, hkept, hkey, hline⟩ := hcarried.declared stage d hd
    obtain ⟨kept', hkept', hkey', hline'⟩ := h.declared stage kept hkept
    exact ⟨kept', hkept', hkey'.trans hkey, hline'.trans hline⟩
  noted n hn := h.noted n (hcarried.noted n hn)

/-- A subnet carries what the parts of its network contribute. -/
theorem Site.carries_splice {s : Site} {front : List Statement} {inner : List Part} {part : Part}
    (hquiet : ((Progress.start stage).addParts inner).listing.conflicts = [])
    (hpart : part ∈ inner) :
    Carries (s.splice front ((Progress.start stage).addParts inner)) part.contributions where
  declared target d hd := by
    have hcollects := Progress.collects_addParts target inner (.start stage)
    obtain ⟨kept, hkept, hkey, hline⟩ :=
      hcollects.met hquiet d (List.mem_flatMap.mpr ⟨part, hpart, hd⟩)
    exact ⟨kept.declaration, Site.mem_declarations_splice.mpr ⟨kept, hkept, rfl⟩, hkey, hline⟩
  noted n hn := by
    rw [← Contribution.mem_notes, Site.notes_splice, Progress.notes_addParts]
    exact List.mem_flatMap.mpr ⟨part, hpart, Contribution.mem_notes.mpr hn⟩

/-- The parts of a network are those that a stage needs. -/
theorem Graph.Emits.exists_part {parts : List Part} {order : List Node} {n : Node}
    (h : g.Emits b context stage scope roots parts)
    (horder : b.stageOrder g scope.path stage roots = .ok order) (hn : n ∈ order) :
    ∃ part ∈ parts, part.node = n := by
  rw [h.order] at horder
  cases horder
  exact List.mem_map.mp hn

/-- A node without a network is a leaf. -/
theorem Kind.emit_of_leaf {s : Site} {k : Kind} (hleaf : ∀ subnet, k ≠ .subnet subnet) :
    k.emit b s = b.emitLeaf s k := by
  cases k with
  | subnet subnet => exact absurd rfl (hleaf subnet)
  | _ =>
    rw [Kind.emit]
    simp

/-- **What a node adds reaches the parts around it**, through every subnet in between. -/
theorem Graph.Emits.carries_of_meets {s : Site} (hs : g.Meets b context stage scope roots s) :
    ∀ {parts : List Part}, g.Emits b context stage scope roots parts →
      ∃ cs, s.node.kind.emit b s = .ok cs ∧ ∃ part ∈ parts, Carries part.contributions cs := by
  induction hs with
  | @here scope roots g order n horder hn _ =>
    intro parts h
    obtain ⟨part, hpart, rfl⟩ := h.exists_part horder hn
    exact ⟨_, h.emitted part hpart, part, hpart, .refl _⟩
  | @inside scope roots g order n output subnet s horder hn hk ho _ ih =>
    intro parts h
    obtain ⟨part, hpart, rfl⟩ := h.exists_part horder hn
    obtain ⟨output', bindings, inner, ho', _, hinner, hcs, hquiet⟩ := h.subnet hpart hk
    rw [ho] at ho'
    cases ho'
    obtain ⟨cs, hemit, q, hq, hcarries⟩ := ih hinner
    refine ⟨cs, hemit, part, hpart, ?_⟩
    rw [hcs]
    exact (Site.carries_splice hquiet hq).trans hcarries

/-- **What parts declare was asked for by a leaf.** -/
theorem Graph.Emits.meets_of_declaration {target : Stage} {d : Declaration} :
    ∀ {g : Graph} {scope : Scope} {roots : List NodeId} {parts : List Part},
      g.Emits b context stage scope roots parts →
        ∀ part ∈ parts, d ∈ declarations target part.contributions →
          ∃ s cs, g.Meets b context stage scope roots s ∧ b.emitLeaf s s.node.kind = .ok cs ∧
            (∀ subnet, s.node.kind ≠ .subnet subnet) ∧ d ∈ declarations target cs := by
  intro g
  induction g using Graph.network_induction with
  | step g ih =>
    intro scope roots parts h part hpart hd
    have hmem : part.node ∈ parts.map (·.node) := List.mem_map_of_mem hpart
    rcases h.cases hpart with ⟨hleaf, hemit⟩ |
      ⟨subnet, output, bindings, inner, hk, houtput, _, hinner, hcs⟩
    · exact ⟨_, _, .here h.order hmem (h.supported part hpart), hemit, hleaf, hd⟩
    · rw [hcs] at hd
      obtain ⟨kept, hkept, rfl⟩ := Site.mem_declarations_splice.mp hd
      -- a program of its own starts without declarations, so its parts asked for this one
      rcases (Progress.collects_addParts target inner (.start stage)).fresh kept hkept with
        hstart | hasked
      · cases hstart
      · obtain ⟨q, hq, hd⟩ := List.mem_flatMap.mp hasked
        obtain ⟨s, cs, hs, hemit, hleaf, hd⟩ :=
          ih _ ⟨part.node, h.node_mem hpart, subnet, hk, rfl⟩ hinner q hq hd
        exact ⟨s, cs, .inside h.order hmem hk houtput hs, hemit, hleaf, hd⟩

/-! ## §3. Whole passes -/

namespace Backend.Builds

variable {output : NodeId} {builds : List (Stage × List Part)} {p : Progress}

/-- What a pass adds to a stage. -/
theorem collects (h : b.Builds g context output builds p) (stage : Stage) :
    Collects ((b.begin context.config output).collection stage) (p.collection stage)
      (builds.flatMap fun build => build.2.flatMap fun part =>
        Contribution.declarations stage part.contributions) := by
  have hfold : ∀ (builds : List (Stage × List Part)) (p : Progress),
      Collects (p.collection stage)
        ((builds.foldl (fun p build => p.addParts build.2) p).collection stage)
        (builds.flatMap fun build => build.2.flatMap fun part =>
          Contribution.declarations stage part.contributions) := by
    intro builds
    induction builds with
    | nil => exact fun p => .refl _
    | cons build builds ih => exact fun p => (p.collects_addParts stage build.2).trans (ih _)
  rw [h.result]
  exact hfold builds _

/-- What every stage declares was there before any node. -/
theorem collects_begin (b : Backend) (context : Context) (output : NodeId) (stage : Stage) :
    Collects ([], []) ((b.begin context.config output).collection stage)
      (Contribution.declarations stage
        (b.stages.map fun stage => .define stage (b.declarations context.config stage))) := by
  rw [Backend.begin_eq]
  exact Progress.collects_foldl_add output stage _
    { listing := { current := b.stages.head?.getD .point } }

theorem notes_of_part (h : b.Builds g context output builds p) {build : Stage × List Part}
    (hbuild : build ∈ builds) {part : Part} (hpart : part ∈ build.2) {n : Note}
    (hn : Contribution.note n ∈ part.contributions) : n ∈ p.notes := by
  rw [h.notes_eq]
  exact List.mem_flatMap.mpr
    ⟨build, hbuild, List.mem_flatMap.mpr ⟨part, hpart, Contribution.mem_notes.mpr hn⟩⟩

/-- A stage that a pass comes to was built. -/
theorem exists_build (h : b.Builds g context output builds p) (hstage : stage ∈ b.stages) :
    ∃ parts, (stage, parts) ∈ builds := by
  rw [← h.stages] at hstage
  obtain ⟨⟨_, parts⟩, hmem, rfl⟩ := List.mem_map.mp hstage
  exact ⟨parts, hmem⟩

end Backend.Builds

variable {p : Progress} {s : Site}

/-- A stage declares each name of a category once. -/
theorem Backend.nodup_definitions (h : b.pass g context = .ok p) (stage : Stage) :
    ((p.listing.definitionsOf stage).map (·.declaration.key)).Nodup := by
  obtain ⟨output, builds, hbuilds⟩ := Backend.builds_of_pass h
  have hbegin := Backend.Builds.collects_begin b context output stage
  exact (hbuilds.collects stage).nodup (hbegin.nodup List.nodup_nil)

/-- **A stage declares what any node had for it, word for word**, and the host is told what the
    node noted. -/
theorem Backend.includes_of_meets (h : b.pass g context = .ok p) (hs : b.Meets g context s) :
    ∃ cs, s.node.kind.emit b s = .ok cs ∧
      (∀ stage, ∀ d ∈ Contribution.declarations stage cs, p.Declares stage d) ∧
      ∀ n, Contribution.note n ∈ cs → n ∈ p.notes := by
  obtain ⟨output, builds, hbuilds⟩ := Backend.builds_of_pass h
  obtain ⟨output', houtput, hstage, hs⟩ := hs
  rw [hbuilds.found] at houtput
  cases houtput
  obtain ⟨parts, hbuild⟩ := hbuilds.exists_build hstage
  obtain ⟨cs, hemit, part, hpart, hcarries⟩ := (hbuilds.emits _ hbuild).carries_of_meets hs
  have hquiet := hbuilds.quiet ⟨_, hbuild, List.ne_nil_of_mem hpart⟩
  refine ⟨cs, hemit, fun stage d hd => ?_,
    fun n hn => hbuilds.notes_of_part hbuild hpart (hcarries.noted n hn)⟩
  obtain ⟨kept, hkept, hkey, hline⟩ := hcarries.declared stage d hd
  have hasked : kept ∈ builds.flatMap fun build => build.2.flatMap fun part =>
      Contribution.declarations stage part.contributions :=
    List.mem_flatMap.mpr ⟨_, hbuild, List.mem_flatMap.mpr ⟨part, hpart, hkept⟩⟩
  obtain ⟨d', hd', hkey', hline'⟩ := (hbuilds.collects stage).met hquiet kept hasked
  exact ⟨d', hd', hkey'.trans hkey, hline'.trans hline⟩

/-- So it declares what any leaf asked for. -/
theorem Backend.declares_of_meets (h : b.pass g context = .ok p) (hs : b.Meets g context s)
    (hleaf : ∀ subnet, s.node.kind ≠ .subnet subnet) :
    ∃ cs, b.emitLeaf s s.node.kind = .ok cs ∧
      (∀ stage, ∀ d ∈ Contribution.declarations stage cs, p.Declares stage d) ∧
      ∀ n, Contribution.note n ∈ cs → n ∈ p.notes := by
  rw [← Kind.emit_of_leaf hleaf]
  exact Backend.includes_of_meets h hs

/-- **What a stage declares** is what every stage declares, or what a leaf asked for. -/
theorem Backend.origin (h : b.pass g context = .ok p) {stage : Stage} {d : Definition}
    (hd : d ∈ p.listing.definitionsOf stage) :
    stage ∈ b.stages ∧ d.declaration ∈ b.declarations context.config stage ∨
      ∃ s cs, b.Meets g context s ∧ b.emitLeaf s s.node.kind = .ok cs ∧
        (∀ subnet, s.node.kind ≠ .subnet subnet) ∧
          d.declaration ∈ Contribution.declarations stage cs := by
  obtain ⟨output, builds, hbuilds⟩ := Backend.builds_of_pass h
  -- what the pass began with comes from the backend, all else from a part
  rcases (hbuilds.collects stage).fresh d hd with hbegin | hasked
  · left
    rcases (Backend.Builds.collects_begin b context output stage).fresh d hbegin with hnone | hasked
    · cases hnone
    · obtain ⟨c, hc, hown⟩ := List.mem_flatMap.mp hasked
      obtain ⟨target, htarget, rfl⟩ := List.mem_map.mp hc
      rw [declarationsFor] at hown
      split at hown
      next heq =>
        subst heq
        exact ⟨htarget, hown⟩
      next => cases hown
  · right
    obtain ⟨build, hbuild, hd⟩ := List.mem_flatMap.mp hasked
    obtain ⟨part, hpart, hd⟩ := List.mem_flatMap.mp hd
    obtain ⟨s, cs, hs, hemit, hleaf, hd⟩ :=
      (hbuilds.emits build hbuild).meets_of_declaration part hpart hd
    have hstage : build.1 ∈ b.stages := by
      rw [← hbuilds.stages]
      exact List.mem_map_of_mem hbuild
    have hsite := hs.stage_eq
    rw [← hsite] at hs hstage
    exact ⟨s, cs, ⟨output, hbuilds.found, hstage, hs⟩, hemit, hleaf, hd⟩

end ShaderFlow
