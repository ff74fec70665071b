/-
  ShaderFlow.Proofs.Listings — listings over whole sequences of calls.

  A listing is filled by calls, each for the stage that it names or for the current one, and its
  conflicts are taken from it now and then.  What it holds in the end is said here from what the
  calls offered, without following the listing: each stage keeps of every category and name the
  first definition that it was offered, and every later one that reads differently is a conflict.

  Main definitions:
    * `Listing.Call`, `Listing.run` — calls, and a listing with the conflicts taken from it;
    * `Listing.offers`              — what calls offer to stages, in order;
    * `Listing.Keeps`               — definitions of which the first of each key are kept;
    * `Listing.Groups`              — definitions by category, in their order otherwise;
    * `Listing.Fills`               — lines that are added to a body.

  Main statements:
    * `Listing.keeps_defineOne`, `Listing.accounts_next` — what one declaration and one call do;
    * `Listing.groups_grouped`                           — how a stage lists its definitions;
    * `Listing.fills_foldl_writeOne`                     — which lines are left out;
    * `Listing.accounts_for_calls`                       — every sequence of calls.
-/

import Mathlib.Data.List.Induction
import ShaderFlow.Code.Listing
import ShaderFlow.Proofs.Basic

namespace ShaderFlow

namespace Listing

variable {l : Listing} {stage : Stage}

/-! ## §1. Calls -/

/-- A call to a listing. -/
inductive Call where
  | define (owner : NodeId) (declarations : List Declaration) (stage : Option Stage)
  | write (owner : NodeId) (entries : List Entry) (repetition : Repetition)
      (stage : Option Stage)
  | enter (stage : Stage)
  | takeConflicts

/-- What a call hands out, and the listing that it leaves. -/
def perform (l : Listing) : Call → List Conflict × Listing
  | .define owner declarations stage => ([], l.define owner declarations stage)
  | .write owner entries repetition stage => ([], l.write owner entries repetition stage)
  | .enter stage => ([], l.enter stage)
  | .takeConflicts => l.takeConflicts

/-- A listing, and all the conflicts that were taken from it. -/
structure Run where
  listing : Listing
  taken : List Conflict := []

/-- A run goes on with one more call. -/
def Run.next (r : Run) (c : Call) : Run where
  listing := (r.listing.perform c).2
  taken := r.taken ++ (r.listing.perform c).1

/-- Calls to a listing that starts out empty. -/
def run (start : Stage) (calls : List Call) : Run :=
  calls.foldl Run.next { listing := { current := start } }

/-! ## §2. What calls offer -/

/-- A definition that a stage was offered, on behalf of the node of the call. -/
structure Offer where
  stage : Stage
  definition : Definition
deriving DecidableEq

/-- Declarations as they are offered on behalf of a node. -/
def offered (stage : Stage) (owner : NodeId) (declarations : List Declaration) : List Offer :=
  declarations.map fun declaration => { stage, definition := { owner, declaration } }

/-- What a call offers, where `current` is the stage of a call that names none. -/
def Call.offers (current : Stage) : Call → List Offer
  | .define owner declarations stage => offered (stage.getD current) owner declarations
  | .write .. | .enter _ | .takeConflicts => []

/-- The stage that is current behind a call. -/
def Call.current (current : Stage) : Call → Stage
  | .enter stage => stage
  | _ => current

/-- What calls offer, one after the other. -/
def offers (current : Stage) : List Call → List Offer
  | [] => []
  | c :: calls => c.offers current ++ offers (c.current current) calls

/-- The definitions that a stage was offered. -/
def offeredTo (stage : Stage) (os : List Offer) : List Definition :=
  (os.filter (·.stage == stage)).map (·.definition)

theorem offeredTo_append (os more : List Offer) :
    offeredTo stage (os ++ more) = offeredTo stage os ++ offeredTo stage more := by
  simp only [offeredTo, List.filter_append, List.map_append]

/-- The first definition with the key of a declaration. -/
def first? (definitions : List Definition) (d : Declaration) : Option Definition :=
  definitions.find? (·.declaration.key == d.key)

/-- The conflict that a definition comes to: it reads differently from the first one with its
    key. -/
def dissent? (definitions : List Definition) (d : Definition) : Option Conflict :=
  (first? definitions d.declaration).bind fun first =>
    if first.declaration.line == d.declaration.line then none
    else some ⟨d.owner, first.declaration, d.declaration⟩

/-- The conflicts that offers come to, in order.  The first offer of its key cannot differ from
    itself, so these are of later ones. -/
def conflictsAmong (os : List Offer) : List Conflict :=
  os.filterMap fun o => dissent? (offeredTo o.stage os) o.definition

/-! ## §3. Definitions -/

/-- Definitions of which the first of each key are kept, in the order in which the keys came
    up. -/
structure Keeps (definitions kept : List Definition) : Prop where
  keys : kept.map (·.declaration.key) = (definitions.map (·.declaration.key)).eraseDups
  first : ∀ key, kept.find? (·.declaration.key == key) =
    definitions.find? (·.declaration.key == key)

theorem Keeps.nil : Keeps [] [] := ⟨rfl, fun _ => rfl⟩

/-- What is kept for a key when one more definition is offered. -/
theorem first?_append (definitions : List Definition) (d : Definition) :
    first? (definitions ++ [d]) d.declaration =
      (first? definitions d.declaration).or (some d) := by
  simp [first?, List.find?_append]

/-- **One more declaration** is kept if its key is new, and comes to a conflict if it reads
    differently from the first one with its key. -/
theorem keeps_defineOne {definitions kept : List Definition} (h : Keeps definitions kept)
    (owner : NodeId) (conflicts : List Conflict) (d : Declaration) :
    Keeps (definitions ++ [⟨owner, d⟩]) (defineOne owner (kept, conflicts) d).1 ∧
      (defineOne owner (kept, conflicts) d).2 =
        conflicts ++ (dissent? definitions ⟨owner, d⟩).toList := by
  have hfirst : kept.find? (·.declaration.key == d.key) = first? definitions d := h.first d.key
  have hmem : d.key ∈ definitions.map (·.declaration.key) ↔ first? definitions d ≠ none := by
    simp [first?, List.find?_eq_none]
  have hkeys : (definitions ++ [(⟨owner, d⟩ : Definition)]).map (·.declaration.key) =
      definitions.map (·.declaration.key) ++ [d.key] := List.map_append
  cases hfind : first? definitions d with
  | none =>
    -- the key is new, so it comes behind those that are kept
    have hnew : d.key ∉ definitions.map (·.declaration.key) := fun hin => hmem.mp hin hfind
    have hkept : defineOne owner (kept, conflicts) d = (kept ++ [⟨owner, d⟩], conflicts) := by
      simp only [defineOne, hfirst, hfind]
    rw [hkept]
    refine ⟨⟨?_, fun key => ?_⟩, by simp [dissent?, hfind]⟩
    · rw [hkeys, eraseDups_append_singleton, List.map_append, h.keys, if_neg (by simpa using hnew)]
      rfl
    · rw [List.find?_append, List.find?_append, h.first key]
  | some existing =>
    have hin : d.key ∈ definitions.map (·.declaration.key) := hmem.mpr (by simp [hfind])
    have hsame : Keeps (definitions ++ [⟨owner, d⟩]) kept := by
      refine ⟨?_, fun key => ?_⟩
      · rw [hkeys, eraseDups_append_singleton, h.keys, if_pos (by simpa using hin)]
      · rw [List.find?_append, h.first key]
        by_cases hkey : d.key = key
        · subst hkey
          have hsome : definitions.find? (·.declaration.key == d.key) = some existing := hfind
          rw [hsome, Option.some_or]
        · have hnone : [(⟨owner, d⟩ : Definition)].find? (·.declaration.key == key) = none := by
            simpa using hkey
          rw [hnone, Option.or_none]
    have hdefine : defineOne owner (kept, conflicts) d =
        (kept, conflicts ++ (dissent? definitions ⟨owner, d⟩).toList) := by
      simp only [defineOne, hfirst, hfind, dissent?, Option.bind_some]
      split <;> simp
    rw [hdefine]
    exact ⟨hsame, rfl⟩

/-- One more offer can only come to a conflict itself. -/
theorem conflictsAmong_append (os : List Offer) (o : Offer) :
    conflictsAmong (os ++ [o]) =
      conflictsAmong os ++ (dissent? (offeredTo o.stage os) o.definition).toList := by
  have hto : offeredTo o.stage [o] = [o.definition] := by simp [offeredTo]
  have hold : ∀ e ∈ os, dissent? (offeredTo e.stage (os ++ [o])) e.definition =
      dissent? (offeredTo e.stage os) e.definition := by
    intro e he
    -- an earlier offer has its own key among the offers before, so the search ends there
    have hsome : (first? (offeredTo e.stage os) e.definition.declaration).isSome := by
      rw [first?, List.find?_isSome]
      refine ⟨e.definition, List.mem_map_of_mem (List.mem_filter.mpr ⟨he, ?_⟩), ?_⟩ <;> simp
    obtain ⟨first, hfirst⟩ := Option.isSome_iff_exists.mp hsome
    have hmore : first? (offeredTo e.stage (os ++ [o])) e.definition.declaration =
        some first := by
      rw [offeredTo_append, first?, List.find?_append]
      rw [first?] at hfirst
      rw [hfirst, Option.some_or]
    rw [dissent?, dissent?, hfirst, hmore]
  have hnew : dissent? (offeredTo o.stage (os ++ [o])) o.definition =
      dissent? (offeredTo o.stage os) o.definition := by
    rw [offeredTo_append, hto, dissent?, first?_append, dissent?]
    cases first? (offeredTo o.stage os) o.definition.declaration <;> simp
  rw [conflictsAmong, List.filterMap_append, List.filterMap_congr hold, conflictsAmong]
  congr 1
  rw [List.filterMap_cons, hnew]
  cases dissent? (offeredTo o.stage os) o.definition <;> rfl

/-- **Declarations that are offered together**, one after the other. -/
theorem keeps_foldl_defineOne (stage : Stage) (owner : NodeId) (taken : List Conflict) :
    ∀ (declarations : List Declaration) {os : List Offer} (state : List Definition × List Conflict),
      Keeps (offeredTo stage os) state.1 → taken ++ state.2 = conflictsAmong os →
        Keeps (offeredTo stage (os ++ offered stage owner declarations))
            (declarations.foldl (defineOne owner) state).1 ∧
          taken ++ (declarations.foldl (defineOne owner) state).2 =
            conflictsAmong (os ++ offered stage owner declarations)
  | [], os, state, hkeeps, hconflicts => by
    rw [offered, List.map_nil, List.append_nil]
    exact ⟨hkeeps, hconflicts⟩
  | d :: declarations, os, (kept, conflicts), hkeeps, hconflicts => by
    -- one declaration is offered after the other, and both parts hold after each of them
    let o : Offer := { stage, definition := ⟨owner, d⟩ }
    obtain ⟨hone, hmore⟩ := keeps_defineOne hkeeps owner conflicts d
    have hto : offeredTo stage (os ++ [o]) = offeredTo stage os ++ [⟨owner, d⟩] := by
      rw [offeredTo_append]
      simp [offeredTo, o]
    have hall : taken ++ (defineOne owner (kept, conflicts) d).2 = conflictsAmong (os ++ [o]) := by
      rw [hmore, ← List.append_assoc, hconflicts, conflictsAmong_append]
    rw [← hto] at hone
    have hrest := keeps_foldl_defineOne stage owner taken declarations _ hone hall
    have hsplit : os ++ [o] ++ offered stage owner declarations =
        os ++ offered stage owner (d :: declarations) := by
      simp [offered, o]
    rw [hsplit] at hrest
    exact hrest

/-! ## §4. What a stage lists -/

/-- Definitions by category, in the order of the categories, and within each category in the
    order in which they were. -/
structure Groups (definitions grouped : List Definition) : Prop where
  perm : grouped.Perm definitions
  sorted : grouped.Pairwise fun d e =>
    DefinitionKind.all.idxOf d.declaration.kind ≤ DefinitionKind.all.idxOf e.declaration.kind
  stable : ∀ kind, grouped.filter (·.declaration.kind == kind) =
    definitions.filter (·.declaration.kind == kind)

/-- What is picked key by key is all there is, if each key is picked once. -/
theorem perm_flatMap_filter {α κ : Type} [BEq κ] [LawfulBEq κ] (key : α → κ) :
    ∀ {keys : List κ} {items : List α}, keys.Nodup → (∀ item ∈ items, key item ∈ keys) →
      (keys.flatMap fun k => items.filter (key · == k)).Perm items
  | [], items, _, hkeys => by
    have hnone : items = [] := List.eq_nil_iff_forall_not_mem.mpr fun item hitem =>
      List.not_mem_nil (hkeys item hitem)
    rw [hnone, List.flatMap_nil]
  | k :: keys, items, hnodup, hkeys => by
    rw [List.nodup_cons] at hnodup
    let rest := items.filter (fun item => !(key item == k))
    -- the other keys pick from the rest what they pick from all
    have hpick : ∀ k' ∈ keys, items.filter (key · == k') = rest.filter (key · == k') := by
      intro k' hk'
      rw [List.filter_filter]
      refine List.filter_congr fun item _ => ?_
      by_cases heq : key item = k'
      · have hne : key item ≠ k := fun hk => hnodup.1 (hk ▸ heq ▸ hk')
        simp [heq ▸ hne, heq]
      · simp [heq]
    have hrest : (keys.flatMap fun k' => rest.filter (key · == k')).Perm rest := by
      refine perm_flatMap_filter key hnodup.2 fun item hitem => ?_
      obtain ⟨hitem, hne⟩ := List.mem_filter.mp hitem
      exact (List.mem_cons.mp (hkeys item hitem)).resolve_left (by simpa using hne)
    rw [List.flatMap_cons, List.flatMap_congr hpick]
    exact (hrest.append_left _).trans (List.filter_append_perm _ items)

/-- **A stage lists its definitions by category** and keeps their order otherwise. -/
theorem groups_grouped (l : Listing) (stage : Stage) :
    Groups (l.definitionsOf stage) (l.grouped stage) where
  perm := by
    have hnodup : DefinitionKind.all.Nodup := by decide
    refine perm_flatMap_filter (fun d : Definition => d.declaration.kind) hnodup fun d _ => ?_
    cases d.declaration.kind <;> decide
  sorted := by
    rw [grouped, List.pairwise_flatMap]
    constructor
    · intro kind _
      refine List.Pairwise.imp_of_mem ?_ (List.pairwise_of_forall fun _ _ => trivial)
      intro d e hd he _
      refine Nat.le_of_eq ?_
      rw [eq_of_beq (List.mem_filter.mp hd).2, eq_of_beq (List.mem_filter.mp he).2]
    · have hall : DefinitionKind.all.Pairwise fun kind kind' =>
          DefinitionKind.all.idxOf kind ≤ DefinitionKind.all.idxOf kind' := by decide
      refine hall.imp fun hle d hd e he => ?_
      rw [eq_of_beq (List.mem_filter.mp hd).2, eq_of_beq (List.mem_filter.mp he).2]
      exact hle
  stable kind := by
    have hpart : ∀ kind', ((l.definitionsOf stage).filter (·.declaration.kind == kind')).filter
          (·.declaration.kind == kind) =
        if kind' = kind then (l.definitionsOf stage).filter (·.declaration.kind == kind)
        else [] := by
      intro kind'
      rw [List.filter_filter]
      split
      next heq => simp [heq]
      next hne => simp +contextual [Ne.symm hne]
    rw [grouped, List.filter_flatMap]
    simp only [hpart]
    cases kind <;> simp [DefinitionKind.all]

/-! ## §5. Lines -/

end Listing

/-- Whether a line is left out behind another one. -/
def Repetition.Repeats (repetition : Repetition) (other l : Line) : Prop :=
  match repetition with
  | .allowed => False
  | .oncePerOwner => other.text = l.text ∧ other.owner = l.owner
  | .once => other.text = l.text

namespace Listing

variable {repetition : Repetition} {owner : NodeId} {before after : List Line}
  {entries : List Entry}

/-- Lines that are added to a body on behalf of a node: none that repeats a line before it, and
    all others. -/
structure Fills (repetition : Repetition) (owner : NodeId) (entries : List Entry)
    (before after : List Line) : Prop where
  grown : ∃ added, after = before ++ added ∧ added.Sublist (entries.map (Line.mk owner)) ∧
    (∀ l ∈ added, ∀ other ∈ before, ¬repetition.Repeats other l) ∧
    added.Pairwise (fun other l => ¬repetition.Repeats other l) ∧
    (repetition = .allowed → added = entries.map (Line.mk owner))
  met : ∀ e ∈ entries, ⟨owner, e⟩ ∈ after ∨ ∃ other ∈ after, repetition.Repeats other ⟨owner, e⟩

theorem isRepeated_iff (e : Entry) :
    isRepeated repetition owner e before = true ↔
      ∃ other ∈ before, repetition.Repeats other ⟨owner, e⟩ := by
  cases repetition <;> simp [isRepeated, Repetition.Repeats, Line.text]

theorem Fills.nil : Fills repetition owner [] before before where
  grown := ⟨[], (List.append_nil _).symm, List.Sublist.refl _, List.forall_mem_nil _,
    List.Pairwise.nil, fun _ => rfl⟩
  met := List.forall_mem_nil _

/-- One line is added unless it repeats one that is there. -/
theorem fills_writeOne (before : List Line) (e : Entry) :
    Fills repetition owner [e] before (writeOne repetition owner before e) := by
  rw [writeOne]
  split
  next hrepeated =>
    obtain ⟨other, hother, hrepeats⟩ := (isRepeated_iff e).mp hrepeated
    refine ⟨⟨[], (List.append_nil _).symm, List.nil_sublist _, List.forall_mem_nil _,
      List.Pairwise.nil, ?_⟩, ?_⟩
    · rintro rfl
      exact hrepeats.elim
    · intro e' he'
      rw [List.mem_singleton.mp he']
      exact .inr ⟨other, hother, hrepeats⟩
  next hnew =>
    refine ⟨⟨[⟨owner, e⟩], rfl, List.Sublist.refl _, ?_, List.pairwise_singleton _ _,
      fun _ => rfl⟩, ?_⟩
    · intro l hl other hother hrepeats
      rw [List.mem_singleton.mp hl] at hrepeats
      exact hnew ((isRepeated_iff e).mpr ⟨other, hother, hrepeats⟩)
    · intro e' he'
      rw [List.mem_singleton.mp he']
      exact .inl (List.mem_append_right _ List.mem_cons_self)

theorem Fills.trans {more : List Entry} {last : List Line}
    (h : Fills repetition owner entries before after)
    (hmore : Fills repetition owner more after last) :
    Fills repetition owner (entries ++ more) before last := by
  obtain ⟨added, rfl, hsub, hfresh, hpairwise, hall⟩ := h.grown
  obtain ⟨later, rfl, hsub', hfresh', hpairwise', hall'⟩ := hmore.grown
  refine ⟨⟨added ++ later, List.append_assoc .., ?_, ?_, ?_, ?_⟩, ?_⟩
  · rw [List.map_append]
    exact hsub.append hsub'
  · intro l hl other hother
    rcases List.mem_append.mp hl with hl | hl
    · exact hfresh l hl other hother
    · exact hfresh' l hl other (List.mem_append_left _ hother)
  · refine List.pairwise_append.mpr ⟨hpairwise, hpairwise', fun other hother l hl => ?_⟩
    exact hfresh' l hl other (List.mem_append_right _ hother)
  · intro hallowed
    rw [hall hallowed, hall' hallowed, List.map_append]
  · intro e he
    rcases List.mem_append.mp he with he | he
    · rcases h.met e he with hmem | ⟨other, hother, hrepeats⟩
      · exact .inl (List.mem_append_left _ hmem)
      · exact .inr ⟨other, List.mem_append_left _ hother, hrepeats⟩
    · exact hmore.met e he

/-- **Lines that are written together**, one after the other. -/
theorem fills_foldl_writeOne : ∀ (entries : List Entry) (before : List Line),
    Fills repetition owner entries before (entries.foldl (writeOne repetition owner) before)
  | [], _ => .nil
  | e :: entries, before =>
    (fills_writeOne before e).trans (fills_foldl_writeOne entries _)

/-! ## §6. One call -/

/-- The stage that a call adds to. -/
def Call.target? (current : Stage) : Call → Option Stage
  | .define _ _ stage | .write _ _ _ stage => some (stage.getD current)
  | _ => none

/-- What a call may do to what stages hold: it adds behind what is there, to its own stage only,
    and of the lines that it writes none that repeats a line before it. -/
structure Call.Extends (c : Call) (before after : Listing) : Prop where
  definitions : ∀ stage, before.definitionsOf stage <+: after.definitionsOf stage
  bodies : ∀ stage, before.body stage <+: after.body stage
  elsewhere : ∀ stage, c.target? before.current ≠ some stage →
    after.definitionsOf stage = before.definitionsOf stage ∧ after.body stage = before.body stage
  fills : ∀ {owner entries repetition named}, c = .write owner entries repetition named →
    Fills repetition owner entries (before.body (named.getD before.current))
      (after.body (named.getD before.current))

theorem definitionsOf_define (l : Listing) (owner : NodeId) (declarations : List Declaration)
    (named : Option Stage) (stage : Stage) :
    (l.define owner declarations named).definitionsOf stage =
      if named.getD l.current = stage then
        (declarations.foldl (defineOne owner) (l.definitionsOf stage, l.conflicts)).1
      else l.definitionsOf stage := by
  split
  next heq =>
    subst heq
    simp only [define, definitionsOf, Table.get?_put_self, Option.getD_some]
  next hne => simp only [define, definitionsOf, Table.get?_put_of_ne hne]

theorem body_write (l : Listing) (owner : NodeId) (entries : List Entry)
    (repetition : Repetition) (named : Option Stage) (stage : Stage) :
    (l.write owner entries repetition named).body stage =
      if named.getD l.current = stage then
        entries.foldl (writeOne repetition owner) (l.body stage)
      else l.body stage := by
  split
  next heq =>
    subst heq
    simp only [write, body, Table.get?_put_self, Option.getD_some]
  next hne => simp only [write, body, Table.get?_put_of_ne hne]

theorem defineOne_isPrefix (owner : NodeId) (state : List Definition × List Conflict)
    (d : Declaration) : state.1 <+: (defineOne owner state d).1 := by
  obtain ⟨kept, conflicts⟩ := state
  simp only [defineOne]
  split
  · exact List.prefix_append _ _
  · split <;> exact List.prefix_rfl

theorem foldl_defineOne_isPrefix (owner : NodeId) :
    ∀ (declarations : List Declaration) (state : List Definition × List Conflict),
      state.1 <+: (declarations.foldl (defineOne owner) state).1
  | [], _ => List.prefix_rfl
  | d :: declarations, state =>
    (defineOne_isPrefix owner state d).trans (foldl_defineOne_isPrefix owner declarations _)

/-- **Every call** only adds, and to its own stage. -/
theorem extends_perform (l : Listing) (c : Call) : c.Extends l (l.perform c).2 := by
  cases c with
  | define owner declarations named =>
    refine ⟨fun stage => ?_, fun stage => List.prefix_rfl, fun stage hne => ⟨?_, rfl⟩, ?_⟩
    · simp only [perform, definitionsOf_define]
      split
      · exact foldl_defineOne_isPrefix owner declarations (l.definitionsOf stage, l.conflicts)
      · exact List.prefix_rfl
    · exact (definitionsOf_define ..).trans (if_neg fun heq => hne (congrArg some heq))
    · rintro _ _ _ _ ⟨⟩
  | write owner entries repetition named =>
    have hfills : ∀ before, Fills repetition owner entries before
        (entries.foldl (writeOne repetition owner) before) := fills_foldl_writeOne entries
    refine ⟨fun stage => List.prefix_rfl, fun stage => ?_, fun stage hne => ⟨rfl, ?_⟩, ?_⟩
    · simp only [perform, body_write]
      split
      · obtain ⟨added, hadded, -⟩ := (hfills (l.body stage)).grown
        exact ⟨added, hadded.symm⟩
      · exact List.prefix_rfl
    · exact (body_write ..).trans (if_neg fun heq => hne (congrArg some heq))
    · rintro _ _ _ _ ⟨⟩
      simp only [perform, body_write, if_true]
      exact hfills _
  -- these two change neither declarations nor bodies
  | enter stage =>
    refine ⟨fun _ => List.prefix_rfl, fun _ => List.prefix_rfl, fun _ _ => ⟨rfl, rfl⟩, ?_⟩
    rintro _ _ _ _ ⟨⟩
  | takeConflicts =>
    refine ⟨fun _ => List.prefix_rfl, fun _ => List.prefix_rfl, fun _ _ => ⟨rfl, rfl⟩, ?_⟩
    rintro _ _ _ _ ⟨⟩

/-! ## §7. Every sequence of calls -/

/-- What a run holds, said from what its calls offered. -/
structure Run.Accounts (os : List Offer) (r : Run) : Prop where
  keeps : ∀ stage, Keeps (offeredTo stage os) (r.listing.definitionsOf stage)
  conflicts : r.taken ++ r.listing.conflicts = conflictsAmong os

theorem offeredTo_offered_of_ne {stage target : Stage} (hne : target ≠ stage) (owner : NodeId)
    (declarations : List Declaration) :
    offeredTo stage (offered target owner declarations) = [] := by
  simp [offeredTo, offered, List.filter_map, Function.comp_def, hne]

/-- **One more call**, whatever the calls before it were. -/
theorem accounts_next {os : List Offer} {r : Run} (h : r.Accounts os) (c : Call) :
    (r.next c).Accounts (os ++ c.offers r.listing.current) ∧
      (r.next c).listing.current = c.current r.listing.current := by
  cases c with
  | define owner declarations named =>
    have hdefine := fun stage hkeeps => keeps_foldl_defineOne stage owner r.taken declarations
      (r.listing.definitionsOf stage, r.listing.conflicts) hkeeps h.conflicts
    refine ⟨⟨fun stage => ?_, ?_⟩, rfl⟩
    · have hof := definitionsOf_define r.listing owner declarations named stage
      split at hof
      next heq =>
        subst heq
        exact hof ▸ (hdefine _ (h.keeps _)).1
      next hne =>
        have hkeeps := h.keeps stage
        rw [← hof] at hkeeps
        rw [Call.offers, offeredTo_append, offeredTo_offered_of_ne hne, List.append_nil]
        exact hkeeps
    · rw [Run.next, perform, List.append_nil]
      exact (hdefine _ (h.keeps _)).2
  | write owner entries repetition named =>
    rw [Call.offers, List.append_nil]
    refine ⟨⟨h.keeps, ?_⟩, rfl⟩
    rw [Run.next, perform, List.append_nil]
    exact h.conflicts
  | enter stage =>
    rw [Call.offers, List.append_nil]
    refine ⟨⟨h.keeps, ?_⟩, rfl⟩
    rw [Run.next, perform, List.append_nil]
    exact h.conflicts
  -- the conflicts move to those that were taken, behind the ones from before
  | takeConflicts =>
    rw [Call.offers, List.append_nil]
    refine ⟨⟨h.keeps, ?_⟩, rfl⟩
    show (r.taken ++ r.listing.conflicts) ++ [] = _
    rw [List.append_nil]
    exact h.conflicts

theorem accounts_foldl_next : ∀ (calls : List Call) {os : List Offer} {r : Run}, r.Accounts os →
    (calls.foldl Run.next r).Accounts (os ++ offers r.listing.current calls)
  | [], os, r, h => by
    rw [offers, List.append_nil]
    exact h
  | c :: calls, os, r, h => by
    obtain ⟨hnext, hcurrent⟩ := accounts_next h c
    rw [offers, ← List.append_assoc, ← hcurrent]
    exact accounts_foldl_next calls hnext

/-- **What any sequence of calls comes to.**  Each stage holds the first definition of each
    category and name that it was offered, on behalf of the node that offered it, in the order of
    these; the conflicts that were taken and those that are left are the later offers that read
    differently, in the order of the calls; a stage lists its definitions by category and
    otherwise in their order; and one more call adds behind what its own stage holds, and of the
    lines that it writes none that repeats a line before it. -/
theorem accounts_for_calls (start : Stage) (calls : List Call) :
    (run start calls).Accounts (offers start calls) ∧
      (∀ stage, ∃ grouped,
        Groups ((run start calls).listing.definitionsOf stage) grouped ∧
          (run start calls).listing.definitionLines stage = grouped.map (·.declaration.line)) ∧
      ∀ c : Call, c.Extends (run start calls).listing ((run start calls).next c).listing := by
  refine ⟨?_, fun stage => ⟨_, groups_grouped _ stage, rfl⟩, fun c => extends_perform _ c⟩
  have hempty : Run.Accounts [] { listing := { current := start } } :=
    ⟨fun _ => Keeps.nil, rfl⟩
  have hrun := accounts_foldl_next calls hempty
  rw [List.nil_append] at hrun
  exact hrun

end Listing

end ShaderFlow
