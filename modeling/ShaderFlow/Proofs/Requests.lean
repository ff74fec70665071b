/-
  ShaderFlow.Proofs.Requests — what requests for attributes come to.

  A table of places is built for a signature: the attributes that are asked for, each with the
  type that it is stored with.  The signature is collected request by request; what it comes to
  is said here without the collecting.

  Main definitions:
    * `asked`, `mentioned`, `widest` — what is asked for, the names in the order in which they
      were first met, and the widest type of each;
    * `summary` — the signature that requests come to;
    * `Accepts` — requests that can be stored.

  Main statements:
    * `signatureOf_eq_ok`           — the signature is the summary, where there is one;
    * `keys_summary`, `get?_summary` — its names and its types;
    * `summary_eq_iff`              — requests that differ in order only differ in order of names.
-/

import Mathlib.Data.List.MinMax
import Mathlib.Data.List.Nodup
import ShaderFlow.Allocation
import ShaderFlow.Compile.Needs
import ShaderFlow.Proofs.Basic

namespace ShaderFlow

/-! ## §1. Names that were met -/

namespace Needs

theorem mem_meet {names : List String} {name other : String} :
    other ∈ meet names name ↔ other ∈ names ∨ other = name := by
  unfold meet
  split
  next hmet =>
    have hmem : name ∈ names := by simpa using hmet
    constructor
    · exact .inl
    · rintro (h | rfl)
      · exact h
      · exact hmem
  next => simp

theorem nodup_meet {names : List String} (h : names.Nodup) (name : String) :
    (meet names name).Nodup := by
  unfold meet
  split
  next => exact h
  next hnew =>
    have hnot : name ∉ names := by simpa using hnew
    rw [List.nodup_append]
    refine ⟨h, List.nodup_singleton _, ?_⟩
    intro a ha b hb
    rw [List.mem_singleton.mp hb]
    exact fun heq => hnot (heq ▸ ha)

end Needs

namespace Allocations

/-! ## §2. What is asked for -/

/-- What is asked for: the position of every system, and then what the requests name. -/
def asked (requests : List AttributeRequest) : Table String PortType :=
  (positionName, .vector3) :: requests.map fun r => (r.name, r.type)

/-- The names that are asked for, in the order in which they were first met. -/
def mentioned (requests : List AttributeRequest) : List String :=
  (asked requests).keys.foldl Needs.meet []

/-- The widest type that an attribute is asked for with, the first one of several. -/
def widest (requests : List AttributeRequest) (name : String) : Option PortType :=
  (Table.values ((asked requests).filter (·.1 == name))).argmax PortType.components

/-- Takes one more type of an attribute into account. -/
def absorb (merged : Table String PortType) (ask : String × PortType) : Table String PortType :=
  merged.change ask.1 ask.2 fun type =>
    if ask.2.components > type.components then ask.2 else type

/-- The signature that requests come to. -/
def summary (requests : List AttributeRequest) : Table String PortType :=
  (asked requests).foldl absorb []

/-- Requests that can be stored: the textures have room for a position, are no wider than a
    render target, and every type fills one to all of their channels. -/
structure Accepts (requests : List AttributeRequest) (options : ParticlesOptions) : Prop where
  room : 3 ≤ options.channelsPerTexture.toNat
  target : options.channelsPerTexture.toNat ≤ ParticlesOptions.maxChannels
  filled : ∀ r ∈ requests, 0 < r.type.components
  narrow : ∀ r ∈ requests, r.type.components ≤ options.channelsPerTexture.toNat

variable {requests : List AttributeRequest} {channels : Nat}

/-- Whatever is asked for is answered with a type that is as wide. -/
theorem widest_of_mem {ask : String × PortType} (h : ask ∈ asked requests) :
    ∃ type, widest requests ask.1 = some type ∧ ask.2.components ≤ type.components := by
  have hmem : ask.2 ∈ Table.values ((asked requests).filter (·.1 == ask.1)) :=
    List.mem_map.mpr ⟨ask, List.mem_filter.mpr ⟨h, by simp⟩, rfl⟩
  -- a list with a member has a widest one
  cases hwidest : widest requests ask.1 with
  | none =>
    rw [widest, List.argmax_eq_none] at hwidest
    rw [hwidest] at hmem
    cases hmem
  | some type => exact ⟨type, rfl, List.le_of_mem_argmax hmem hwidest⟩

/-- An attribute is stored with a type that it was asked for with. -/
theorem mem_asked_of_widest {name : String} {type : PortType}
    (h : widest requests name = some type) : (name, type) ∈ asked requests := by
  obtain ⟨ask, hask, rfl⟩ := List.mem_map.mp (List.argmax_mem h)
  obtain ⟨hmem, hname⟩ := List.mem_filter.mp hask
  rw [← beq_iff_eq.mp hname]
  exact hmem

theorem Accepts.components {options : ParticlesOptions} (h : Accepts requests options)
    {ask : String × PortType} (hask : ask ∈ asked requests) :
    0 < ask.2.components ∧ ask.2.components ≤ options.channelsPerTexture.toNat := by
  rcases List.mem_cons.mp hask with rfl | hask
  · exact ⟨by decide, h.room⟩
  · obtain ⟨r, hr, rfl⟩ := List.mem_map.mp hask
    exact ⟨h.filled r hr, h.narrow r hr⟩

/-! ## §3. The signature -/

theorem keys_absorb (merged : Table String PortType) (ask : String × PortType) :
    (absorb merged ask).keys = Needs.meet merged.keys ask.1 := by
  rw [absorb, Table.keys_change, Needs.meet]
  have hhas : merged.has ask.1 = merged.keys.contains ask.1 := by
    rw [Bool.eq_iff_iff, Table.has_eq_true, List.contains_iff_mem]
  rw [hhas]

theorem keys_foldl_absorb :
    ∀ (asks merged : Table String PortType),
      (asks.foldl absorb merged).keys = asks.keys.foldl Needs.meet merged.keys
  | [], merged => rfl
  | ask :: asks, merged => by
    rw [List.foldl_cons, keys_foldl_absorb asks, keys_absorb]
    rfl

/-- The names of a signature are those that were met, in order. -/
theorem keys_summary (requests : List AttributeRequest) :
    (summary requests).keys = mentioned requests :=
  keys_foldl_absorb (asked requests) []

/-- The types of a signature are the widest ones. -/
theorem get?_foldl_absorb (asks : Table String PortType) (name : String) :
    Table.get? (asks.foldl absorb []) name =
      (Table.values (asks.filter (·.1 == name))).argmax PortType.components := by
  induction asks using List.reverseRecOn with
  | nil => rfl
  | append_singleton asks ask ih =>
    rw [List.foldl_append, List.foldl_cons, List.foldl_nil, List.filter_append]
    by_cases hname : ask.1 = name
    · subst hname
      have hlast : Table.values (asks.filter (·.1 == ask.1) ++ [ask].filter (·.1 == ask.1)) =
          Table.values (asks.filter (·.1 == ask.1)) ++ [ask.2] := by
        simp [Table.values]
      rw [absorb, Table.get?_change_self, ih, hlast, List.argmax_concat]
      cases (Table.values (asks.filter (·.1 == ask.1))).argmax PortType.components with
      | none => simp
      | some best =>
        -- a type that is only as wide does not replace the one that was met first
        show some (if best.components < ask.2.components then ask.2 else best) =
          if best.components < ask.2.components then some ask.2 else some best
        exact apply_ite some _ ask.2 best
    · have hlast : [ask].filter (·.1 == name) = [] := by simp [hname]
      rw [absorb, Table.get?_change_of_ne hname, ih, hlast, List.append_nil]

theorem get?_summary (requests : List AttributeRequest) (name : String) :
    (summary requests).get? name = widest requests name :=
  get?_foldl_absorb (asked requests) name

/-- Names that are met one after the other are among those that were met. -/
theorem mem_foldl_meet {name : String} :
    ∀ {asks names : List String}, name ∈ asks.foldl Needs.meet names ↔ name ∈ names ∨ name ∈ asks
  | [], names => by simp
  | ask :: asks, names => by
    rw [List.foldl_cons, mem_foldl_meet, Needs.mem_meet, List.mem_cons, or_assoc]

theorem mem_mentioned {name : String} :
    name ∈ mentioned requests ↔ name ∈ (asked requests).keys := by
  rw [mentioned, mem_foldl_meet]
  simp

/-- The position is always asked for. -/
theorem summary_ne_nil (requests : List AttributeRequest) : summary requests ≠ [] := by
  intro hempty
  have hposition : positionName ∈ (summary requests).keys := by
    rw [keys_summary, mem_mentioned]
    exact List.mem_cons_self
  rw [hempty] at hposition
  cases hposition

theorem nodup_mentioned (requests : List AttributeRequest) : (mentioned requests).Nodup := by
  have hfold : ∀ asks names : List String, names.Nodup → (asks.foldl Needs.meet names).Nodup := by
    intro asks
    induction asks with
    | nil => exact fun _ h => h
    | cons name asks ih => exact fun names h => ih _ (Needs.nodup_meet h name)
  exact hfold _ _ List.nodup_nil

/-- Attributes that are asked for once each are stored as they are asked for. -/
theorem summary_of_nodup (h : (asked requests).keys.Nodup) : summary requests = asked requests := by
  -- behind any table of other names, since the table grows with every request
  have hfold : ∀ asks merged : Table String PortType, Table.keys (merged ++ asks) |>.Nodup →
      asks.foldl absorb merged = merged ++ asks := by
    intro asks
    induction asks with
    | nil => exact fun merged _ => (List.append_nil merged).symm
    | cons ask asks ih =>
      intro merged hnodup
      have hnew : ask.1 ∉ merged.keys := by
        rw [Table.keys_append] at hnodup
        exact fun hmem => List.disjoint_of_nodup_append hnodup hmem List.mem_cons_self
      have hput : absorb merged ask = merged ++ [ask] := by
        rw [absorb, Table.change, if_neg (mt Table.has_eq_true.mp hnew)]
        simp
      rw [List.foldl_cons, hput, ih _ (by simpa using hnodup), List.append_assoc,
        List.singleton_append]
  exact hfold (asked requests) [] h

/-- What is stored was asked for. -/
theorem mem_asked_of_mem_summary {stored : String × PortType} (h : stored ∈ summary requests) :
    stored ∈ asked requests := by
  have hnodup : (summary requests).keys.Nodup := keys_summary requests ▸ nodup_mentioned requests
  have hget := Table.get?_of_mem hnodup h
  rw [get?_summary] at hget
  exact mem_asked_of_widest hget

/-- **Signatures that name the same attributes with the same types differ in the order of the
    names only.** -/
theorem summary_eq_iff {first second : List AttributeRequest}
    (h : ∀ name, widest first name = widest second name) :
    summary first = summary second ↔ mentioned first = mentioned second := by
  constructor
  · intro heq
    rw [← keys_summary, heq, keys_summary]
  · intro hnames
    refine Table.eq_of_get? ?_ ?_ fun name => ?_
    · rw [keys_summary]
      exact nodup_mentioned first
    · rw [keys_summary, keys_summary, hnames]
    · rw [get?_summary, get?_summary, h]

/-! ## §4. Requests that can be stored -/

theorem foldlM_merge :
    ∀ {requests : List AttributeRequest} {merged signature : Table String PortType},
      requests.foldlM (merge channels) merged = .ok signature ↔
        (∀ r ∈ requests, 0 < r.type.components ∧ r.type.components ≤ channels) ∧
          signature = (requests.map fun r => (r.name, r.type)).foldl absorb merged
  | [], merged, signature => by
    rw [List.foldlM_nil, pure_eq_ok, eq_comm]
    simp
  | r :: requests, merged, signature => by
    -- the width is checked before the type is taken in, so a step is a guard on its request alone
    have hstep : merge channels merged r =
        if 0 < r.type.components ∧ r.type.components ≤ channels then
          .ok (absorb merged (r.name, r.type))
        else .error (.unsupportedAttributeType r.node r.name r.type) := by
      unfold merge
      simp only [Bool.or_eq_true, beq_iff_eq, decide_eq_true_eq]
      split <;> split
      · omega
      · rfl
      · rfl
      · omega
    rw [List.foldlM_cons, bind_eq_ok, hstep]
    constructor
    · rintro ⟨next, hnext, hrest⟩
      split at hnext
      next hfits =>
        cases hnext
        obtain ⟨hall, hsignature⟩ := foldlM_merge.mp hrest
        refine ⟨fun other hother => ?_, hsignature⟩
        rcases List.mem_cons.mp hother with rfl | hother
        · exact hfits
        · exact hall other hother
      next => cases hnext
    · rintro ⟨hall, hsignature⟩
      refine ⟨_, if_pos (hall r List.mem_cons_self), foldlM_merge.mpr ⟨?_, hsignature⟩⟩
      exact fun other hother => hall other (List.mem_cons_of_mem _ hother)

/-- **The signature is the summary of the requests**, where there is one: where the channels
    hold a position and each of the types. -/
theorem signatureOf_eq_ok {signature : Table String PortType} :
    signatureOf requests channels = .ok signature ↔
      3 ≤ channels ∧ (∀ r ∈ requests, 0 < r.type.components ∧ r.type.components ≤ channels) ∧
        signature = summary requests := by
  unfold signatureOf
  show (if 3 > channels then _ else _) = _ ↔ _
  split
  next hfew =>
    constructor
    · intro h
      cases h
    · rintro ⟨henough, _⟩
      omega
  next henough =>
    rw [foldlM_merge]
    have hposition : 3 ≤ channels := by omega
    exact (and_iff_right hposition).symm

end Allocations

end ShaderFlow
