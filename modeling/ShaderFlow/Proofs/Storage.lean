/-
  ShaderFlow.Proofs.Storage — what a host can rely on of a table of places.

  An attribute that moves loses its value, and two attributes at one place lose both.  A table
  keeps its places as long as attributes are first asked for in the same order, and its places
  are different as long as there are no more textures than indices.

  Main definitions:
    * `AttributeAllocation.Occupies` — the channels of an attribute;
    * `Allocations.Addressed`        — indices and channels say where attributes are stored.

  Main statements:
    * `Allocations.update_again`   — when requests for the same attributes move them;
    * `Allocations.addressed_iff`  — when the places of a table are different;
    * `Allocations.pairwise_names` — when the samplers of a table are different.
-/

import ShaderFlow.Backend.Particles
import ShaderFlow.Proofs.Packing

namespace ShaderFlow

open Allocations

variable {t t' : Allocations} {requests first second : List AttributeRequest}
  {options : ParticlesOptions} {changed : Bool} {packing : Packing} {groups : List Group}

/-! ## §1. Keeping places -/

namespace Allocations

/-- **Requests for the same attributes, with the same widest types, keep the whole table if they
    first name the attributes in the same order**, however often; in any other order they have
    the table built anew. -/
theorem update_again (hfirst : t.update first options = .ok (changed, t'))
    (hsecond : Accepts second options) (hsame : ∀ name, widest first name = widest second name) :
    t'.update second options =
      .ok (if mentioned first = mentioned second then (false, t')
        else (true, t'.rebuilt second options)) := by
  have hsettled : t'.settled second options = true ↔ mentioned first = mentioned second := by
    -- the table was left as the first requests want it, so the signatures alone decide
    obtain ⟨hsignature, hpacking, hsome⟩ := settled_iff.mp (settled_of_update hfirst)
    rw [settled_iff, hsignature, summary_eq_iff hsame]
    exact and_iff_left ⟨hpacking, hsome⟩
  rw [update_of_accepts hsecond]
  exact congrArg _ (if_congr hsettled rfl rfl)

/-- A node asks for a float. -/
def floatRequest (name : String) : AttributeRequest where
  name
  type := .float
  node := { id := ⟨0⟩, path := "/g/" ++ name }

/-- Nodes ask for an age and then for a seed. -/
def agedRequests : List AttributeRequest := [floatRequest "age", floatRequest "seed"]

/-- What is asked for twice is stored once, where it was. -/
theorem update_repeated :
    ∃ settled, update {} agedRequests {} = .ok (true, settled) ∧
      settled.update (agedRequests ++ agedRequests) {} = .ok (false, settled) := by
  have haccepts : Accepts (agedRequests ++ agedRequests) {} :=
    { room := by decide, target := by decide, filled := by decide, narrow := by decide }
  have hsame : ∀ name, widest agedRequests name = widest (agedRequests ++ agedRequests) name := by
    intro name
    rw [← get?_summary, ← get?_summary]
    rfl
  have hfirst : update {} agedRequests {} = .ok (true, rebuilt {} agedRequests {}) := rfl
  exact ⟨_, hfirst, (update_again hfirst haccepts hsame).trans rfl⟩

/-- Asking for the seed first moves the age. -/
theorem update_reordered :
    ∃ settled moved, update {} agedRequests {} = .ok (true, settled) ∧
      (∀ name, widest agedRequests name = widest agedRequests.reverse name) ∧
      settled.update agedRequests.reverse {} = .ok (true, moved) ∧
      settled.get? "age" ≠ moved.get? "age" := by
  refine ⟨_, _, rfl, ?_, rfl, by decide⟩
  intro name
  by_cases hage : name = "age"
  · subst hage
    rfl
  · by_cases hseed : name = "seed"
    · subst hseed
      rfl
    · simp [widest, asked, agedRequests, floatRequest, List.filter_cons, Ne.symm hage,
        Ne.symm hseed]

end Allocations

/-! ## §2. Places that are different -/

/-- The channels of its texture that an attribute is stored in. -/
def AttributeAllocation.Occupies (a : AttributeAllocation) (channel : Nat) : Prop :=
  a.offset ≤ channel ∧ channel < a.offset + a.type.components

namespace Allocations

/-- Indices and channels say where attributes are stored: no channel is taken twice, the index
    of an attribute leads to the one texture that lists it, and every texture has a stage. -/
structure Addressed (t : Allocations) : Prop where
  apart : ∀ {name other a b}, t.get? name = some a → t.get? other = some b → name ≠ other →
    a.texture = b.texture → ∀ channel, a.Occupies channel → ¬b.Occupies channel
  stored : ∀ {name a}, t.get? name = some a → a.texture < t.textures.length
  listed : ∀ {name a i texture}, t.get? name = some a → t.textures[i]? = some texture →
    (name ∈ texture.attributes ↔ i = a.texture)
  staged : Particles.stages t = (List.range t.textures.length).map Stage.simulation

/-- As long as there are indices, each texture has its own. -/
theorem Packed.addressed (h : t.Packed packing groups) (hfew : groups.length ≤ lastIndex + 1) :
    t.Addressed where
  apart := by
    intro name other a b ha hb hne htexture channel
    obtain ⟨i, front, back, hi, ha⟩ := h.exists_of_get? ha
    obtain ⟨j, front', back', hj, hb⟩ := h.exists_of_get? hb
    have hilt := (List.getElem?_eq_some_iff.mp hi).1
    have hjlt := (List.getElem?_eq_some_iff.mp hj).1
    -- an index that is not cut off names one group, which then holds both attributes
    have hij : i = j := by
      rw [ha, hb] at htexture
      simp only at htexture
      omega
    subst hij
    have hsplit := Option.some.inj (hi.symm.trans hj)
    have hpair : (name, a.type) ≠ (other, b.type) := fun heq => hne (Prod.mk.inj heq).1
    have hapart := Group.apart_of_ne hsplit hpair
    have haoffset : a.offset = Group.width front := by rw [ha]
    have hboffset : b.offset = Group.width front' := by rw [hb]
    rintro ⟨hafrom, hato⟩ ⟨hbfrom, hbto⟩
    simp only at hapart
    omega
  stored := by
    intro name a ha
    obtain ⟨i, front, back, hi, ha⟩ := h.exists_of_get? ha
    have hilt := (List.getElem?_eq_some_iff.mp hi).1
    rw [ha, h.length_textures]
    exact Nat.lt_of_le_of_lt (Nat.min_le_left i lastIndex) hilt
  listed := by
    intro name a i texture ha htexture
    rw [h.getElem?_textures, Option.map_eq_some_iff] at htexture
    obtain ⟨group, hgroup, rfl⟩ := htexture
    obtain ⟨j, front, back, hj, ha⟩ := h.exists_of_get? ha
    have hjlt := (List.getElem?_eq_some_iff.mp hj).1
    have hindex : a.texture = j := by
      rw [ha]
      exact Nat.min_eq_left (by omega)
    have hkey : name ∈ Table.keys (front ++ (name, a.type) :: back) := by simp [Table.keys]
    rw [hindex]
    constructor
    · exact fun hmem => h.places.eq_of_mem_keys h.nodup hgroup hj hmem hkey
    · rintro rfl
      cases Option.some.inj (hgroup.symm.trans hj)
      exact hkey
  staged := by
    rw [Particles.stages, h.length_textures, Nat.min_eq_left hfew]

/-- Behind the last index, an attribute is not where its index leads. -/
theorem Packed.length_le_of_addressed (h : t.Packed packing groups) (haddressed : t.Addressed) :
    groups.length ≤ lastIndex + 1 := by
  by_contra hmany
  have hlt : lastIndex + 1 < groups.length := by omega
  -- the first texture behind the last index lists an attribute whose index is another one's
  obtain ⟨stored, back, hgroup⟩ := List.exists_cons_of_ne_nil
    (h.places.filled _ (List.getElem_mem hlt))
  have hget : groups[lastIndex + 1]? = some ([] ++ stored :: back) := by
    rw [List.getElem?_eq_getElem hlt, hgroup, List.nil_append]
  have htexture := h.getElem?_textures (lastIndex + 1)
  rw [hget, Option.map_some] at htexture
  have hindex := (haddressed.listed (h.places.located _ _ _ _ hget) htexture).mp List.mem_cons_self
  simp [lastIndex] at hindex

/-- **The places of a table are different if and only if it has no more textures than there are
    indices.**  Beyond that two textures share the last index. -/
theorem addressed_iff (ht : Reached t) (h : t.update requests options = .ok (changed, t')) :
    t'.Addressed ↔ t'.textures.length ≤ lastIndex + 1 := by
  obtain ⟨_, groups, hpacked⟩ := packed_of_update ht h
  rw [hpacked.length_textures]
  exact ⟨hpacked.length_le_of_addressed, hpacked.addressed⟩

theorem agedRequests_addressed :
    ∃ t', update {} agedRequests {} = .ok (true, t') ∧ t'.Addressed := by
  have hbuilt : update {} agedRequests {} = .ok (true, rebuilt {} agedRequests {}) := rfl
  exact ⟨_, hbuilt, (addressed_iff .empty hbuilt).mpr (by decide)⟩

/-- A node asks for a texture of its own, by a name that tells it from the others. -/
def wideRequest (i : Nat) : AttributeRequest where
  name := String.ofList (List.replicate (i + 1) 't')
  type := .vector4
  node := { id := ⟨i⟩, path := "/g/t" ++ toString i }

/-- Many nodes do so. -/
def wideRequests (count : Nat) : List AttributeRequest :=
  (List.range count).map wideRequest

theorem mem_wideRequests {count : Nat} {r : AttributeRequest} :
    r ∈ wideRequests count ↔ ∃ i < count, wideRequest i = r := by
  simp [wideRequests]

theorem accepts_wideRequests (count : Nat) : Accepts (wideRequests count) {} where
  room := by decide
  target := by decide
  filled := by
    intro r hr
    obtain ⟨i, _, rfl⟩ := mem_wideRequests.mp hr
    exact Nat.succ_pos 3
  narrow := by
    intro r hr
    obtain ⟨i, _, rfl⟩ := mem_wideRequests.mp hr
    exact Nat.le_refl 4

theorem nodup_wideRequests (count : Nat) : (asked (wideRequests count)).keys.Nodup := by
  have hkeys : (asked (wideRequests count)).keys =
      positionName :: (List.range count).map fun i => (wideRequest i).name := by
    simp only [asked, wideRequests, Table.keys, List.map_cons, List.map_map]
    rfl
  -- the names differ in length from each other, and in their letters from the position
  have hname : Function.Injective fun i => (wideRequest i).name := by
    intro i j hij
    simpa using congrArg List.length (String.ofList_inj.mp hij)
  rw [hkeys, List.nodup_cons]
  refine ⟨fun hmem => ?_, List.nodup_range.map hname⟩
  obtain ⟨i, _, hposition⟩ := List.mem_map.mp hmem
  have hp : 'p' ∈ (wideRequest i).name.toList := by
    rw [hposition]
    decide
  rw [wideRequest, String.toList_ofList] at hp
  exact absurd (List.eq_of_mem_replicate hp) (by decide)

theorem width_wideRequests (count : Nat) :
    Group.width (asked (wideRequests count)) = 3 + 4 * count := by
  have hrest : ∀ stored ∈ (wideRequests count).map fun r => (r.name, r.type),
      stored.2.components = 4 := by
    intro stored hstored
    obtain ⟨r, hr, rfl⟩ := List.mem_map.mp hstored
    obtain ⟨i, _, rfl⟩ := mem_wideRequests.mp hr
    rfl
  have hlength : ((wideRequests count).map fun r => (r.name, r.type)).length = count := by
    simp [wideRequests]
  rw [asked, Group.width_cons, Group.width_of_forall hrest, hlength]
  rfl

/-- With that of the position there is one texture more than there are indices. -/
theorem wideRequests_not_addressed :
    ∃ t', update {} (wideRequests (lastIndex + 1)) {} = .ok (true, t') ∧ ¬t'.Addressed := by
  have haccepts := accepts_wideRequests (lastIndex + 1)
  obtain ⟨groups, hpacked⟩ := packed_rebuilt (t := {}) haccepts
  refine ⟨_, update_empty haccepts, fun haddressed => ?_⟩
  have hfew := hpacked.length_le_of_addressed haddressed
  -- all that is placed needs more channels than so many textures have
  have hroom := hpacked.places.width_le
  have hchannels : (packingOf {}).channels = 4 := rfl
  rw [rebuilt_signature, summary_of_nodup (nodup_wideRequests _), width_wideRequests, hchannels]
    at hroom
  omega

/-! ## §3. Samplers that are different -/

/-- Lists of names without underscores can be told apart when they are joined. -/
theorem intercalate_injective {names others : List String} (hsome : names ≠ [])
    (hothers : others ≠ []) (hplain : ∀ name ∈ names ++ others, '_' ∉ name.toList)
    (h : String.intercalate "_" names = String.intercalate "_" others) : names = others := by
  -- splitting at the underscores gives the names back
  have hsplit : ∀ names : List String, names ≠ [] → (∀ name ∈ names, '_' ∉ name.toList) →
      (String.intercalate "_" names).toList.splitOn '_' = names.map String.toList := by
    intro names hsome hplain
    rw [String.toList_intercalate]
    refine List.splitOn_intercalate '_' ?_ (by simpa using hsome)
    intro text htext
    obtain ⟨name, hname, rfl⟩ := List.mem_map.mp htext
    exact hplain name hname
  have hlists := hsplit names hsome fun name hname => hplain name (List.mem_append_left _ hname)
  rw [h, hsplit others hothers fun name hname => hplain name (List.mem_append_right _ hname)]
    at hlists
  exact (List.map_injective_iff.mpr fun _ _ => String.toList_inj.mp) hlists.symm

/-- **Textures with the same sampler hold an attribute with an underscore in its name**: the
    name of a sampler joins those of the attributes with underscores. -/
theorem pairwise_names (ht : Reached t) (h : t.update requests options = .ok (changed, t')) :
    t'.textures.Pairwise fun A B =>
      A.name = B.name → ∃ name ∈ A.attributes ++ B.attributes, '_' ∈ name.toList := by
  obtain ⟨_, groups, hpacked⟩ := packed_of_update ht h
  rw [List.pairwise_iff_getElem]
  intro i j hi hj hij hname
  obtain ⟨group, hgroup, hA⟩ := Option.map_eq_some_iff.mp
    ((hpacked.getElem?_textures i).symm.trans (List.getElem?_eq_getElem hi))
  obtain ⟨group', hgroup', hB⟩ := Option.map_eq_some_iff.mp
    ((hpacked.getElem?_textures j).symm.trans (List.getElem?_eq_getElem hj))
  rw [← hA, ← hB] at hname ⊢
  by_contra hplain
  -- with the same names in both groups, the first name is in two groups
  have hkeys : group.keys = group'.keys := by
    refine intercalate_injective ?_ ?_
      (fun name hmem hunderscore => hplain ⟨name, hmem, hunderscore⟩)
      ((String.append_right_inj _).mp hname)
    · simpa [Table.keys] using hpacked.places.filled group (List.mem_of_getElem? hgroup)
    · simpa [Table.keys] using hpacked.places.filled group' (List.mem_of_getElem? hgroup')
  obtain ⟨stored, rest, rfl⟩ := List.exists_cons_of_ne_nil
    (hpacked.places.filled group (List.mem_of_getElem? hgroup))
  have hfirst : stored.1 ∈ Table.keys (stored :: rest) := List.mem_cons_self
  have heq := hpacked.places.eq_of_mem_keys hpacked.nodup hgroup hgroup' hfirst (hkeys ▸ hfirst)
  omega

theorem agedRequests_samplers :
    ∃ t', update {} agedRequests {} = .ok (true, t') ∧ t'.textures.Pairwise fun A B =>
      A.name = B.name → ∃ name ∈ A.attributes ++ B.attributes, '_' ∈ name.toList := by
  have hbuilt : update {} agedRequests {} = .ok (true, rebuilt {} agedRequests {}) := rfl
  exact ⟨_, hbuilt, pairwise_names .empty hbuilt⟩

/-- Nodes ask for vectors that share a texture, and for one with the joined name. -/
def joinedRequests : List AttributeRequest :=
  [{ name := "a", type := .vector2, node := { id := ⟨0⟩, path := "/g/a" } },
   { name := "b", type := .vector2, node := { id := ⟨1⟩, path := "/g/b" } },
   { name := "a_b", type := .vector4, node := { id := ⟨2⟩, path := "/g/a_b" } }]

/-- Their textures have one sampler between them. -/
theorem joinedRequests_samplers :
    ∃ t', update {} joinedRequests {} = .ok (true, t') ∧
      ¬t'.textures.Pairwise fun A B => A.name ≠ B.name :=
  ⟨rebuilt {} joinedRequests {}, rfl, by decide⟩

end Allocations

end ShaderFlow
