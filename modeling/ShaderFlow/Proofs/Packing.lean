/-
  ShaderFlow.Proofs.Packing — how attributes come to share textures.

  Attributes are placed one after the other, each in the first texture with room for it.  What a
  texture holds is a group of attributes with their types; its record, and the place of each of
  its attributes, follow from the group.

  Main definitions:
    * `Group`, `FirstFit`      — attributes that share a texture, and where the next one goes;
    * `Places`                 — a packing, as a list of groups;
    * `Allocations.Reached`    — the tables that updates lead to;
    * `Allocations.Packed`     — a table that was built, with its groups.

  Main statements:
    * `place_eq`               — all that placing one attribute does;
    * `exists_places`          — placing the attributes of a signature packs them;
    * `Allocations.update_eq_ok` — all that an update does;
    * `Allocations.packed_of_update` — behind every update stands a packing;
    * `Allocations.stored_of_asked`  — in which there is room for whatever is asked for.
-/

import Mathlib.Data.List.Perm.Basic
import ShaderFlow.Proofs.Requests

namespace ShaderFlow

open Allocations

/-! ## §1. Groups -/

/-- Attributes that share a texture, in channel order, each with its type. -/
abbrev Group := Table String PortType

namespace Group

/-- How many channels a group fills. -/
def width : Group → Nat
  | [] => 0
  | stored :: rest => stored.2.components + width rest

/-- The texture of a group, before it has a sampler. -/
def texture (index : Nat) (g : Group) : StateTexture where
  index := min index lastIndex
  name := ""
  attributes := g.keys
  used := g.width

@[simp] theorem width_nil : width [] = 0 := rfl

@[simp] theorem width_cons (stored : String × PortType) (rest : Group) :
    width (stored :: rest) = stored.2.components + width rest := rfl

@[simp] theorem width_append : ∀ g rest : Group, width (g ++ rest) = g.width + width rest
  | [], rest => (Nat.zero_add _).symm
  | stored :: g, rest => by
    rw [List.cons_append, width_cons, width_cons, width_append g rest, Nat.add_assoc]

theorem width_perm {g g' : Group} (h : g.Perm g') : g.width = g'.width := by
  induction h with
  | nil => rfl
  | cons stored _ ih => rw [width_cons, width_cons, ih]
  | swap stored stored' rest =>
    simp only [width_cons]
    omega
  | trans _ _ ih ih' => exact ih.trans ih'

/-- The width of a group of attributes that are all as wide. -/
theorem width_of_forall {components : Nat} :
    ∀ {g : Group}, (∀ stored ∈ g, stored.2.components = components) →
      g.width = components * g.length
  | [], _ => rfl
  | stored :: g, h => by
    have hrest := width_of_forall fun other hother => h other (List.mem_cons_of_mem _ hother)
    rw [width_cons, hrest, h stored List.mem_cons_self, List.length_cons, Nat.mul_add_one,
      Nat.add_comm]

/-- Attributes of one group have channels of their own. -/
theorem apart_of_ne {front back front' back' : Group} {stored stored' : String × PortType}
    (h : front ++ stored :: back = front' ++ stored' :: back') (hne : stored ≠ stored') :
    front.width + stored.2.components ≤ front'.width ∨
      front'.width + stored'.2.components ≤ front.width := by
  rcases List.append_eq_append_iff.mp h with ⟨between, rfl, hrest⟩ | ⟨between, rfl, hrest⟩
  · cases between with
    | nil => exact absurd (List.cons.inj hrest).1 hne
    | cons first between =>
      cases (List.cons.inj hrest).1
      exact .inl (by simp)
  · cases between with
    | nil => exact absurd (List.cons.inj hrest).1.symm hne
    | cons first between =>
      cases (List.cons.inj hrest).1
      exact .inr (by simp)

end Group

/-! ## §2. Placing one attribute -/

variable {channels : Nat} {stored : String × PortType} {groups front back : List Group}
  {group : Group}

/-- Where first fit puts an attribute: at the end of `group`, which has room for it, behind the
    groups in `front`, which have none.  The group may be a new one. -/
structure FirstFit (channels : Nat) (stored : String × PortType) (groups front : List Group)
    (group : Group) (back : List Group) : Prop where
  found : groups = front ++ group :: back ∨ groups = front ∧ group = [] ∧ back = []
  full : ∀ other ∈ front, channels < other.width + stored.2.components
  room : group.width + stored.2.components ≤ channels

/-- What fits into an empty texture has a place. -/
theorem exists_firstFit (h : stored.2.components ≤ channels) :
    ∀ groups : List Group, ∃ front group back, FirstFit channels stored groups front group back
  | [] => ⟨[], [], [], .inr ⟨rfl, rfl, rfl⟩, by simp, by simpa using h⟩
  | group :: groups => by
    -- the first group with room, or a new one behind groups that are all full
    by_cases hroom : group.width + stored.2.components ≤ channels
    · exact ⟨[], group, groups, .inl rfl, by simp, hroom⟩
    · obtain ⟨front, found, back, hfound, hfull, hfits⟩ := exists_firstFit h groups
      refine ⟨group :: front, found, back, ?_, ?_, hfits⟩
      · rcases hfound with rfl | ⟨rfl, hnew⟩
        · exact .inl rfl
        · exact .inr ⟨rfl, hnew⟩
      · intro other hother
        rcases List.mem_cons.mp hother with rfl | hother
        · omega
        · exact hfull other hother

namespace FirstFit

/-- The other groups were there before. -/
theorem mem_of_mem (h : FirstFit channels stored groups front group back) {other : Group}
    (hother : other ∈ front ∨ other ∈ back) : other ∈ groups := by
  rcases h.found with rfl | ⟨rfl, _, rfl⟩
  · rcases hother with hother | hother
    · exact List.mem_append_left _ hother
    · exact List.mem_append_right _ (List.mem_cons_of_mem _ hother)
  · rcases hother with hother | hother
    · exact hother
    · cases hother

theorem flatten_eq (h : FirstFit channels stored groups front group back) :
    groups.flatten = front.flatten ++ (group ++ back.flatten) := by
  rcases h.found with rfl | ⟨rfl, rfl, rfl⟩ <;> simp

/-- They stand where they stood. -/
theorem getElem?_of_ne (h : FirstFit channels stored groups front group back) {i : Nat}
    (hi : i ≠ front.length) (grown : Group) : (front ++ grown :: back)[i]? = groups[i]? := by
  rcases Nat.lt_or_gt_of_ne hi with hlt | hgt
  · rw [List.getElem?_append_left hlt]
    rcases h.found with rfl | ⟨rfl, _, _⟩
    · rw [List.getElem?_append_left hlt]
    · rfl
  · -- behind the group, where a new one has nothing
    obtain ⟨k, rfl⟩ : ∃ k, i = front.length + (k + 1) := ⟨i - front.length - 1, by omega⟩
    rcases h.found with rfl | ⟨rfl, _, rfl⟩ <;> simp [List.getElem?_append_right]

/-- So does the group that grows, if it is not new. -/
theorem getElem?_length (h : FirstFit channels stored groups front group back)
    (hold : group ≠ []) : groups[front.length]? = some group := by
  rcases h.found with rfl | ⟨_, hnew, _⟩
  · simp
  · exact absurd hnew hold

end FirstFit

theorem findIdx?_mapIdx_texture {front : List Group} {group : Group} (back : List Group)
    (hfull : ∀ other ∈ front, channels < other.width + stored.2.components)
    (hroom : group.width + stored.2.components ≤ channels) :
    ((front ++ group :: back).mapIdx Group.texture).findIdx?
      (fun t => decide (t.used + stored.2.components ≤ channels)) = some front.length := by
  -- the search gets past the groups in front, which have no room
  have hnone : (front.mapIdx Group.texture).findIdx?
      (fun t => decide (t.used + stored.2.components ≤ channels)) = none := by
    rw [List.findIdx?_eq_none_iff]
    intro t ht
    obtain ⟨i, hi, rfl⟩ := List.mem_mapIdx.mp ht
    have hother := hfull _ (List.getElem_mem hi)
    rw [decide_eq_false_iff_not]
    exact Nat.not_le.mpr hother
  rw [List.mapIdx_append, List.findIdx?_append, hnone, List.mapIdx_cons, List.findIdx?_cons,
    if_pos (by simpa [Group.texture] using hroom)]
  simp

/-- **What placing an attribute does.**  The attribute gets the channels behind those that its
    group fills already, and its group grows by it; everything else stays. -/
theorem place_eq (h : FirstFit channels stored groups front group back)
    (attributes : Table String AttributeAllocation) :
    place channels (attributes, groups.mapIdx Group.texture) stored =
      (attributes.put stored.1
        { name := stored.1, type := stored.2, texture := min front.length lastIndex
          offset := group.width },
      (front ++ (group ++ [stored]) :: back).mapIdx Group.texture) := by
  obtain ⟨name, type⟩ := stored
  have hfind := findIdx?_mapIdx_texture back h.full h.room
  -- a group that is new is opened empty, so either way its texture is there to be filled
  have hopened : (if (groups.mapIdx Group.texture).any
        (fun t => decide (t.used + type.components ≤ channels)) then groups.mapIdx Group.texture
      else groups.mapIdx Group.texture ++
        [{ index := min (groups.mapIdx Group.texture).length lastIndex, name := ""
           attributes := [], used := 0 }]) =
      (front ++ group :: back).mapIdx Group.texture := by
    rcases h.found with hgroups | ⟨hgroups, hgroup, hback⟩
    · rw [hgroups, if_pos]
      rw [List.any_eq_true]
      obtain ⟨hlt, hfits, _⟩ := List.findIdx?_eq_some_iff_getElem.mp hfind
      exact ⟨_, List.getElem_mem hlt, hfits⟩
    · subst hgroups hgroup hback
      rw [if_neg]
      · rw [List.mapIdx_append, List.length_mapIdx]
        simp [Group.texture, Table.keys]
      · rw [List.any_eq_true]
        rintro ⟨t, ht, hfits⟩
        obtain ⟨i, hi, rfl⟩ := List.mem_mapIdx.mp ht
        exact absurd (of_decide_eq_true hfits) (Nat.not_le.mpr (h.full _ (List.getElem_mem hi)))
  have hget : ((front ++ group :: back).mapIdx Group.texture)[front.length]? =
      some (group.texture front.length) := by
    simp
  -- filling the texture is what one more member does to the group
  have hset : ((front ++ group :: back).mapIdx Group.texture).set front.length
        { group.texture front.length with
          used := group.width + type.components, attributes := group.keys ++ [name] } =
      (front ++ (group ++ [(name, type)]) :: back).mapIdx Group.texture := by
    rw [List.mapIdx_append, List.mapIdx_append, List.set_append, if_neg (by simp),
      List.length_mapIdx, Nat.sub_self, List.mapIdx_cons, List.mapIdx_cons, List.set_cons_zero]
    simp [Group.texture, Table.keys]
  unfold place
  simp only
  rw [hopened, hfind, Option.getD_some, hget]
  simp only
  rw [← hset]
  rfl

/-! ## §3. Packings -/

/-- A packing: the attributes that were placed are in the groups, no group is empty or wider
    than a texture, and each attribute has the channels behind those in front of it. -/
structure Places (channels : Nat) (placed : Table String PortType) (groups : List Group)
    (attributes : Table String AttributeAllocation) : Prop where
  perm : groups.flatten.Perm placed
  filled : ∀ group ∈ groups, group ≠ []
  narrow : ∀ group ∈ groups, group.width ≤ channels
  keys : attributes.keys = placed.keys
  located : ∀ (i : Nat) (front : Group) (stored : String × PortType) (back : Group),
    groups[i]? = some (front ++ stored :: back) →
      attributes.get? stored.1 =
        some { name := stored.1, type := stored.2, texture := min i lastIndex
               offset := front.width }

namespace Places

variable {placed : Table String PortType} {attributes : Table String AttributeAllocation}

/-- What is in a group was placed. -/
theorem mem_placed (h : Places channels placed groups attributes) {i : Nat} {before after : Group}
    (hi : groups[i]? = some (before ++ stored :: after)) : stored ∈ placed := by
  refine h.perm.subset (List.mem_flatten.mpr ⟨_, List.mem_of_getElem? hi, ?_⟩)
  exact List.mem_append_right _ List.mem_cons_self

/-- What was placed is in a group. -/
theorem exists_of_mem (h : Places channels placed groups attributes) (hmem : stored ∈ placed) :
    ∃ (i : Nat) (before after : Group), groups[i]? = some (before ++ stored :: after) := by
  obtain ⟨group, hgroup, hstored⟩ := List.mem_flatten.mp (h.perm.symm.subset hmem)
  obtain ⟨i, hi⟩ := List.mem_iff_getElem?.mp hgroup
  obtain ⟨before, after, rfl⟩ := List.append_of_mem hstored
  exact ⟨i, before, after, hi⟩

/-- An attribute is in one group only. -/
theorem eq_of_mem_keys (h : Places channels placed groups attributes) (hnodup : placed.keys.Nodup)
    {name : String} {i j : Nat} {group group' : Group} (hi : groups[i]? = some group)
    (hj : groups[j]? = some group') (hmem : name ∈ group.keys) (hmem' : name ∈ group'.keys) :
    i = j := by
  -- the names of all groups together are those that were placed, each of them once
  have hkeys : (groups.map Table.keys).flatten.Nodup := by
    have hflat : (Table.keys groups.flatten).Nodup := (h.perm.map _).nodup_iff.mpr hnodup
    rwa [Table.keys, List.map_flatten] at hflat
  have hpairwise := List.pairwise_map.mp (List.nodup_flatten.mp hkeys).2
  rw [List.pairwise_iff_getElem] at hpairwise
  obtain ⟨hilt, rfl⟩ := List.getElem?_eq_some_iff.mp hi
  obtain ⟨hjlt, rfl⟩ := List.getElem?_eq_some_iff.mp hj
  rcases Nat.lt_trichotomy i j with hlt | heq | hgt
  · exact absurd hmem' (hpairwise i j hilt hjlt hlt hmem)
  · exact heq
  · exact absurd hmem (hpairwise j i hjlt hilt hgt hmem')

/-- The groups have room for what was placed. -/
theorem width_le (h : Places channels placed groups attributes) :
    Group.width placed ≤ channels * groups.length := by
  have hflat : ∀ groups : List Group, (∀ group ∈ groups, group.width ≤ channels) →
      Group.width groups.flatten ≤ channels * groups.length := by
    intro groups
    induction groups with
    | nil => exact fun _ => Nat.zero_le _
    | cons group groups ih =>
      intro hnarrow
      have hgroup := hnarrow group List.mem_cons_self
      have hrest := ih fun other hother => hnarrow other (List.mem_cons_of_mem _ hother)
      rw [List.flatten_cons, Group.width_append, List.length_cons, Nat.mul_add_one]
      omega
  rw [← Group.width_perm h.perm]
  exact hflat groups h.narrow

theorem empty : Places channels [] [] [] where
  perm := .refl _
  filled := nofun
  narrow := nofun
  keys := rfl
  located := by
    intro i front stored back h
    cases h

/-- **One more attribute is packed, too.** -/
theorem put (h : Places channels placed groups attributes) (hnew : stored.1 ∉ placed.keys)
    (hfit : FirstFit channels stored groups front group back) :
    Places channels (placed ++ [stored]) (front ++ (group ++ [stored]) :: back)
      (attributes.put stored.1
        { name := stored.1, type := stored.2, texture := min front.length lastIndex
          offset := group.width }) where
  perm := by
    have hperm := h.perm
    rw [hfit.flatten_eq] at hperm
    -- the end of its group is not the end of all groups, where a permutation is easy to extend
    have hend : (front.flatten ++ (group ++ ([stored] ++ back.flatten))).Perm
        (front.flatten ++ (group ++ (back.flatten ++ [stored]))) :=
      (List.perm_append_comm.append_left group).append_left front.flatten
    have hafter := hend.trans (by simpa using hperm.append_right [stored])
    simpa using hafter
  filled := by
    intro other hother
    rcases List.mem_append.mp hother with hmem | hmem
    · exact h.filled other (hfit.mem_of_mem (.inl hmem))
    · rcases List.mem_cons.mp hmem with rfl | hmem
      · simp
      · exact h.filled other (hfit.mem_of_mem (.inr hmem))
  narrow := by
    intro other hother
    rcases List.mem_append.mp hother with hmem | hmem
    · exact h.narrow other (hfit.mem_of_mem (.inl hmem))
    · rcases List.mem_cons.mp hmem with rfl | hmem
      · rw [Group.width_append]
        exact hfit.room
      · exact h.narrow other (hfit.mem_of_mem (.inr hmem))
  keys := by
    have hfresh : stored.1 ∉ attributes.keys := by
      rw [h.keys]
      exact hnew
    rw [Table.keys_put_of_not_mem hfresh, h.keys, Table.keys_append]
    rfl
  located := by
    intro i before entry after hi
    by_cases hlast : i = front.length ∧ group = before
    · obtain ⟨rfl, rfl⟩ := hlast
      have hentry : entry = stored := by
        simp only [List.getElem?_append_right (Nat.le_refl _), Nat.sub_self,
          List.getElem?_cons_zero, Option.some.injEq, List.append_cancel_left_eq, List.cons.injEq] at hi
        exact hi.1.symm
      rw [hentry]
      exact Table.get?_put_self attributes stored.1 _
    · -- every other entry was there before, under another name
      have hbefore : ∃ rest, groups[i]? = some (before ++ entry :: rest) := by
        by_cases hindex : i = front.length
        · subst hindex
          simp only [List.getElem?_append_right (Nat.le_refl _), Nat.sub_self,
            List.getElem?_cons_zero, Option.some.injEq] at hi
          rcases List.eq_nil_or_concat after with rfl | ⟨rest, last, rfl⟩
          · exact absurd ⟨rfl, (List.append_inj' hi rfl).1⟩ hlast
          · have hgroup : group = before ++ entry :: rest := by
              have hsnoc : group ++ [stored] = (before ++ entry :: rest) ++ [last] := by
                simpa using hi
              exact (List.append_inj' hsnoc rfl).1
            exact ⟨rest, hgroup ▸ hfit.getElem?_length (by simp [hgroup])⟩
        · exact ⟨after, (hfit.getElem?_of_ne hindex _).symm.trans hi⟩
      obtain ⟨rest, hi⟩ := hbefore
      have hne : stored.1 ≠ entry.1 := by
        intro heq
        rw [heq] at hnew
        exact hnew (List.mem_map_of_mem (h.mem_placed hi))
      rw [Table.get?_put_of_ne hne]
      exact h.located i before entry rest hi

end Places

/-- **Placing the attributes of a signature packs them.** -/
theorem exists_places (signature : Table String PortType) :
    signature.keys.Nodup → (∀ stored ∈ signature, stored.2.components ≤ channels) →
      ∃ (groups : List Group) (attributes : Table String AttributeAllocation),
        signature.foldl (place channels) ([], []) = (attributes, groups.mapIdx Group.texture) ∧
          Places channels signature groups attributes := by
  induction signature using List.reverseRecOn with
  | nil => exact fun _ _ => ⟨[], [], rfl, Places.empty⟩
  | append_singleton signature stored ih =>
    intro hnodup hcomponents
    rw [Table.keys_append, List.nodup_append] at hnodup
    obtain ⟨hnodup, -, hapart⟩ := hnodup
    have hnew : stored.1 ∉ Table.keys signature :=
      fun hmem => hapart _ hmem _ List.mem_cons_self rfl
    -- the attributes before the last one are packed; first fit says where it goes among them
    obtain ⟨groups, attributes, hplaced, hplaces⟩ :=
      ih hnodup fun other hother => hcomponents other (List.mem_append_left _ hother)
    obtain ⟨front, group, back, hfit⟩ := exists_firstFit
      (hcomponents stored (List.mem_append_right _ List.mem_cons_self)) groups
    refine ⟨_, _, ?_, hplaces.put hnew hfit⟩
    rw [List.foldl_append, hplaced]
    exact place_eq hfit attributes

/-! ## §4. Updates -/

namespace Allocations

variable {t t' : Allocations} {requests : List AttributeRequest} {options : ParticlesOptions}
  {changed : Bool}

/-- The packing that options ask for. -/
def packingOf (options : ParticlesOptions) : Packing where
  channels := options.channelsPerTexture.toNat
  texturePrefix := options.texturePrefix

/-- Whether a table was built for what is asked for. -/
def settled (t : Allocations) (requests : List AttributeRequest) (options : ParticlesOptions) :
    Bool :=
  summary requests == t.signature && some (packingOf options) == t.packing && !t.textures.isEmpty

/-- The table that is built for what is asked for. -/
def rebuilt (t : Allocations) (requests : List AttributeRequest) (options : ParticlesOptions) :
    Allocations :=
  let (attributes, textures) :=
    (summary requests).foldl (place options.channelsPerTexture.toNat) ([], [])
  { generation := t.generation + 1
    attributes
    textures := textures.map (nameTexture options.texturePrefix)
    signature := summary requests
    packing := some (packingOf options) }

@[simp] theorem rebuilt_signature : (t.rebuilt requests options).signature = summary requests := rfl

theorem check_eq_ok : options.check = .ok () ↔
    1 ≤ options.channelsPerTexture.toNat ∧
      options.channelsPerTexture.toNat ≤ ParticlesOptions.maxChannels := by
  unfold ParticlesOptions.check
  simp only [Bool.and_eq_true, decide_eq_true_eq]
  split
  next h => exact iff_of_true rfl h
  next h => exact iff_of_false nofun h

theorem accepts_of_update (h : t.update requests options = .ok (changed, t')) :
    Accepts requests options := by
  unfold update at h
  obtain ⟨_, hcheck, h⟩ := bind_eq_ok.mp h
  obtain ⟨signature, hsignature, -⟩ := bind_eq_ok.mp h
  obtain ⟨hroom, htypes, -⟩ := signatureOf_eq_ok.mp hsignature
  have hcheck : options.check = .ok () := by
    cases hoptions : options.check with
    | ok _ => rfl
    | error e =>
      rw [hoptions] at hcheck
      cases hcheck
  exact ⟨hroom, (check_eq_ok.mp hcheck).2, fun r hr => (htypes r hr).1, fun r hr => (htypes r hr).2⟩

theorem update_of_accepts (h : Accepts requests options) :
    t.update requests options =
      .ok (if t.settled requests options then (false, t)
        else (true, t.rebuilt requests options)) := by
  have hcheck : options.check = .ok () := check_eq_ok.mpr ⟨by have := h.room; omega, h.target⟩
  have hsignature :
      signatureOf requests options.channelsPerTexture.toNat = .ok (summary requests) :=
    signatureOf_eq_ok.mpr ⟨h.room, fun r hr => ⟨h.filled r hr, h.narrow r hr⟩, rfl⟩
  unfold update
  rw [hcheck]
  show (signatureOf requests options.channelsPerTexture.toNat >>= _) = _
  rw [hsignature, settled, rebuilt, packingOf]
  show (if _ then _ else _) = _
  split <;> rfl

/-- **What an update does.**  Requests that can be stored keep the table if it was built for
    them, and have it built anew otherwise. -/
theorem update_eq_ok : t.update requests options = .ok (changed, t') ↔
    Accepts requests options ∧
      (if t.settled requests options then (false, t) else (true, t.rebuilt requests options)) =
        (changed, t') := by
  constructor
  · intro h
    have haccepts := accepts_of_update h
    rw [update_of_accepts haccepts] at h
    exact ⟨haccepts, Except.ok.inj h⟩
  · rintro ⟨haccepts, heq⟩
    rw [update_of_accepts haccepts, heq]

/-- The first update builds a table. -/
theorem update_empty (h : Accepts requests options) :
    update {} requests options = .ok (true, rebuilt {} requests options) := by
  have hnew : settled {} requests options = false := by simp [settled]
  rw [update_of_accepts h, hnew]
  rfl

/-! ## §5. Tables that were built -/

/-- The tables that updates lead to, one after the other. -/
inductive Reached : Allocations → Prop
  | empty : Reached {}
  | update {t t' : Allocations} {requests : List AttributeRequest} {options : ParticlesOptions}
      {changed : Bool} :
      Reached t → t.update requests options = .ok (changed, t') → Reached t'

/-- A table that was built, with the groups of attributes that share its textures. -/
structure Packed (t : Allocations) (packing : Packing) (groups : List Group) : Prop where
  packing_eq : t.packing = some packing
  nodup : t.signature.keys.Nodup
  filled : ∀ stored ∈ t.signature, 0 < stored.2.components
  target : packing.channels ≤ ParticlesOptions.maxChannels
  places : Places packing.channels t.signature groups t.attributes
  textures : t.textures = groups.mapIdx fun i group =>
    nameTexture packing.texturePrefix (group.texture i)

theorem packed_rebuilt (h : Accepts requests options) :
    ∃ groups, (t.rebuilt requests options).Packed (packingOf options) groups := by
  have hnodup : (summary requests).keys.Nodup := keys_summary requests ▸ nodup_mentioned requests
  have hcomponents := fun (stored : String × PortType) (hstored : stored ∈ summary requests) =>
    h.components (mem_asked_of_mem_summary hstored)
  obtain ⟨groups, attributes, hplaced, hplaces⟩ :=
    exists_places (summary requests) hnodup fun stored hstored => (hcomponents stored hstored).2
  refine ⟨groups, ?_⟩
  rw [rebuilt, hplaced]
  exact {
    packing_eq := rfl
    nodup := hnodup
    filled := fun stored hstored => (hcomponents stored hstored).1
    target := h.target
    places := hplaces
    textures := by
      refine List.ext_getElem? fun i => ?_
      simp only [List.getElem?_map, List.getElem?_mapIdx, Option.map_map]
      rfl }

theorem Packed.length_textures {packing : Packing} {groups : List Group}
    (h : t.Packed packing groups) : t.textures.length = groups.length := by
  rw [h.textures, List.length_mapIdx]

theorem Packed.getElem?_textures {packing : Packing} {groups : List Group}
    (h : t.Packed packing groups) (i : Nat) :
    t.textures[i]? = groups[i]?.map fun group =>
      nameTexture packing.texturePrefix (group.texture i) := by
  rw [h.textures, List.getElem?_mapIdx]

/-- The place of an attribute is that of its channels in a group. -/
theorem Packed.exists_of_get? {packing : Packing} {groups : List Group}
    (h : t.Packed packing groups) {name : String} {a : AttributeAllocation}
    (ha : t.get? name = some a) :
    ∃ (i : Nat) (front back : Group), groups[i]? = some (front ++ (name, a.type) :: back) ∧
      a = { name, type := a.type, texture := min i lastIndex, offset := front.width } := by
  have hkey : name ∈ t.signature.keys := by
    rw [← h.places.keys]
    exact Table.mem_keys_of_get? ha
  obtain ⟨⟨_, type⟩, hstored, rfl⟩ := List.mem_map.mp hkey
  obtain ⟨i, front, back, hi⟩ := h.places.exists_of_mem hstored
  have hplace := (h.places.located i front _ back hi).symm.trans ha
  cases Option.some.inj hplace
  exact ⟨i, front, back, hi, rfl⟩

theorem settled_iff : t.settled requests options = true ↔
    t.signature = summary requests ∧ t.packing = some (packingOf options) ∧ t.textures ≠ [] := by
  simp only [settled, Bool.and_eq_true, beq_iff_eq, Bool.not_eq_true', List.isEmpty_eq_false_iff,
    and_assoc]
  exact and_congr eq_comm (and_congr_left' eq_comm)

/-- The position is always stored, so there is a texture. -/
theorem settled_rebuilt (h : Accepts requests options) :
    (t.rebuilt requests options).settled requests options = true := by
  obtain ⟨groups, hpacked⟩ := packed_rebuilt (t := t) h
  refine settled_iff.mpr ⟨rfl, rfl, fun hempty => ?_⟩
  have hlength := hpacked.length_textures
  rw [hempty, List.length_nil, eq_comm, List.length_eq_zero_iff] at hlength
  have hperm := hpacked.places.perm
  rw [hlength, List.flatten_nil, List.nil_perm] at hperm
  exact summary_ne_nil requests hperm

/-- After an update a table is settled. -/
theorem settled_of_update (h : t.update requests options = .ok (changed, t')) :
    t'.settled requests options = true := by
  obtain ⟨haccepts, heq⟩ := update_eq_ok.mp h
  split at heq
  next hsettled =>
    cases heq
    exact hsettled
  next =>
    cases heq
    exact settled_rebuilt haccepts

/-- A table with textures is one that was built, however long ago. -/
theorem Reached.built (h : Reached t) : t.textures ≠ [] →
    ∃ t₀ requests options, Accepts requests options ∧ t = rebuilt t₀ requests options := by
  induction h with
  | empty => exact fun hempty => absurd rfl hempty
  | @update t t' requests options changed _ hupdate ih =>
    intro hsome
    obtain ⟨haccepts, heq⟩ := update_eq_ok.mp hupdate
    split at heq
    · cases heq
      exact ih hsome
    · cases heq
      exact ⟨t, requests, options, haccepts, rfl⟩

/-- An update leaves a table that was built for what was asked for, now or by an earlier one. -/
theorem rebuilt_of_update (ht : Reached t) (h : t.update requests options = .ok (changed, t')) :
    ∃ t₀, t' = rebuilt t₀ requests options := by
  obtain ⟨hsignature, hpacking, hsome⟩ := settled_iff.mp (settled_of_update h)
  obtain ⟨t₀, requests', options', -, rfl⟩ := (Reached.update ht h).built hsome
  -- what it was built for is known from the comparison
  obtain ⟨hchannels, hprefix⟩ := Packing.mk.inj (Option.some.inj hpacking)
  rw [rebuilt_signature] at hsignature
  refine ⟨t₀, ?_⟩
  rw [rebuilt, rebuilt, packingOf, packingOf, hsignature, hchannels, hprefix]

/-- **Behind every update stands a packing** of what was asked for. -/
theorem packed_of_update (ht : Reached t) (h : t.update requests options = .ok (changed, t')) :
    t'.signature = summary requests ∧ ∃ groups, t'.Packed (packingOf options) groups := by
  obtain ⟨t₀, rfl⟩ := rebuilt_of_update ht h
  exact ⟨rfl, packed_rebuilt (accepts_of_update h)⟩

/-- What is asked for has room: a place with enough channels, all within its texture. -/
theorem stored_of_asked (ht : Reached t) (h : t.update requests options = .ok (changed, t'))
    {ask : String × PortType} (hask : ask ∈ asked requests) :
    ∃ a, t'.get? ask.1 = some a ∧ ask.2.components ≤ a.type.components ∧
      a.offset + a.type.components ≤ ParticlesOptions.maxChannels := by
  obtain ⟨hsignature, groups, hpacked⟩ := packed_of_update ht h
  obtain ⟨type, hwidest, hwide⟩ := widest_of_mem hask
  have hstored : (ask.1, type) ∈ t'.signature := by
    rw [hsignature]
    exact Table.mem_of_get? ((get?_summary requests ask.1).trans hwidest)
  obtain ⟨i, front, back, hi⟩ := hpacked.places.exists_of_mem hstored
  have hplace := hpacked.places.located i front (ask.1, type) back hi
  have hnarrow : front.width + (type.components + Group.width back) ≤
      (packingOf options).channels := by
    simpa using hpacked.places.narrow _ (List.mem_of_getElem? hi)
  have htarget := hpacked.target
  refine ⟨_, hplace, hwide, ?_⟩
  show front.width + type.components ≤ _
  omega

end Allocations

/-- Channels that are there have names. -/
theorem AttributeAllocation.length_swizzle {a : AttributeAllocation} {components : Nat}
    (hwide : components ≤ a.type.components) (hroom : a.offset + a.type.components ≤ 4) :
    (a.swizzle components).length = components := by
  unfold swizzle
  simp only
  rw [Nat.min_eq_left hwide, if_pos (by omega), String.length_ofList, List.length_take,
    List.length_drop]
  simp only [List.length_cons, List.length_nil]
  omega

end ShaderFlow
