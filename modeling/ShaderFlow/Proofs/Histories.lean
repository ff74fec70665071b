/-
  ShaderFlow.Proofs.Histories — tables of places over whole sequences of calls.

  A host keeps one table and brings it in line with its graphs again and again, with whatever
  they ask for and whatever the settings are at the time.  A call that fails leaves the table
  as it was; a table that was built is a first-fit packing of what the last call that did not
  fail asked for.

  Main definitions:
    * `Call`, `Allocations.perform` — a call, and its assignments to the table in their order;
    * `Course`                      — a table over a sequence of calls;
    * `Allocations.Fulfils`         — what a table is that was built for a call.

  Main statements:
    * `Allocations.respond_eq`        — a call does to the table what an update says;
    * `exists_turn`                   — what is placed at one point of the packing, and where;
    * `Allocations.fulfils_of_update` — an update leaves a table that fulfils its call;
    * `Course.fulfilled_and_answers`  — so does every sequence of calls, for the last one accepted.
-/

import ShaderFlow.Proofs.Storage

namespace ShaderFlow

open Allocations

/-! ## §1. Calls -/

/-- A call for places: what is asked for, and how it is to be packed. -/
structure Call where
  requests : List AttributeRequest
  options : ParticlesOptions

namespace Allocations

variable {t t' : Allocations} {c : Call} {changed : Bool}

/-- Assigns the fields of the table, one by one. -/
def assign (signature : Table String PortType) (packing : Packing) :
    ExceptT CompileError (StateM Allocations) Bool := do
  let (attributes, textures) := signature.foldl (place packing.channels) ([], [])
  modify fun t => { t with generation := t.generation + 1 }
  modify fun t => { t with attributes }
  modify fun t => { t with textures := textures.map (nameTexture packing.texturePrefix) }
  modify fun t => { t with signature }
  modify fun t => { t with packing := some packing }
  return true

/-- A call as it changes the table in place: whatever can fail comes before the first
    assignment. -/
def perform (c : Call) : ExceptT CompileError (StateM Allocations) Bool := do
  c.options.check.mapError CompileError.invalidConfig
  let signature ← signatureOf c.requests c.options.channelsPerTexture.toNat
  let t ← get
  if signature == t.signature && some (packingOf c.options) == t.packing && !t.textures.isEmpty then
    return false
  else assign signature (packingOf c.options)

/-- What a call answers, and the table that it leaves. -/
def respond (t : Allocations) (c : Call) : Except CompileError Bool × Allocations :=
  (perform c).run.run t

/-- What comes of an update: its answer with the new table, or its failure with the old one. -/
def outcome (t : Allocations) :
    Except CompileError (Bool × Allocations) → Except CompileError Bool × Allocations
  | .ok (changed, t') => (.ok changed, t')
  | .error e => (.error e, t)

/-- **A call does to the table what an update says**: where there is no update, nothing. -/
theorem respond_eq (t : Allocations) (c : Call) :
    t.respond c = t.outcome (t.update c.requests c.options) := by
  unfold respond perform update
  cases c.options.check with
  | error fault => rfl
  | ok _ =>
    cases hsignature : signatureOf c.requests c.options.channelsPerTexture.toNat with
    | error e =>
      simp only [hsignature]
      rfl
    | ok signature =>
      simp only [hsignature]
      -- one test decides in both, and behind it nothing fails
      show (if _ then (pure false : ExceptT CompileError (StateM Allocations) Bool)
        else assign signature (packingOf c.options)).run.run t = t.outcome (if _ then _ else _)
      split
      next hkept =>
        refine Eq.trans ?_ (congrArg t.outcome (if_pos hkept).symm)
        rfl
      next hnew =>
        refine Eq.trans ?_ (congrArg t.outcome (if_neg hnew).symm)
        rfl

end Allocations

/-! ## §2. Turns -/

section Turns

variable {channels : Nat} {stored : String × PortType} {before after : Table String PortType}

/-- The textures as they are when some attributes have been placed. -/
def placing (channels : Nat) (placed : Table String PortType) : List StateTexture :=
  (placed.foldl (place channels) ([], [])).2

/-- Groups grow at their ends, however many attributes are placed after them. -/
theorem exists_of_foldl_place :
    ∀ {rest : Table String PortType}, (∀ stored ∈ rest, stored.2.components ≤ channels) →
      ∀ (attributes : Table String AttributeAllocation) (groups : List Group),
        ∃ (attributes' : Table String AttributeAllocation) (groups' : List Group),
          rest.foldl (place channels) (attributes, groups.mapIdx Group.texture) =
              (attributes', groups'.mapIdx Group.texture) ∧
            ∀ (i : Nat) (group : Group), groups[i]? = some group →
              ∃ more, groups'[i]? = some (group ++ more)
  | [], _, attributes, groups =>
    ⟨attributes, groups, rfl, fun _ group hi => ⟨[], by rw [hi, List.append_nil]⟩⟩
  | stored :: rest, hcomponents, attributes, groups => by
    obtain ⟨front, group, back, hfit⟩ :=
      exists_firstFit (hcomponents stored List.mem_cons_self) groups
    obtain ⟨attributes', groups', hrest, hgrown⟩ := exists_of_foldl_place
      (fun other hother => hcomponents other (List.mem_cons_of_mem _ hother))
      (attributes.put stored.1
        { name := stored.1, type := stored.2, texture := min front.length lastIndex
          offset := group.width })
      (front ++ (group ++ [stored]) :: back)
    -- a placement adds to the end of one group, so each group is the start of what it becomes
    refine ⟨attributes', groups', ?_, fun i grown hi => ?_⟩
    · rw [List.foldl_cons, place_eq hfit, hrest]
    · by_cases hindex : i = front.length
      · -- the group that takes the attribute, where it is not a new one
        subst hindex
        have hgroup : grown = group := by
          rcases hfit.found with rfl | ⟨rfl, _, _⟩
          · simpa using hi.symm
          · simp at hi
        subst hgroup
        obtain ⟨more, hmore⟩ := hgrown front.length (grown ++ [stored]) (by simp)
        exact ⟨stored :: more, by simpa using hmore⟩
      · exact hgrown i grown ((hfit.getElem?_of_ne hindex _).trans hi)

/-- **What happens when an attribute is placed**: the textures so far have a first fit for it,
    and in the end it is where that says. -/
theorem exists_turn (hnodup : (Table.keys (before ++ stored :: after)).Nodup)
    (hcomponents : ∀ other ∈ before ++ stored :: after, other.2.components ≤ channels) :
    ∃ (groups front : List Group) (group : Group) (back groups' : List Group) (more : Group),
      placing channels before = groups.mapIdx Group.texture ∧
      (∀ other ∈ groups, other.width ≤ channels) ∧
      FirstFit channels stored groups front group back ∧
      placing channels (before ++ stored :: after) = groups'.mapIdx Group.texture ∧
      groups'[front.length]? = some (group ++ stored :: more) := by
  have hbefore : (Table.keys before).Nodup := by
    rw [Table.keys_append] at hnodup
    exact hnodup.of_append_left
  obtain ⟨groups, attributes, hplaced, hplaces⟩ := exists_places before hbefore
    fun other hother => hcomponents other (List.mem_append_left _ hother)
  obtain ⟨front, group, back, hfit⟩ := exists_firstFit
    (hcomponents stored (List.mem_append_right _ List.mem_cons_self)) groups
  -- what comes later goes behind it: the group only grows at its end
  obtain ⟨attributes', groups', hrest, hgrown⟩ := exists_of_foldl_place
    (fun other hother =>
      hcomponents other (List.mem_append_right _ (List.mem_cons_of_mem _ hother)))
    (attributes.put stored.1
      { name := stored.1, type := stored.2, texture := min front.length lastIndex
        offset := group.width })
    (front ++ (group ++ [stored]) :: back)
  obtain ⟨more, hmore⟩ := hgrown front.length (group ++ [stored]) (by simp)
  refine ⟨groups, front, group, back, groups', more, ?_, hplaces.narrow, hfit, ?_, ?_⟩
  · rw [placing, hplaced]
  · rw [placing, List.foldl_append, hplaced, List.foldl_cons, place_eq hfit, hrest]
  · simpa using hmore

end Turns

namespace FirstFit

variable {channels : Nat} {stored : String × PortType} {placed front : List Group} {group : Group}
  {back : List Group}

/-- The first attribute of all goes into a new texture. -/
theorem eq_nil (h : FirstFit channels stored [] front group back) : front = [] ∧ group = [] := by
  rcases h.found with hfound | ⟨hfront, hgroup, -⟩
  · simp at hfound
  · exact ⟨hfront.symm, hgroup⟩

theorem exists_append (h : FirstFit channels stored placed front group back) :
    ∃ rest, placed = front ++ rest := by
  rcases h.found with hfound | ⟨hfound, -, -⟩
  · exact ⟨group :: back, hfound⟩
  · exact ⟨[], by rw [hfound, List.append_nil]⟩

/-- The textures before it have no room. -/
theorem full_of_mem_take (h : FirstFit channels stored placed front group back)
    {earlier : StateTexture}
    (hearlier : earlier ∈ (placed.mapIdx Group.texture).take front.length) :
    channels < earlier.used + stored.2.components := by
  obtain ⟨rest, rfl⟩ := h.exists_append
  rw [List.mapIdx_append, List.take_left' (by simp)] at hearlier
  obtain ⟨j, hj, rfl⟩ := List.mem_mapIdx.mp hearlier
  exact h.full _ (List.getElem_mem hj)

/-- Its texture has room, if there is one. -/
theorem room_of_getElem? (h : FirstFit channels stored placed front group back)
    {own : StateTexture} (hown : (placed.mapIdx Group.texture)[front.length]? = some own) :
    own.used + stored.2.components ≤ channels := by
  rcases h.found with rfl | ⟨rfl, -, -⟩
  · simp only [List.getElem?_mapIdx, List.getElem?_append_right (Nat.le_refl _), Nat.sub_self,
      List.getElem?_cons_zero, Option.map_some, Option.some.injEq] at hown
    rw [← hown]
    exact h.room
  · simp at hown

end FirstFit

/-! ## §3. Tables that fulfil a call -/

namespace Allocations

variable {t t' : Allocations} {c : Call} {changed : Bool} {packing : Packing}
  {groups : List Group}

/-- How many channels an attribute has in a table. -/
def width (t : Allocations) (name : String) : Nat :=
  ((t.get? name).map (·.type.components)).getD 0

/-- How many channels attributes have together. -/
def span (t : Allocations) : List String → Nat
  | [] => 0
  | name :: names => t.width name + t.span names

/-- What a table is that was built for a call. -/
structure Fulfils (t : Allocations) (c : Call) : Prop where
  /-- The position has the first channels of the first texture. -/
  position : ∃ first rest others, t.textures = first :: others ∧
    first.attributes = positionName :: rest ∧
    (t.get? positionName).map (fun a => (a.texture, a.offset)) = some (0, 0)
  /-- No attribute is in two textures, or in one of them twice. -/
  once : (t.textures.flatMap (·.attributes)).Nodup
  /-- The textures hold the position and what is asked for, and nothing else. -/
  listed : ∀ name, name ∈ t.textures.flatMap (·.attributes) ↔
    name = positionName ∨ ∃ r ∈ c.requests, r.name = name
  /-- An attribute has the channels behind those in front of it in its texture. -/
  behind : ∀ texture ∈ t.textures, ∀ front name back, texture.attributes = front ++ name :: back →
    (t.get? name).map (·.offset) = some (t.span front)
  used : ∀ texture ∈ t.textures, texture.used = t.span texture.attributes
  narrow : ∀ texture ∈ t.textures, texture.used ≤ c.options.channelsPerTexture.toNat
  target : c.options.channelsPerTexture.toNat ≤ 4
  /-- An attribute is stored as wide as it is asked for. -/
  wide : ∀ r ∈ c.requests, ∃ a, t.get? r.name = some a ∧ r.type.components ≤ a.type.components
  /-- The textures come of placing the attributes of the table, one after the other. -/
  placed : t.textures = (placing c.options.channelsPerTexture.toNat t.signature).map
    (nameTexture c.options.texturePrefix)
  names : t.attributes.keys = t.signature.keys
  types : ∀ stored ∈ t.signature, (t.get? stored.1).map (·.type) = some stored.2
  /-- When an attribute was placed there was no room before its texture, and room in it. -/
  firstFit : ∀ before stored after, t.signature = before ++ stored :: after →
    ∀ i texture, t.textures[i]? = some texture → stored.1 ∈ texture.attributes →
      let textures := placing c.options.channelsPerTexture.toNat before
      i ≤ textures.length ∧
      (∀ earlier ∈ textures.take i,
        c.options.channelsPerTexture.toNat < earlier.used + stored.2.components) ∧
      ∀ own, textures[i]? = some own →
        own.used + stored.2.components ≤ c.options.channelsPerTexture.toNat
  /-- No sum of channels that is made on the way exceeds a byte, in a new texture or another. -/
  small : ∀ before stored after, t.signature = before ++ stored :: after →
    0 + stored.2.components < UInt8.size ∧
      ∀ texture ∈ placing c.options.channelsPerTexture.toNat before,
        texture.used + stored.2.components < UInt8.size

namespace Packed

theorem width_eq (h : t.Packed packing groups) {i : Nat} {front back : Group}
    {stored : String × PortType} (hi : groups[i]? = some (front ++ stored :: back)) :
    t.width stored.1 = stored.2.components := by
  rw [width, get?, h.places.located i front stored back hi]
  rfl

/-- Part of a group has the channels that its attributes are stored with. -/
theorem span_keys (h : t.Packed packing groups) {i : Nat} {group : Group}
    (hi : groups[i]? = some group) :
    ∀ {part : Group}, (∀ stored ∈ part, stored ∈ group) → t.span part.keys = part.width
  | [], _ => rfl
  | stored :: part, hpart => by
    obtain ⟨front, back, rfl⟩ := List.append_of_mem (hpart stored List.mem_cons_self)
    have hrest := h.span_keys hi fun other hother => hpart other (List.mem_cons_of_mem _ hother)
    rw [Group.width_cons, ← h.width_eq hi, ← hrest]
    rfl

/-- The textures hold the attributes of the signature, in some order. -/
theorem attributes_eq (h : t.Packed packing groups) :
    t.textures.flatMap (·.attributes) = Table.keys groups.flatten := by
  have hlists : t.textures.map (·.attributes) = groups.map Table.keys := by
    refine List.ext_getElem? fun i => ?_
    rw [List.getElem?_map, h.getElem?_textures, List.getElem?_map, Option.map_map]
    rfl
  rw [List.flatMap_def, hlists, Table.keys, List.map_flatten]
  rfl

theorem exists_of_mem_textures (h : t.Packed packing groups) {texture : StateTexture}
    (hmem : texture ∈ t.textures) :
    ∃ (i : Nat) (group : Group), groups[i]? = some group ∧
      texture = nameTexture packing.texturePrefix (group.texture i) := by
  obtain ⟨i, hi⟩ := List.mem_iff_getElem?.mp hmem
  rw [h.getElem?_textures, Option.map_eq_some_iff] at hi
  obtain ⟨group, hgroup, rfl⟩ := hi
  exact ⟨i, group, hgroup, rfl⟩

/-- An attribute is in one texture only. -/
theorem eq_of_mem_attributes (h : t.Packed packing groups) {name : String} {i j : Nat}
    {A B : StateTexture} (hi : t.textures[i]? = some A) (hj : t.textures[j]? = some B)
    (hA : name ∈ A.attributes) (hB : name ∈ B.attributes) : i = j := by
  rw [h.getElem?_textures, Option.map_eq_some_iff] at hi hj
  obtain ⟨group, hgroup, rfl⟩ := hi
  obtain ⟨group', hgroup', rfl⟩ := hj
  exact h.places.eq_of_mem_keys h.nodup hgroup hgroup' hA hB

/-- An attribute has the channels behind those in front of it in its texture. -/
theorem offset_eq (h : t.Packed packing groups) {texture : StateTexture}
    (hmem : texture ∈ t.textures) {front back : List String} {name : String}
    (hattributes : texture.attributes = front ++ name :: back) :
    (t.get? name).map (·.offset) = some (t.span front) := by
  obtain ⟨i, group, hi, rfl⟩ := h.exists_of_mem_textures hmem
  obtain ⟨front', rest, rfl, rfl, hrest⟩ := List.map_eq_append_iff.mp hattributes
  obtain ⟨stored, back', rfl, rfl, rfl⟩ := List.map_eq_cons_iff.mp hrest
  have hspan := h.span_keys hi fun other hother => List.mem_append_left _ hother
  rw [get?, h.places.located i front' stored back' hi]
  exact congrArg some hspan.symm

end Packed

/-- The position is the first attribute of every signature. -/
theorem exists_summary_eq (requests : List AttributeRequest) :
    ∃ type rest, summary requests = (positionName, type) :: rest := by
  have hnames : ∃ rest, mentioned requests = positionName :: rest := by
    -- the position is met first, and what is met later goes behind it
    have hfold : ∀ asks names : List String, ∃ rest,
        asks.foldl Needs.meet (positionName :: names) = positionName :: rest := by
      intro asks
      induction asks with
      | nil => exact fun names => ⟨names, rfl⟩
      | cons name asks ih =>
        intro names
        rw [List.foldl_cons, Needs.meet]
        split
        · exact ih names
        · exact ih (names ++ [name])
    exact hfold _ []
  obtain ⟨rest, hrest⟩ := hnames
  rw [← keys_summary] at hrest
  cases hsummary : summary requests with
  | nil => exact absurd hsummary (summary_ne_nil requests)
  | cons stored others =>
    rw [hsummary] at hrest
    obtain ⟨hname, -⟩ := List.cons.inj hrest
    exact ⟨stored.2, others, by rw [← hname]⟩

/-- In a table that was built, an attribute went where first fit says when it was placed. -/
theorem exists_turn_rebuilt (t₀ : Allocations) (h : Accepts c.requests c.options)
    {before after : Table String PortType} {stored : String × PortType}
    (hsplit : summary c.requests = before ++ stored :: after) :
    ∃ (placed front : List Group) (group : Group) (back : List Group) (more : Group)
      (texture : StateTexture),
      placing c.options.channelsPerTexture.toNat before = placed.mapIdx Group.texture ∧
      (∀ other ∈ placed, other.width ≤ c.options.channelsPerTexture.toNat) ∧
      FirstFit c.options.channelsPerTexture.toNat stored placed front group back ∧
      (t₀.rebuilt c.requests c.options).textures[front.length]? = some texture ∧
      texture.attributes = Table.keys (group ++ stored :: more) := by
  have hnodup : (summary c.requests).keys.Nodup :=
    keys_summary c.requests ▸ nodup_mentioned c.requests
  have hcomponents : ∀ other ∈ summary c.requests,
      other.2.components ≤ c.options.channelsPerTexture.toNat :=
    fun other hother => (h.components (mem_asked_of_mem_summary hother)).2
  rw [hsplit] at hnodup hcomponents
  obtain ⟨placed, front, group, back, groups', more, hplaced, hnarrow, hfit, hall, hmore⟩ :=
    exists_turn hnodup hcomponents
  refine ⟨placed, front, group, back, more,
    nameTexture c.options.texturePrefix (Group.texture front.length (group ++ stored :: more)),
    hplaced, hnarrow, hfit, ?_, rfl⟩
  show ((placing c.options.channelsPerTexture.toNat (summary c.requests)).map
    (nameTexture c.options.texturePrefix))[front.length]? = _
  rw [hsplit, hall, List.getElem?_map, List.getElem?_mapIdx, hmore]
  rfl

/-- **An update leaves a table that fulfils its call.** -/
theorem fulfils_of_update (ht : Reached t)
    (h : t.update c.requests c.options = .ok (changed, t')) : t'.Fulfils c := by
  have haccepts := accepts_of_update h
  obtain ⟨t₀, rfl⟩ := rebuilt_of_update ht h
  obtain ⟨groups, hpacked⟩ := packed_rebuilt (t := t₀) haccepts
  have hlists := hpacked.attributes_eq
  have hkeys : (Table.keys groups.flatten).Perm (summary c.requests).keys :=
    hpacked.places.perm.map _
  exact {
    position := by
      obtain ⟨type, rest, hsplit⟩ := exists_summary_eq c.requests
      obtain ⟨placed, front, group, back, more, texture, hplaced, -, hfit, hat, hattributes⟩ :=
        exists_turn_rebuilt t₀ haccepts (hsplit.trans (List.nil_append _).symm)
      -- nothing was placed before it, so its texture is the first one, and a new one
      obtain rfl : placed = [] := List.mapIdx_eq_nil_iff.mp hplaced.symm
      obtain ⟨rfl, rfl⟩ := hfit.eq_nil
      obtain ⟨others, hothers⟩ : ∃ others, (t₀.rebuilt c.requests c.options).textures =
          texture :: others :=
        List.head?_eq_some_iff.mp (by simpa [List.head?_eq_getElem?] using hat)
      have hfirst := (hpacked.getElem?_textures 0).symm.trans hat
      obtain ⟨found, hfound, rfl⟩ := Option.map_eq_some_iff.mp hfirst
      obtain ⟨stored, after, rfl, hname, -⟩ := List.map_eq_cons_iff.mp hattributes
      refine ⟨_, _, others, hothers, hattributes, ?_⟩
      rw [← show stored.1 = positionName from hname, get?,
        hpacked.places.located 0 [] stored after hfound]
      rfl
    once := by
      rw [hlists, hkeys.nodup_iff, keys_summary]
      exact nodup_mentioned c.requests
    listed := by
      intro name
      rw [hlists, hkeys.mem_iff, keys_summary, mem_mentioned]
      simp [asked, Table.keys]
    behind := fun _ htexture _ _ _ hattributes => hpacked.offset_eq htexture hattributes
    used := by
      intro texture htexture
      obtain ⟨i, group, hi, rfl⟩ := hpacked.exists_of_mem_textures htexture
      exact (hpacked.span_keys hi fun _ hother => hother).symm
    narrow := by
      intro texture htexture
      obtain ⟨i, group, hi, rfl⟩ := hpacked.exists_of_mem_textures htexture
      exact hpacked.places.narrow group (List.mem_of_getElem? hi)
    target := haccepts.target
    wide := by
      intro r hr
      have hask : (r.name, r.type) ∈ asked c.requests :=
        List.mem_cons_of_mem _ (List.mem_map.mpr ⟨r, hr, rfl⟩)
      obtain ⟨a, ha, hwide, -⟩ := stored_of_asked ht h hask
      exact ⟨a, ha, hwide⟩
    placed := rfl
    names := hpacked.places.keys
    types := by
      intro stored hstored
      obtain ⟨i, front, back, hi⟩ := hpacked.places.exists_of_mem hstored
      rw [get?, hpacked.places.located i front stored back hi]
      rfl
    firstFit := by
      intro before stored after hsplit i texture hi hmem
      obtain ⟨placed, front, group, back, more, texture', hplaced, -, hfit, hat, hattributes⟩ :=
        exists_turn_rebuilt t₀ haccepts hsplit
      -- an attribute is in one texture only, so it is in that of its turn
      have hindex : i = front.length := by
        refine hpacked.eq_of_mem_attributes hi hat hmem ?_
        simp [hattributes, Table.keys]
      subst hindex
      simp only [hplaced, List.length_mapIdx]
      obtain ⟨rest, rfl⟩ := hfit.exists_append
      refine ⟨by simp, fun earlier => hfit.full_of_mem_take, fun own => hfit.room_of_getElem?⟩
    small := by
      intro before stored after hsplit
      obtain ⟨placed, _, _, _, _, _, hplaced, hnarrow, hfit, -, -⟩ :=
        exists_turn_rebuilt t₀ haccepts hsplit
      have hroom := hfit.room
      have htarget := haccepts.target
      have hbyte : ParticlesOptions.maxChannels + ParticlesOptions.maxChannels < UInt8.size := by
        decide
      refine ⟨by omega, fun texture htexture => ?_⟩
      rw [hplaced] at htexture
      obtain ⟨i, hi, rfl⟩ := List.mem_mapIdx.mp htexture
      have hused := hnarrow _ (List.getElem_mem hi)
      show Group.width placed[i] + stored.2.components < UInt8.size
      omega }

end Allocations

/-! ## §4. Sequences of calls -/

/-- What a call does to its table, by its answer: only a table that is built anew changes, and
    its generation is the next one. -/
def Allocations.Answers (t : Allocations) (c : Call) : Prop :=
  match t.respond c with
  | (.ok true, t') => t'.generation = t.generation + 1
  | (.ok false, t') | (.error _, t') => t' = t

theorem Allocations.answers (t : Allocations) (c : Call) : t.Answers c := by
  unfold Answers
  rw [respond_eq]
  cases hupdate : t.update c.requests c.options with
  | error e => rfl
  | ok result =>
    obtain ⟨changed, t'⟩ := result
    obtain ⟨-, heq⟩ := update_eq_ok.mp hupdate
    split at heq
    · cases heq
      rfl
    · cases heq
      rfl

/-- A table over a sequence of calls, with the last call that did not fail. -/
structure Course where
  table : Allocations := {}
  accepted : Option Call := none

namespace Course

/-- One more call. -/
def next (h : Course) (c : Call) : Course :=
  match h.table.respond c with
  | (.ok _, t) => { table := t, accepted := some c }
  | (.error _, t) => { h with table := t }

/-- Calls one after the other, from the empty table on. -/
def run (calls : List Call) : Course := calls.foldl next {}

/-- The table fulfils the last call that did not fail; before there is one, it is empty. -/
def Fulfilled (h : Course) : Prop :=
  match h.accepted with
  | none => h.table = {}
  | some c => h.table.Fulfils c

/-- One more call leaves a table that updates lead to, and the last call fulfilled. -/
theorem next_fulfilled {h : Course} (hreached : Allocations.Reached h.table)
    (hfulfilled : h.Fulfilled) (c : Call) :
    Allocations.Reached (h.next c).table ∧ (h.next c).Fulfilled := by
  unfold next
  rw [respond_eq]
  cases hupdate : h.table.update c.requests c.options with
  | error e => exact ⟨hreached, hfulfilled⟩
  | ok result => exact ⟨hreached.update hupdate, fulfils_of_update hreached hupdate⟩

theorem run_fulfilled (calls : List Call) :
    Allocations.Reached (run calls).table ∧ (run calls).Fulfilled := by
  induction calls using List.reverseRecOn with
  | nil => exact ⟨.empty, rfl⟩
  | append_singleton calls c ih =>
    rw [run, List.foldl_append]
    exact next_fulfilled ih.1 ih.2 c

/-- **At every point of every sequence of calls** the table fulfils the last call that did not
    fail, and whatever the next call is, it changes the table as it answers: not at all, or to
    the next generation. -/
theorem fulfilled_and_answers (calls : List Call) :
    (run calls).Fulfilled ∧ ∀ c, (run calls).table.Answers c :=
  ⟨(run_fulfilled calls).2, answers (run calls).table⟩

/-- Calls for an age and a seed, once with more channels than there are, and in both orders. -/
def agedCalls : List Call :=
  [{ requests := agedRequests, options := {} },
   { requests := agedRequests, options := { channelsPerTexture := 5 } },
   { requests := agedRequests, options := {} },
   { requests := agedRequests.reverse, options := {} }]

/-- Two of them have the table built; the last one is fulfilled. -/
theorem agedCalls_fulfilled :
    (run agedCalls).table.generation = 2 ∧
      (run agedCalls).table.Fulfils { requests := agedRequests.reverse, options := {} } :=
  ⟨rfl, (fulfilled_and_answers agedCalls).1⟩

end Course

end ShaderFlow
