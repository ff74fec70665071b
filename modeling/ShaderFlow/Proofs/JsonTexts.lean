/-
  ShaderFlow.Proofs.JsonTexts — JSON values are read back from their text.

  What is read of the text of a value is the value itself, with two differences that carry no
  meaning: the members of an object come in the order of their keys, and a number without digits
  behind its point has a zero there.  This needs numbers in the forms that are written and no
  more levels than a reader allows.  An item is read behind any white space and in front of
  anything that ends a value, so what is read of items and members one after the other is what is
  read of each.

  Main definitions:
    * `Json.Fits`           — values that stay within a number of levels;
    * `Json.asRead`         — what is read of the text of a value;
    * `Json.Scan.ReadsBack` — whether a scanner reads a value back.

  Main statements:
    * `Json.perm_asRead_members`    — no member of an object is lost;
    * `Json.Scan.readsBack_of_fits` — values anywhere in a text;
    * `Json.ofText?_pretty`         — whole texts.
-/

import Mathlib.Data.List.Perm.Basic
import ShaderFlow.Proofs.JsonTokens

namespace ShaderFlow.Json

/-! ## §1. What is read -/

/-- Values with plain numbers whose arrays and objects nest within the given number of levels. -/
inductive Fits : Nat → Json → Prop where
  | null {levels : Nat} : Fits levels .null
  | bool {levels : Nat} (b : Bool) : Fits levels (.bool b)
  | number {levels : Nat} {n : Number} (h : n.Plain) : Fits levels (.number n)
  | string {levels : Nat} (s : String) : Fits levels (.string s)
  | array {levels : Nat} {items : List Json} (h : ∀ j ∈ items, Fits levels j) :
      Fits (levels + 1) (.array items)
  | object {levels : Nat} {members : List (String × Json)} (h : ∀ m ∈ members, Fits levels m.2) :
      Fits (levels + 1) (.object members)

mutual

/-- What is read of the text of a value. -/
def asRead : Json → Json
  | .number n => .number n.asRead
  | .array items => .array (asReadItems items)
  | .object members => .object (asReadMembers [] members)
  | .null => .null
  | .bool b => .bool b
  | .string s => .string s

/-- What is read of the items of an array. -/
def asReadItems : List Json → List Json
  | [] => []
  | item :: items => item.asRead :: asReadItems items

/-- What is read of the members of an object, behind those found before. -/
def asReadMembers (found : List (String × Json)) : List (String × Json) → List (String × Json)
  | [] => found
  | (name, value) :: members => asReadMembers (Scan.insertMember name value.asRead found) members

end

/-! ## §2. Members -/

/-- A member with a new key is added, wherever its key puts it. -/
theorem perm_insertMember {name : String} (j : Json) :
    ∀ {found : List (String × Json)}, name ∉ found.map (·.1) →
      (Scan.insertMember name j found).Perm ((name, j) :: found)
  | [], _ => .refl _
  | (k, v) :: found, h => by
    have hname : name ≠ k := fun heq => h (heq ▸ List.mem_cons_self)
    have hfound : name ∉ found.map (·.1) := fun hmem => h (List.mem_cons_of_mem k hmem)
    rw [Scan.insertMember, if_neg (by simpa using hname)]
    split
    next => exact .refl _
    next => exact ((perm_insertMember j hfound).cons _).trans (.swap _ _ _)

theorem perm_asReadMembers {members : List (String × Json)} :
    ∀ {found : List (String × Json)}, (members.map (·.1) ++ found.map (·.1)).Nodup →
      (asReadMembers found members).Perm
        (members.map (fun m => (m.1, m.2.asRead)) ++ found) := by
  induction members with
  | nil => exact fun _ => .refl _
  | cons m members ih =>
    intro found h
    obtain ⟨name, j⟩ := m
    simp only [List.map_cons, List.cons_append, List.nodup_cons, List.mem_append, not_or] at h
    obtain ⟨⟨hmembers, hfound⟩, hnodup⟩ := h
    have hperm := perm_insertMember j.asRead hfound
    -- the keys found so far, with that of the member, are still different from those to come
    have hkeys : (members.map (·.1) ++
        (Scan.insertMember name j.asRead found).map (·.1)).Nodup := by
      rw [((hperm.map (·.1)).append_left _).nodup_iff, List.map_cons, List.nodup_middle,
        List.nodup_cons, List.mem_append, not_or]
      exact ⟨⟨hmembers, hfound⟩, hnodup⟩
    rw [asReadMembers]
    calc
      List.Perm _ (members.map (fun m => (m.1, m.2.asRead)) ++
          Scan.insertMember name j.asRead found) := ih hkeys
      List.Perm _ (members.map (fun m => (m.1, m.2.asRead)) ++ (name, j.asRead) :: found) :=
        hperm.append_left _
      List.Perm _ _ := List.perm_middle

/-- **No member of an object is lost**: the members that are read are those that were written,
    in some order. -/
theorem perm_asRead_members {members : List (String × Json)} (h : (members.map (·.1)).Nodup) :
    (asReadMembers [] members).Perm (members.map fun m => (m.1, m.2.asRead)) := by
  have hperm := @perm_asReadMembers members [] (by simpa using h)
  rwa [List.append_nil] at hperm

theorem asReadItems_strings (texts : List String) :
    asReadItems (texts.map Json.string) = texts.map Json.string := by
  induction texts with
  | nil => rfl
  | cons s texts ih => rw [List.map_cons, asReadItems, asRead, ih]

/-! ## §3. Where values begin -/

namespace Scan

variable {inside nested : Scan Json} {j : Json} {depth levels : Nat} {pad text after : List Char}

/-- Whether a value is read back, with blanks in front of it and anything that ends a value
    behind it. -/
def ReadsBack (scan : Scan Json) (j : Json) : Prop :=
  ∀ (depth : Nat) (pad after : List Char), (∀ c ∈ pad, isBlank c = true) → Ends after →
    scan (pad ++ (j.render depth ++ after)) = some (j.asRead, after)

/-- Whether a number may begin with a character. -/
def Begins (c : Char) : Prop := c = '-' ∨ c.isDigit = true

theorem Begins.ne {c d : Char} (hc : Begins c) (hd : d ≠ '-' ∧ d.isDigit = false) : c ≠ d := by
  rintro rfl
  rcases hc with hc | hc
  · exact hd.1 hc
  · rw [hd.2] at hc
    cases hc

theorem Begins.not_isBlank {c : Char} (hc : Begins c) : isBlank c = false := by
  have hspace : c ≠ ' ' := hc.ne (by decide)
  have hline : c ≠ '\n' := hc.ne (by decide)
  have htab : c ≠ '\t' := hc.ne (by decide)
  have hreturn : c ≠ '\r' := hc.ne (by decide)
  simp [isBlank, hspace, hline, htab, hreturn]

theorem exists_cons_text {n : Number} (h : n.Plain) : ∃ c cs, n.text = c :: cs ∧ Begins c := by
  obtain ⟨s, hvalid, htext, -⟩ := Number.exists_spelling h
  obtain ⟨c, cs, hcons⟩ := List.exists_cons_of_ne_nil hvalid.ne_nil
  have hc : c.isDigit = true :=
    hvalid.isDigit c (List.mem_append_left _ (hcons ▸ List.mem_cons_self))
  rw [← htext, Spelling.text, hcons]
  cases s.negative with
  | true => exact ⟨'-', _, rfl, .inl rfl⟩
  | false => exact ⟨c, _, rfl, .inr hc⟩

/-- No value begins with a blank or with what closes an array. -/
theorem exists_cons_render (h : j.Fits levels) (depth : Nat) :
    ∃ c cs, j.render depth = c :: cs ∧ isBlank c = false ∧ c ≠ ']' := by
  cases h with
  | null => exact ⟨'n', _, rfl, rfl, by decide⟩
  | bool b =>
    cases b with
    | true => exact ⟨'t', _, rfl, rfl, by decide⟩
    | false => exact ⟨'f', _, rfl, rfl, by decide⟩
  | number h =>
    obtain ⟨c, cs, htext, hc⟩ := exists_cons_text h
    exact ⟨c, cs, htext, hc.not_isBlank, hc.ne (by decide)⟩
  | string s => exact ⟨'"', _, rfl, rfl, by decide⟩
  | @array _ items h => cases items <;> exact ⟨'[', _, rfl, rfl, by decide⟩
  | @object _ members h => cases members <;> exact ⟨'\x7b', _, rfl, rfl, by decide⟩

/-- Blanks in front of a value make no difference. -/
theorem valueOr_append (hpad : ∀ c ∈ pad, isBlank c = true)
    (htext : ∀ c ∈ text.head?, isBlank c = false) :
    valueOr nested (pad ++ text) = valueOr nested text := by
  rw [valueOr, bind_eq (blanks_append hpad htext), bind_eq (blanks_of_head htext)]

/-- What a number may begin with is read as a number. -/
theorem valueOr_number {c : Char} {cs : List Char} (hc : Begins c) :
    valueOr nested (c :: cs) = (Json.number <$> number) (c :: cs) := by
  have hblanks : blanks (c :: cs) = some ((), c :: cs) :=
    blanks_of_head (by rintro _ ⟨⟩; exact hc.not_isBlank)
  rw [valueOr, bind_eq hblanks, bind_eq (get_eq (c :: cs))]
  refine congrFun ?_ (c :: cs)
  simp only [List.head?_cons]
  split
  next heq => exact absurd (Option.some.inj heq) (hc.ne (by decide))
  next heq => exact absurd (Option.some.inj heq) (hc.ne (by decide))
  next heq => exact absurd (Option.some.inj heq) (hc.ne (by decide))
  next heq => exact absurd (Option.some.inj heq) (hc.ne (by decide))
  next heq => exact absurd (Option.some.inj heq) (hc.ne (by decide))
  next heq => exact absurd (Option.some.inj heq) (hc.ne (by decide))
  next => rfl

/-- What is nested begins with a bracket or a brace. -/
theorem valueOr_bracket (cs : List Char) : valueOr nested ('[' :: cs) = nested ('[' :: cs) := by
  rw [valueOr, bind_eq (blanks_of_head (by rintro _ ⟨⟩; rfl)), bind_eq (get_eq _)]
  rfl

theorem valueOr_brace (cs : List Char) : valueOr nested ('\x7b' :: cs) = nested ('\x7b' :: cs) := by
  rw [valueOr, bind_eq (blanks_of_head (by rintro _ ⟨⟩; rfl)), bind_eq (get_eq _)]
  rfl

/-! ## §4. Items and members -/

theorem renderItems_cons_append (item : Json) (items : List Json) (rest : List Char) :
    renderItems depth (item :: items) ++ rest =
      ',' :: (newline (depth + 1) ++ (item.render (depth + 1) ++
        (renderItems depth items ++ rest))) := by
  simp only [renderItems, List.cons_append, List.append_assoc]

theorem renderMembers_cons_append (name : String) (j : Json) (members : List (String × Json))
    (rest : List Char) :
    renderMembers depth ((name, j) :: members) ++ rest =
      ',' :: (newline (depth + 1) ++ (quoted name ++ ([':'] ++ ([' '] ++
        (j.render (depth + 1) ++ (renderMembers depth members ++ rest)))))) := by
  simp only [renderMembers, List.cons_append, List.nil_append, List.append_assoc]

theorem ends_newline (rest : List Char) : Ends (newline depth ++ rest) := by
  rintro _ ⟨⟩
  exact .inr rfl

theorem ends_comma (rest : List Char) : Ends (',' :: rest) := by
  rintro _ ⟨⟩
  exact .inl rfl

/-- Behind a value the blanks in front of a comma or of the end are skipped. -/
theorem blanks_close {close : Char} (hclose : isBlank close = false) (rest : List Char) :
    blanks (newline depth ++ close :: rest) = some ((), close :: rest) :=
  blanks_append (fun _ => isBlank_of_mem_newline) (by rintro _ ⟨⟩; exact hclose)

/-- **Items.**  If each item of an array is read back, all of them are. -/
theorem items_renderItems (depth : Nat) (after : List Char) :
    ∀ (items : List Json) (item : Json) (rounds : Nat) (acc : List Json) (pad : List Char),
      (∀ j ∈ item :: items, ReadsBack inside j) → items.length < rounds →
      (∀ c ∈ pad, isBlank c = true) →
        Scan.items inside rounds acc (pad ++ (item.render (depth + 1) ++
          (renderItems depth items ++ (newline depth ++ ']' :: after)))) =
          some (acc.reverse ++ asReadItems (item :: items), after)
  | [], item, rounds + 1, acc, pad, hreads, _, hpad => by
    have hitem := hreads item List.mem_cons_self (depth + 1) pad _ hpad
      (@ends_newline depth (']' :: after))
    rw [Scan.items, renderItems, List.nil_append, bind_eq hitem, bind_eq (blanks_close rfl after),
      bind_eq (take?_of_ne (by simp))]
    show some ((item.asRead :: acc).reverse, after) = _
    rw [List.reverse_cons]
    rfl
  | following :: items, item, rounds + 1, acc, pad, hreads, hrounds, hpad => by
    have hrest := items_renderItems depth after items following rounds (item.asRead :: acc)
      (newline (depth + 1)) (fun j hj => hreads j (List.mem_cons_of_mem item hj))
      (Nat.lt_of_succ_lt_succ hrounds) (fun _ => isBlank_of_mem_newline)
    rw [renderItems_cons_append, Scan.items,
      bind_eq (hreads item List.mem_cons_self (depth + 1) pad _ hpad (ends_comma _)),
      bind_eq (blanks_of_head (by rintro _ ⟨⟩; rfl)), bind_eq (take?_cons ',' _), if_pos rfl, hrest,
      List.reverse_cons, List.append_assoc]
    rfl

/-- **Members.**  If the value of each member of an object is read back, all members are. -/
theorem members_renderMembers (depth : Nat) (after : List Char) :
    ∀ (members : List (String × Json)) (name : String) (j : Json) (rounds : Nat)
      (found : List (String × Json)) (pad : List Char),
      (∀ m ∈ (name, j) :: members, ReadsBack inside m.2) → members.length < rounds →
      (∀ c ∈ pad, isBlank c = true) →
        Scan.members inside rounds found (pad ++ (quoted name ++ ([':'] ++ ([' '] ++
          (j.render (depth + 1) ++
            (renderMembers depth members ++ (newline depth ++ '\x7d' :: after))))))) =
          some (asReadMembers found ((name, j) :: members), after)
  | [], name, j, rounds + 1, found, pad, hreads, _, hpad => by
    have hvalue := hreads (name, j) List.mem_cons_self (depth + 1) [' '] _ (by simp [isBlank])
      (@ends_newline depth ('\x7d' :: after))
    rw [Scan.members, bind_eq (blanks_append hpad (by rintro _ ⟨⟩; rfl)),
      bind_eq (string?_quoted name _), bind_eq (blanks_of_head (by rintro _ ⟨⟩; rfl)),
      bind_eq (expect_append [':'] _), renderMembers, List.nil_append, bind_eq hvalue,
      bind_eq (blanks_close rfl after), bind_eq (take?_of_ne (by simp))]
    rfl
  | (name', j') :: members, name, j, rounds + 1, found, pad, hreads, hrounds, hpad => by
    have hvalue := fun rest =>
      hreads (name, j) List.mem_cons_self (depth + 1) [' '] rest (by simp [isBlank])
    have hrest := members_renderMembers depth after members name' j' rounds
      (insertMember name j.asRead found) (newline (depth + 1))
      (fun m hm => hreads m (List.mem_cons_of_mem _ hm)) (Nat.lt_of_succ_lt_succ hrounds)
      (fun _ => isBlank_of_mem_newline)
    rw [renderMembers_cons_append, Scan.members,
      bind_eq (blanks_append hpad (by rintro _ ⟨⟩; rfl)),
      bind_eq (string?_quoted name _), bind_eq (blanks_of_head (by rintro _ ⟨⟩; rfl)),
      bind_eq (expect_append [':'] _), bind_eq (hvalue _ (ends_comma _)),
      bind_eq (blanks_of_head (by rintro _ ⟨⟩; rfl)), bind_eq (take?_cons ',' _), if_pos rfl, hrest]
    rfl

theorem length_le_renderItems (items : List Json) :
    items.length ≤ (renderItems depth items).length := by
  induction items with
  | nil => exact Nat.le_refl 0
  | cons item items ih =>
    rw [renderItems, List.length_append, List.length_cons, List.length_append, List.length_cons]
    omega

theorem length_le_renderMembers (members : List (String × Json)) :
    members.length ≤ (renderMembers depth members).length := by
  induction members with
  | nil => exact Nat.le_refl 0
  | cons m members ih =>
    obtain ⟨name, j⟩ := m
    simp only [renderMembers, List.length_append, List.length_cons]
    omega

/-! ## §5. Values -/

theorem exists_value_eq (levels : Nat) : ∃ nested, value levels = valueOr nested := by
  cases levels with
  | zero => exact ⟨_, rfl⟩
  | succ levels => exact ⟨_, rfl⟩

/-- An array is read back if its items are. -/
theorem composite_array {items : List Json} (hreads : ∀ j ∈ items, ReadsBack inside j)
    (hfits : ∀ j ∈ items, Fits levels j) :
    composite inside ((Json.array items).render depth ++ after) =
      some ((Json.array items).asRead, after) := by
  cases items with
  | nil => rfl
  | cons item items =>
    obtain ⟨c, cs, hcons, hblank, hclose⟩ :=
      exists_cons_render (hfits item List.mem_cons_self) (depth + 1)
    have hrender : (Json.array (item :: items)).render depth ++ after =
        '[' :: (newline (depth + 1) ++ (item.render (depth + 1) ++
          (renderItems depth items ++ (newline depth ++ ']' :: after)))) := by
      simp [render]
    -- there are no more rounds to go than characters left
    have hrounds : items.length < (item.render (depth + 1) ++
        (renderItems depth items ++ (newline depth ++ ']' :: after))).length := by
      have hle := @length_le_renderItems depth items
      simp only [List.length_append, List.length_cons]
      omega
    have hitems := items_renderItems depth after items item _ [] [] hreads hrounds
      (fun c hc => absurd hc List.not_mem_nil)
    rw [hrender, composite, bind_eq (take?_cons '[' _), if_pos rfl,
      bind_eq (blanks_append (fun _ => isBlank_of_mem_newline)
        (by rw [hcons]; rintro _ ⟨⟩; exact hblank)),
      bind_eq (take?_of_ne (by rw [hcons]; rintro ⟨⟩; exact hclose rfl)), if_neg (by simp),
      bind_eq (get_eq _)]
    exact bind_eq hitems _

/-- An object is read back if the values of its members are. -/
theorem composite_object {members : List (String × Json)}
    (hreads : ∀ m ∈ members, ReadsBack inside m.2) :
    composite inside ((Json.object members).render depth ++ after) =
      some ((Json.object members).asRead, after) := by
  cases members with
  | nil => rfl
  | cons m members =>
    obtain ⟨name, j⟩ := m
    have hrender : (Json.object ((name, j) :: members)).render depth ++ after =
        ['\x7b'] ++ (newline (depth + 1) ++ (quoted name ++ ([':'] ++ ([' '] ++
          (j.render (depth + 1) ++
            (renderMembers depth members ++ (newline depth ++ '\x7d' :: after))))))) := by
      simp [render]
    have hrounds : members.length < (quoted name ++ ([':'] ++ ([' '] ++ (j.render (depth + 1) ++
        (renderMembers depth members ++ (newline depth ++ '\x7d' :: after)))))).length := by
      have hle := @length_le_renderMembers depth members
      simp only [List.length_append, List.length_cons]
      omega
    have hmembers := members_renderMembers depth after members name j _ [] [] hreads hrounds
      (fun c hc => absurd hc List.not_mem_nil)
    rw [hrender, composite, bind_eq (take?_of_ne (by simp)), if_neg (by simp),
      bind_eq (expect_append ['\x7b'] _),
      bind_eq (blanks_append (fun _ => isBlank_of_mem_newline) (by rintro _ ⟨⟩; rfl)),
      bind_eq (take?_of_ne (by simp [quoted])), if_neg (by simp), bind_eq (get_eq _)]
    exact bind_eq hmembers _

/-- For a value that fits it is enough to read it where it comes first. -/
theorem readsBack_of_render (h : j.Fits levels) (hread : ∀ (depth : Nat) (after : List Char),
    Ends after → value levels (j.render depth ++ after) = some (j.asRead, after)) :
    ReadsBack (value levels) j := by
  intro depth pad after hpad hafter
  obtain ⟨c, cs, hcons, hblank, -⟩ := exists_cons_render h depth
  obtain ⟨nested, hnested⟩ := exists_value_eq levels
  have hhead : ∀ d ∈ (j.render depth ++ after).head?, isBlank d = false := by
    rw [hcons]
    rintro _ ⟨⟩
    exact hblank
  rw [hnested, valueOr_append hpad hhead, ← hnested]
  exact hread depth after hafter

/-- **Values.**  A value that fits into the levels is read back, anywhere in a text. -/
theorem readsBack_of_fits (h : j.Fits levels) : ReadsBack (value levels) j := by
  induction h with
  | @null levels =>
    refine readsBack_of_render .null fun depth after _ => ?_
    obtain ⟨nested, hnested⟩ := exists_value_eq levels
    rw [hnested, valueOr, render, bind_eq (blanks_of_head (by rintro _ ⟨⟩; rfl)),
      bind_eq (get_eq _)]
    exact map_eq (expect_append "null".toList after) fun () => Json.null
  | @bool levels b =>
    refine readsBack_of_render (.bool b) fun depth after _ => ?_
    obtain ⟨nested, hnested⟩ := exists_value_eq levels
    rw [hnested, valueOr, render]
    cases b with
    | true =>
      rw [bind_eq (blanks_of_head (by rintro _ ⟨⟩; rfl)), bind_eq (get_eq _)]
      exact map_eq (expect_append "true".toList after) fun () => Json.bool true
    | false =>
      rw [bind_eq (blanks_of_head (by rintro _ ⟨⟩; rfl)), bind_eq (get_eq _)]
      exact map_eq (expect_append "false".toList after) fun () => Json.bool false
  | @number levels n hplain =>
    refine readsBack_of_render (.number hplain) fun depth after hafter => ?_
    obtain ⟨nested, hnested⟩ := exists_value_eq levels
    obtain ⟨c, cs, hcons, hc⟩ := exists_cons_text hplain
    have hnumber := map_eq (number_text hplain hafter) Json.number
    rw [hnested, render]
    rw [hcons] at hnumber ⊢
    exact (valueOr_number hc).trans hnumber
  | @string levels s =>
    refine readsBack_of_render (.string s) fun depth after _ => ?_
    obtain ⟨nested, hnested⟩ := exists_value_eq levels
    rw [hnested, valueOr, render, quoted, bind_eq (blanks_of_head (by rintro _ ⟨⟩; rfl)),
      bind_eq (get_eq _)]
    exact map_eq (string?_quoted s after) Json.string
  | @array levels items hfits ih =>
    refine readsBack_of_render (.array hfits) fun depth after _ => ?_
    have harray := @composite_array (value levels) depth levels after items ih hfits
    cases items with
    | nil => exact (valueOr_bracket _).trans harray
    | cons item items => exact (valueOr_bracket _).trans harray
  | @object levels members hfits ih =>
    refine readsBack_of_render (.object hfits) fun depth after _ => ?_
    have hobject := @composite_object (value levels) depth after members ih
    cases members with
    | nil => exact (valueOr_brace _).trans hobject
    | cons m members => exact (valueOr_brace _).trans hobject

end Scan

/-- **Values are read back** if they stay within the levels that a reader allows. -/
theorem ofText?_pretty {j : Json} (h : j.Fits nestingLimit) : ofText? j.pretty = some j.asRead := by
  have hread := Scan.readsBack_of_fits h 0 [] [] (fun c hc => absurd hc List.not_mem_nil)
    (by rintro _ ⟨⟩)
  rw [List.nil_append, List.append_nil] at hread
  rw [ofText?, pretty, String.toList_ofList, hread]
  rfl

end ShaderFlow.Json
