/-
  ShaderFlow.Proofs.Reading — reading back what was written.

  A reader is met with the form of a value, written at any depth and followed by what ends a
  value.  It either has room for the levels that the form nests, and then returns the value and
  leaves what follows, or it stops because the form nests too deeply, and for no other reason.
  Each form is read back if its parts are, so what a whole text comes to is put together from
  what its words do.

  Main definitions:
    * `Reader.Moves`     — steps whose outcome does not depend on the room;
    * `Reader.Reads`     — a reader that returns what it should wherever there is room;
    * `Form.ReadBy`      — a form that a reader reads back;
    * `Form.group`       — the levels of parts that stand together;
    * `Form.FieldsRead`  — the fields of a record that are read back.

  Main statements:
    * `Form.ReadBy.list`, `Form.ReadBy.tuple`, `Form.FieldsRead.record`, `Form.readBy_variant`,
      `Form.readBy_word`, `Form.readBy_text` — one for each form;
    * `Form.ReadBy.readAll` — whole texts.
-/

import Mathlib.Data.List.Forall2
import ShaderFlow.Markup.Structure
import ShaderFlow.Markup.Writer
import ShaderFlow.Proofs.Quoting

namespace ShaderFlow

variable {α β σ : Type}

namespace Reader

/-! ## §1. Outcomes -/

/-- Whether a reader moves from a text to what follows a value, at any depth and without taking
    identities. -/
def Moves (r : Reader α) (before : List Char) (a : α) (after : List Char) : Prop :=
  ∀ room supply, r { room } ⟨before, supply⟩ = .ok (a, ⟨after, supply⟩)

/-- Whether a reader returns a value of which `P` holds and leaves `after`, if there is room for
    that many levels, and otherwise finds values nested too deeply.  This is said of rooms up to a
    limit. -/
def Reads (limit levels : Nat) (r : Reader α) (before after : List Char) (P : α → Prop) : Prop :=
  ∀ room supply, room ≤ limit →
    (levels ≤ room →
      ∃ a supply', P a ∧ r { room } ⟨before, supply⟩ = .ok (a, ⟨after, supply'⟩)) ∧
    (room < levels → r { room } ⟨before, supply⟩ = .error .tooDeep)

variable {r : Reader α} {f : α → Reader β} {before mid after : List Char} {a : α} {b : β}
  {limit n m : Nat} {P : α → Prop} {Q : β → Prop}

/-- The next step starts where the first one ended. -/
theorem bind_of_ok {s : Setting} {c c' : Cursor} (h : r s c = .ok (a, c')) :
    (r >>= f) s c = f a s c' := by
  simp only [Bind.bind, h]

theorem bind_of_error {s : Setting} {c : Cursor} {e : ReadError} (h : r s c = .error e) :
    (r >>= f) s c = .error e := by
  simp only [Bind.bind, h]

namespace Moves

theorem pure (a : α) (text : List Char) : Moves (pure a) text a text := fun _ _ => rfl

theorem bind (h : Moves r before a mid) (hf : Moves (f a) mid b after) :
    Moves (r >>= f) before b after := by
  intro room supply
  rw [bind_of_ok (h room supply)]
  exact hf room supply

/-- A step before a value does not change how deep that may nest. -/
theorem reads (h : Moves r before a mid) (hf : Reads limit n (f a) mid after Q) :
    Reads limit n (r >>= f) before after Q := by
  intro room supply hroom
  rw [bind_of_ok (h room supply)]
  exact hf room supply hroom

end Moves

namespace Reads

theorem of_moves (h : Moves r before a after) (ha : P a) : Reads limit 0 r before after P :=
  fun room supply _ => ⟨fun _ => ⟨a, supply, ha, h room supply⟩, nofun⟩

theorem imp {P' : α → Prop} (himp : ∀ a, P a → P' a) (h : Reads limit n r before after P) :
    Reads limit n r before after P' := by
  intro room supply hroom
  obtain ⟨hfits, hdeep⟩ := h room supply hroom
  refine ⟨fun hn => ?_, hdeep⟩
  obtain ⟨a, supply', ha, hr⟩ := hfits hn
  exact ⟨a, supply', himp a ha, hr⟩

/-- Fewer rooms are asked about. -/
theorem mono {limit' : Nat} (hlimit : limit' ≤ limit) (h : Reads limit n r before after P) :
    Reads limit' n r before after P :=
  fun room supply hroom => h room supply (Nat.le_trans hroom hlimit)

/-- Two steps nest as deep as the deeper one. -/
theorem bind (h : Reads limit n r before mid P)
    (hf : ∀ a, P a → Reads limit m (f a) mid after Q) :
    Reads limit (max n m) (r >>= f) before after Q := by
  intro room supply hroom
  obtain ⟨hfits, hdeep⟩ := h room supply hroom
  -- the first step decides alone only where it is already too deep
  by_cases hn : n ≤ room
  · obtain ⟨a, supply', ha, hr⟩ := hfits hn
    rw [bind_of_ok hr]
    obtain ⟨hfits', hdeep'⟩ := hf a ha room supply' hroom
    exact ⟨fun hroom => hfits' (by omega), fun hroom => hdeep' (by omega)⟩
  · rw [bind_of_error (hdeep (by omega))]
    exact ⟨fun hroom => by omega, fun _ => rfl⟩

/-- A step behind a value does not change how deep that may nest. -/
theorem bind_moves (h : Reads limit n r before mid P)
    (hf : ∀ a, P a → ∃ b, Q b ∧ Moves (f a) mid b after) :
    Reads limit n (r >>= f) before after Q := by
  have hbind := h.bind (f := f) (m := 0) fun a ha => by
    obtain ⟨b, hb, hmoves⟩ := hf a ha
    exact of_moves hmoves hb
  rwa [Nat.max_zero] at hbind

/-- What is one level deeper takes one more. -/
theorem nested (h : Reads limit n r before after P) :
    Reads (limit + 1) (n + 1) (nested r) before after P := by
  intro room supply hroom
  -- the reader for what is inside is given one room less, and none at all is too few
  cases room with
  | zero => exact ⟨fun hn => absurd hn (Nat.not_succ_le_zero n), fun _ => rfl⟩
  | succ room =>
    obtain ⟨hfits, hdeep⟩ := h room supply (Nat.le_of_succ_le_succ hroom)
    exact ⟨fun hn => hfits (Nat.le_of_succ_le_succ hn),
      fun hn => hdeep (Nat.lt_of_succ_lt_succ hn)⟩

end Reads

/-! ## §2. White space and punctuation -/

theorem skip_cons {c : Char} (hblank : isBlank c = false) (hslash : c ≠ '/') (rest : List Char) :
    skip .blanks (c :: rest) = .ok (c :: rest) := by
  -- only the two cases of a character that is no slash are left
  unfold skip
  split <;> simp_all

/-- The blanks in front of a line are skipped. -/
theorem skip_margin (depth : Nat) (rest : List Char) :
    skip .blanks (Form.margin depth ++ rest) = skip .blanks rest := by
  rw [Form.margin]
  -- on the number of blanks, whatever it is a multiple of
  induction 4 * depth with
  | zero => rfl
  | succ n ih =>
    rw [List.replicate_succ, List.cons_append]
    exact ih

namespace Moves

theorem skipBlank (h : skip .blanks before = .ok after) : Moves skipBlank before () after := by
  intro room supply
  show ((skip .blanks before).map ((), ·)).map _ = _
  rw [h]
  rfl

theorem peek (text : List Char) : Moves peek text text.head? text := fun _ _ => rfl

theorem rest (text : List Char) : Moves rest text text text := fun _ _ => rfl

theorem dialect (text : List Char) : Moves dialect text {} text := fun _ _ => rfl

theorem scan {g : List Char → Except ReadError (α × List Char)} (h : g before = .ok (a, after)) :
    Moves (scan g) before a after := by
  intro room supply
  show (g before).map _ = _
  rw [h]
  rfl

theorem find {g : List Char → Option (α × List Char)} (h : g before = some (a, after))
    (what : String) : Moves (find g what) before a after := by
  refine scan ?_
  simp only [h]

theorem take? (x : Char) (text : List Char) : Moves (take? x) (x :: text) true text := by
  intro room supply
  show (if x == x then _ else _) = _
  rw [if_pos (beq_self_eq_true x)]

theorem take?_of_ne {x : Char} (h : before.head? ≠ some x) :
    Moves (Reader.take? x) before false before := by
  intro room supply
  cases before with
  | nil => rfl
  | cons y text =>
    have hne : (x == y) = false := beq_eq_false_iff_ne.mpr fun heq => h (congrArg some heq.symm)
    show (if x == y then _ else _) = _
    rw [hne]
    rfl

theorem take (x : Char) (text : List Char) (what : String) :
    Moves (take x what) (x :: text) () text :=
  (take? x text).bind (Moves.pure _ _)

theorem comma {u : List Char} (hcomma : skip .blanks before = .ok (',' :: u))
    (h : skip .blanks u = .ok after) : Moves comma before true after :=
  (skipBlank hcomma).bind ((take? ',' u).bind ((skipBlank h).bind (Moves.pure _ _)))

theorem comma_of_ne (h : skip .blanks before = .ok after) (hne : after.head? ≠ some ',') :
    Moves Reader.comma before false after :=
  (skipBlank h).bind ((take?_of_ne hne).bind (Moves.pure _ _))

/-- Another part follows a comma. -/
theorem another {close c : Char} (h : skip .blanks before = .ok (c :: after)) (hne : c ≠ close) :
    Moves (another close true) before true (c :: after) := by
  have hpeek : ((c :: after).head? == some close) = false := by simpa using hne
  refine (skipBlank h).bind ((peek _).bind ?_)
  rw [hpeek]
  exact Moves.pure _ _

/-- No part follows where everything closes. -/
theorem another_close {close : Char} (h : skip .blanks before = .ok (close :: after)) :
    Moves (Reader.another close true) before false (close :: after) := by
  have hpeek : ((close :: after).head? == some close) = true := by simp
  refine (skipBlank h).bind ((peek _).bind ?_)
  rw [hpeek]
  exact Moves.pure _ _

end Moves

/-! ## §3. Names -/

/-- The characters that stand behind a name in what is written. -/
def isDelimiter (c : Char) : Bool := c == ':' || c == '(' || c == ',' || c == ')'

theorem isDelimiter_of_mem_head? {x : Char} (h : isDelimiter x = true) (text : List Char) :
    ∀ c ∈ (x :: text).head?, isDelimiter c = true := by
  rintro c ⟨⟩
  exact h

/-- Whether a text is a name as it stands. -/
def isPlainName (name : String) : Bool :=
  match name.toList with
  | [] => false
  | c :: cs => isNameStart c && (c :: cs).all isNamePart

theorem not_isRawNamePart_of_isDelimiter {c : Char} (h : isDelimiter c = true) :
    isRawNamePart c = false := by
  simp only [isDelimiter, Bool.or_eq_true, beq_iff_eq] at h
  rcases h with ((rfl | rfl) | rfl) | rfl <;> rfl

theorem isRawNamePart_of_isNamePart {c : Char} (h : isNamePart c = true) :
    isRawNamePart c = true := by
  simp [isRawNamePart, h]

/-- What continues up to a delimiter is taken up to there. -/
theorem takeWhile_append_delimiter {part : Char → Bool} {cs : List Char}
    (hcs : ∀ c ∈ cs, part c = true) (hpart : ∀ c, isDelimiter c = true → part c = false)
    (hafter : ∀ c ∈ after.head?, isDelimiter c = true) : (cs ++ after).takeWhile part = cs := by
  rw [List.takeWhile_append_of_pos hcs]
  cases after with
  | nil => simp
  | cons c after => simp [hpart c (hafter c rfl)]

/-- Before a delimiter nothing but what continues a name comes to an end. -/
theorem append_ne_of_break (start : List Char) {cs rest : List Char} {x : Char}
    (hcs : (cs ++ after).takeWhile isNamePart = cs)
    (hafter : ∀ c ∈ after.head?, isDelimiter c = true)
    (hstart : start.all isNamePart = true) (hx : isNamePart x = false)
    (hdelimiter : isDelimiter x = false) : cs ++ after ≠ start ++ x :: rest := by
  intro heq
  have htaken : (start ++ x :: rest).takeWhile isNamePart = start := by
    rw [List.takeWhile_append_of_pos (List.all_eq_true.mp hstart), List.takeWhile_cons, hx]
    simp
  rw [heq, htaken] at hcs
  rw [← hcs] at heq
  have hrest : after = x :: rest := List.append_cancel_left heq
  rw [hafter x (by rw [hrest]; rfl)] at hdelimiter
  cases hdelimiter

/-- A name is read up to a delimiter.  Neither a name nor a delimiter looks like the prefix of a
    raw name, a raw text or bytes. -/
theorem name?_append {name : String} (hname : isPlainName name = true)
    (hafter : ∀ c ∈ after.head?, isDelimiter c = true) :
    name? (name.toList ++ after) = some (name, after) := by
  unfold isPlainName at hname
  cases hchars : name.toList with
  | nil => simp [hchars] at hname
  | cons c cs =>
    simp only [hchars, Bool.and_eq_true, List.all_eq_true] at hname
    obtain ⟨hstart, hparts⟩ := hname
    have hplain := takeWhile_append_delimiter hparts
      (fun c hc => by
        cases hpart : isNamePart c with
        | false => rfl
        | true =>
          rw [← not_isRawNamePart_of_isDelimiter hc, isRawNamePart_of_isNamePart hpart]) hafter
    have hraw := takeWhile_append_delimiter
      (fun c hc => isRawNamePart_of_isNamePart (hparts c hc))
      (fun _ => not_isRawNamePart_of_isDelimiter) hafter
    -- each special prefix breaks off at a mark that neither a name nor a delimiter has
    have hne := fun start => @append_ne_of_break after start (c :: cs)
    unfold name?
    split
    next heq => exact absurd heq (hne ['r'] hplain hafter rfl rfl rfl)
    next heq => exact absurd heq (hne ['r'] hplain hafter rfl rfl rfl)
    next heq => exact absurd heq (hne ['b'] hplain hafter rfl rfl rfl)
    next heq => exact absurd heq (hne ['b'] hplain hafter rfl rfl rfl)
    next heq => exact absurd heq (hne ['b', 'r'] hplain hafter rfl rfl rfl)
    next heq => exact absurd heq (hne ['b', 'r'] hplain hafter rfl rfl rfl)
    next heq =>
      have hfirst : isNameStart _ = true := (List.cons.inj heq).1 ▸ hstart
      rw [hplain, hraw, hfirst, ← hchars]
      simp
    next heq => simp at heq

/-- A word comes next where it stands before a delimiter. -/
theorem startsWord_append (word : String) (hafter : ∀ c ∈ after.head?, isDelimiter c = true) :
    startsWord word (word.toList ++ after) = true := by
  have hcontinued : after.head?.any isNamePart = false := by
    cases hhead : after.head? with
    | none => rfl
    | some c =>
      cases hpart : isNamePart c with
      | false => exact hpart
      | true =>
        have hraw := not_isRawNamePart_of_isDelimiter (hafter c hhead)
        rw [isRawNamePart_of_isNamePart hpart] at hraw
        cases hraw
  rw [startsWord, List.drop_left, hcontinued, Bool.and_eq_true]
  exact ⟨List.isPrefixOf_iff_prefix.mpr (List.prefix_append _ _), rfl⟩

namespace Moves

theorem name {key : String} (hkey : isPlainName key = true)
    (hafter : ∀ c ∈ after.head?, isDelimiter c = true) :
    Moves name (key.toList ++ after) key after :=
  find (name?_append hkey hafter) _

theorem word? (word : String) (hafter : ∀ c ∈ after.head?, isDelimiter c = true) :
    Moves (word? word) (word.toList ++ after) true after := by
  refine scan ?_
  rw [if_pos (startsWord_append word hafter), List.drop_left]

end Moves

end Reader

/-! ## §4. Forms -/

namespace Form

open Reader

/-- What ends a value: the end of the text, a comma, or a closing parenthesis. -/
def Ends (after : List Char) : Prop := ∀ c ∈ after.head?, c = ',' ∨ c = ')'

theorem Ends.isDelimiter {after : List Char} (h : Ends after) :
    ∀ c ∈ after.head?, isDelimiter c = true := by
  intro c hc
  rcases h c hc with rfl | rfl <;> rfl

theorem ends_comma (text : List Char) : Ends (',' :: text) := by
  rintro c ⟨⟩
  exact .inl rfl

theorem ends_parenthesis (text : List Char) : Ends (')' :: text) := by
  rintro c ⟨⟩
  exact .inr rfl

/-- Whether a character may begin a value: it is no white space and closes nothing. -/
def opensValue (c : Char) : Bool := !isBlank c && c != '/' && c != ')' && c != ']'

/-- Nothing is skipped where a value may begin. -/
theorem skip_of_opensValue {c : Char} (h : opensValue c = true) (rest : List Char) :
    skip .blanks (c :: rest) = .ok (c :: rest) := by
  simp only [opensValue, Bool.and_eq_true, Bool.not_eq_true', bne_iff_ne] at h
  exact skip_cons h.1.1.1 h.1.1.2 rest

/-- **A form that is read back.**  Its text begins like a value, and wherever a value ends behind
    it, the reader returns a value of which `P` holds and leaves what follows, if there is room for
    that many levels. -/
structure ReadBy (form : Form) (limit levels : Nat) (r : Reader α) (P : α → Prop) : Prop where
  opens : ∀ depth, ∃ c rest, form.render depth = c :: rest ∧ opensValue c = true
  reads : ∀ depth after, Ends after → Reads limit levels r (form.render depth ++ after) after P

namespace ReadBy

variable {form : Form} {limit n m : Nat} {r : Reader α} {P : α → Prop} {Q : β → Prop}

theorem imp {P' : α → Prop} (himp : ∀ a, P a → P' a) (h : form.ReadBy limit n r P) :
    form.ReadBy limit n r P' :=
  ⟨h.opens, fun depth after hafter => (h.reads depth after hafter).imp himp⟩

theorem mono {limit' : Nat} (hlimit : limit' ≤ limit) (h : form.ReadBy limit n r P) :
    form.ReadBy limit' n r P :=
  ⟨h.opens, fun depth after hafter => (h.reads depth after hafter).mono hlimit⟩

/-- What is made of a value does not change how it is read. -/
theorem bind_moves {f : α → Reader β} (h : form.ReadBy limit n r P)
    (hf : ∀ a, P a → ∃ b, Q b ∧ ∀ text, Moves (f a) text b text) :
    form.ReadBy limit n (r >>= f) Q :=
  ⟨h.opens, fun depth after hafter => (h.reads depth after hafter).bind_moves fun a ha =>
    let ⟨b, hb, hmoves⟩ := hf a ha
    ⟨b, hb, hmoves after⟩⟩

/-- Nothing is skipped before a value. -/
theorem skip_render (h : form.ReadBy limit n r P) (depth : Nat) (text : List Char) :
    skip .blanks (form.render depth ++ text) = .ok (form.render depth ++ text) := by
  obtain ⟨c, rest, hrender, hopens⟩ := h.opens depth
  rw [hrender, List.cons_append]
  exact skip_of_opensValue hopens _

/-- A value is taken for another part. -/
theorem moves_another (h : form.ReadBy limit n r P) {close : Char}
    (hclose : opensValue close = false) (depth : Nat) {text before : List Char}
    (hskip : skip .blanks before = .ok (form.render depth ++ text)) :
    Moves (another close true) before true (form.render depth ++ text) := by
  obtain ⟨c, rest, hrender, hopens⟩ := h.opens depth
  rw [hrender, List.cons_append] at hskip ⊢
  refine Moves.another hskip ?_
  rintro rfl
  rw [hclose] at hopens
  cases hopens

end ReadBy

/-! ## §5. Parts that stand together -/

/-- How deep the deepest of some parts goes, each one level below what is around it. -/
def deepest (parts : List Nat) : Nat := parts.foldr (fun n m => max (n + 1) m) 0

/-- How deep parts go with what is around them. -/
def group (parts : List Nat) : Nat := deepest parts + 1

theorem deepest_nil : deepest [] = 0 := rfl

theorem deepest_cons (n : Nat) (ns : List Nat) : deepest (n :: ns) = max (n + 1) (deepest ns) := rfl

section Lists

variable {γ : Type} {form : γ → Form} {levels : γ → Nat} {limit : Nat} {r : Reader α}
  {P : γ → α → Prop} {xs : List γ}

/-- The items of a list, from the first one to the closing bracket. -/
def itemsText (depth : Nat) (after : List Char) : List Form → List Char
  | [] => ']' :: after
  | item :: items =>
    item.render (depth + 1) ++
      ',' :: '\n' :: (renderItems depth items ++ (margin depth ++ ']' :: after))

theorem skip_renderItems (depth : Nat) (after : List Char) (items : List Form) :
    skip .blanks (renderItems depth items ++ (margin depth ++ ']' :: after)) =
      skip .blanks (itemsText depth after items) := by
  cases items with
  | nil => exact skip_margin depth _
  | cons item items =>
    rw [renderItems, itemsText]
    simp only [List.append_assoc, List.cons_append]
    exact skip_margin (depth + 1) _

theorem skip_itemsText (h : ∀ x ∈ xs, (form x).ReadBy limit (levels x) r (P x)) (depth : Nat)
    (after : List Char) :
    skip .blanks (itemsText depth after (xs.map form)) =
      .ok (itemsText depth after (xs.map form)) := by
  cases xs with
  | nil => rfl
  | cons x xs => exact (h x List.mem_cons_self).skip_render (depth + 1) _

/-- The items of a list are read one after the other, a comma behind each of them. -/
theorem reads_parts (depth : Nat) (after : List Char) :
    ∀ {xs : List γ}, (∀ x ∈ xs, (form x).ReadBy limit (levels x) r (P x)) →
      ∀ (rounds : Nat) (text : List Char), xs.length < rounds →
        skip .blanks text = .ok (itemsText depth after (xs.map form)) →
          Reads (limit + 1) (deepest (xs.map levels)) (parts ']' r rounds true) text (']' :: after)
            (List.Forall₂ P xs)
  | [], _, rounds + 1, text, _, hskip =>
    (Moves.another_close hskip).reads (.of_moves (Moves.pure _ _) .nil)
  | x :: xs, h, rounds + 1, text, hrounds, hskip => by
    have hx := h x List.mem_cons_self
    have hxs : ∀ y ∈ xs, (form y).ReadBy limit (levels y) r (P y) :=
      fun y hy => h y (List.mem_cons_of_mem x hy)
    -- the next item, or the bracket, is where the induction goes on
    have hnext := skip_itemsText hxs depth after
    have hcomma : skip .blanks ('\n' :: (renderItems depth (xs.map form) ++
        (margin depth ++ ']' :: after))) = .ok (itemsText depth after (xs.map form)) :=
      (skip_renderItems depth after _).trans hnext
    refine (hx.moves_another rfl (depth + 1) hskip).reads ?_
    refine (hx.reads (depth + 1) _ (ends_comma _)).nested.bind fun a ha => ?_
    refine (Moves.comma (skip_cons rfl (by decide) _) hcomma).reads ?_
    exact (reads_parts depth after hxs rounds _ (Nat.lt_of_succ_lt_succ hrounds) hnext).bind_moves
      fun as has => ⟨a :: as, .cons ha has, Moves.pure _ _⟩

theorem length_le_renderItems (depth : Nat) :
    ∀ items : List Form, items.length ≤ (renderItems depth items).length
  | [] => Nat.le_refl 0
  | item :: items => by
    have ih := length_le_renderItems depth items
    rw [renderItems]
    simp only [List.length_append, List.length_cons]
    omega

/-- **Lists.**  A list is read back if its items are. -/
theorem ReadBy.list (h : ∀ x ∈ xs, (form x).ReadBy limit (levels x) r (P x)) :
    (Form.list (xs.map form)).ReadBy limit (group (xs.map levels)) (Reader.list r)
      (List.Forall₂ P xs) := by
  refine ⟨fun depth => ⟨'[', _, rfl, rfl⟩, fun depth after _ => ?_⟩
  -- behind the bracket, up to where the items begin or everything closes
  obtain ⟨inside, hrender, hskip, hlength⟩ : ∃ inside,
      (Form.list (xs.map form)).render depth ++ after = '[' :: inside ∧
        skip .blanks inside = .ok (itemsText depth after (xs.map form)) ∧
        xs.length ≤ inside.length := by
    cases xs with
    | nil => exact ⟨']' :: after, rfl, rfl, Nat.zero_le _⟩
    | cons x xs =>
      have hlong := length_le_renderItems depth ((x :: xs).map form)
      refine ⟨'\n' :: (renderItems depth ((x :: xs).map form) ++ (margin depth ++ ']' :: after)),
        ?_, (skip_renderItems depth after _).trans (skip_itemsText h depth after), ?_⟩
      · rw [render]
        simp
      · rw [List.length_map] at hlong
        rw [List.length_cons (a := '\n'), List.length_append]
        omega
  rw [hrender]
  refine (Moves.take '[' inside _).reads ((Moves.rest inside).reads ?_)
  have hparts := reads_parts depth after h (inside.length + 1) inside (by omega) hskip
  -- the list stands two levels above its items; the reader around it knows no more than `limit`
  refine Reads.mono (Nat.le_add_right limit 2) (hparts.nested.bind_moves fun items hitems => ?_)
  refine ⟨items, hitems, (Moves.skipBlank (skip_cons rfl (by decide) after)).bind ?_⟩
  exact (Moves.take ']' after _).bind (Moves.pure _ _)

end Lists

section Tuples

variable {γ : Type} {form : γ → Form} {levels : γ → Nat} {limit n m : Nat} {r : Reader α}
  {r' : Reader β} {P : γ → α → Prop} {first second : Form} {xs : List γ} {Q : α → Prop}
  {Q' : β → Prop}

/-- A part before another one. -/
theorem ReadBy.part (h : first.ReadBy limit n r Q) (depth : Nat) {text : List Char}
    (hskip : skip .blanks text = .ok text) :
    Reads (limit + 1) (n + 1) (Reader.part ')' true r)
      (first.render depth ++ ',' :: ' ' :: text) text fun (a, separated) =>
        Q a ∧ separated = true := by
  refine (h.moves_another rfl depth (h.skip_render depth _)).reads ?_
  refine (h.reads depth _ (ends_comma _)).nested.bind_moves fun a ha => ⟨(a, true), ⟨ha, rfl⟩, ?_⟩
  exact (Moves.comma (skip_cons rfl (by decide) _) hskip).bind (Moves.pure _ _)

/-- The last part. -/
theorem ReadBy.last (h : first.ReadBy limit n r Q) (depth : Nat) (after : List Char) :
    Reads (limit + 1) (n + 1) (Reader.part ')' true r) (first.render depth ++ ')' :: after)
      (')' :: after) fun (a, _) => Q a := by
  refine (h.moves_another rfl depth (h.skip_render depth _)).reads ?_
  refine (h.reads depth _ (ends_parenthesis _)).nested.bind_moves fun a ha => ⟨(a, false), ha, ?_⟩
  exact (Moves.comma_of_ne (skip_cons rfl (by decide) _) (by simp)).bind (Moves.pure _ _)

/-- What stands in parentheses. -/
theorem reads_enclosed {text after : List Char}
    (h : Reads (limit + 1) n r text (')' :: after) Q) :
    Reads (limit + 2) (n + 1) (enclosed false r) ('(' :: text) after Q := by
  refine (Moves.take '(' text _).reads (h.nested.bind_moves fun a ha => ⟨a, ha, ?_⟩)
  exact (Moves.take ')' after _).bind (Moves.pure _ _)

/-- The parts of a tuple are read one after the other. -/
theorem reads_repeated (depth : Nat) (after : List Char) :
    ∀ (x : γ) (xs : List γ), (∀ y ∈ x :: xs, (form y).ReadBy limit (levels y) r (P y)) →
      Reads (limit + 1) (deepest ((x :: xs).map levels)) (repeated r (xs.length + 1) true)
        (renderParts depth ((x :: xs).map form) ++ ')' :: after) (')' :: after)
        (List.Forall₂ P (x :: xs))
  | x, [], h => by
    have hx := h x List.mem_cons_self
    refine ((hx.last depth after).bind fun (a, _) ha => ?_)
    exact .of_moves (Moves.pure _ _) (.cons ha .nil)
  | x, y :: ys, h => by
    have hx := h x List.mem_cons_self
    have hxs : ∀ z ∈ y :: ys, (form z).ReadBy limit (levels z) r (P z) :=
      fun z hz => h z (List.mem_cons_of_mem x hz)
    -- what follows a comma opens a value, so no blanks are skipped in front of it
    have hnext : skip .blanks (renderParts depth ((y :: ys).map form) ++ ')' :: after) =
        .ok (renderParts depth ((y :: ys).map form) ++ ')' :: after) := by
      have hy := (hxs y List.mem_cons_self).skip_render depth
      cases ys with
      | nil => exact hy _
      | cons z zs =>
        simp only [List.map_cons, renderParts, List.append_assoc]
        exact hy _
    have hpart := (hx.part depth hnext).bind (Q := List.Forall₂ P (x :: y :: ys))
      (f := fun (a, separated) => do return a :: (← repeated r (ys.length + 1) separated))
      fun (a, separated) ⟨ha, hseparated⟩ => by
        rw [hseparated]
        exact (reads_repeated depth after y ys hxs).bind_moves fun as has =>
          ⟨a :: as, .cons ha has, Moves.pure _ _⟩
    simp only [List.map_cons, renderParts, List.append_assoc, List.cons_append]
    exact hpart

/-- **Tuples.**  A tuple of parts of one type is read back if its parts are. -/
theorem ReadBy.tuple {x : γ} (h : ∀ y ∈ x :: xs, (form y).ReadBy limit (levels y) r (P y)) :
    (Form.tuple "" ((x :: xs).map form)).ReadBy limit (group ((x :: xs).map levels))
      (Reader.tuple false (xs.length + 1) r) (List.Forall₂ P (x :: xs)) := by
  refine ⟨fun depth => ⟨'(', _, rfl, rfl⟩, fun depth after _ => ?_⟩
  have hrender : (Form.tuple "" ((x :: xs).map form)).render depth ++ after =
      '(' :: (renderParts depth ((x :: xs).map form) ++ ')' :: after) := by
    rw [render]
    simp
  rw [hrender]
  exact (reads_enclosed (reads_repeated depth after x xs h)).mono (Nat.le_add_right limit 2)

/-- What a variant of two parts holds behind its name. -/
theorem reads_pair (h : first.ReadBy limit n r Q) (h' : second.ReadBy limit m r' Q') (depth : Nat)
    (after : List Char) :
    Reads limit (group [n, m]) (Reader.pair false r r')
      ('(' :: (renderParts depth [first, second] ++ ')' :: after)) after
      fun (a, b) => Q a ∧ Q' b := by
  -- the two parts as the reader takes them, without the parentheses
  have hinside : Reads (limit + 1) (deepest [n, m])
      (do
        let (a, separated) ← Reader.part ')' true r
        let (b, _) ← Reader.part ')' separated r'
        pure (a, b) : Reader (α × β))
      (renderParts depth [first, second] ++ ')' :: after) (')' :: after)
      fun (a, b) => Q a ∧ Q' b := by
    have hparts := (h.part depth (h'.skip_render depth (')' :: after))).bind
      (Q := fun (a, b) => Q a ∧ Q' b)
      (f := fun (a, separated) => do
        let (b, _) ← Reader.part ')' separated r'
        pure (a, b))
      fun (a, separated) ⟨ha, hseparated⟩ => by
        rw [hseparated]
        exact (h'.last depth after).bind_moves fun (b, _) hb => ⟨(a, b), ⟨ha, hb⟩, Moves.pure _ _⟩
    simp only [renderParts, List.append_assoc, List.cons_append]
    exact hparts
  exact (reads_enclosed hinside).mono (Nat.le_add_right limit 2)

end Tuples

/-! ## §6. Records -/

/-- Whether a reader of fields reads back fields with forms that nest so deep, from what is known
    when `Q` holds to what is known when `Q'` holds. -/
inductive FieldsRead (known : List (Reader.Field σ)) (limit : Nat) :
    List (String × Form) → List Nat → (σ → Prop) → (σ → Prop) → Prop where
  | nil {Q : σ → Prop} : FieldsRead known limit [] [] Q Q
  | cons {key : String} {form : Form} {field : Reader.Field σ} {n : Nat} {ns : List Nat}
      {fields : List (String × Form)} {Q Q₁ Q' : σ → Prop}
      (hkey : isPlainName key = true) (hfield : known.find? (·.name == key) = some field)
      (hset : ∀ s, Q s → field.isSet s = false)
      (hread : ∀ s, Q s → form.ReadBy limit n (field.value s) Q₁)
      (hrest : FieldsRead known limit fields ns Q₁ Q') :
      FieldsRead known limit ((key, form) :: fields) (n :: ns) Q Q'

section Records

variable {known : List (Reader.Field σ)} {limit n : Nat} {ns : List Nat} {key recordType : String}
  {form : Form} {fields : List (String × Form)} {Q Q' : σ → Prop} {r : Reader α} {P : α → Prop}
  {R : β → Prop}

/-- A field whose value is kept in a slot. -/
theorem FieldsRead.slot {get : σ → Option α} {set : σ → α → σ} (hkey : isPlainName key = true)
    (hfield : known.find? (·.name == key) = some (.slot key get set r))
    (hset : ∀ s, Q s → get s = none) (hread : form.ReadBy limit n r P)
    (hrest : FieldsRead known limit fields ns (fun s' => ∃ s a, Q s ∧ P a ∧ s' = set s a) Q') :
    FieldsRead known limit ((key, form) :: fields) (n :: ns) Q Q' := by
  refine .cons hkey hfield (fun s hs => ?_) (fun s hs => ?_) hrest
  · show (get s).isSome = false
    rw [hset s hs]
    rfl
  · exact hread.bind_moves fun a ha => ⟨set s a, ⟨s, a, hs, ha, rfl⟩, fun text => Moves.pure _ text⟩

/-- Two fields that are kept in slots. -/
theorem FieldsRead.two {γ : Type} {key' : String} {form' : Form} {m : Nat} {r' : Reader γ}
    {P' : γ → Prop} {get : σ → Option α} {set : σ → α → σ} {get' : σ → Option γ}
    {set' : σ → γ → σ} {start : σ} (hkey : isPlainName key = true)
    (hfield : known.find? (·.name == key) = some (.slot key get set r))
    (hkey' : isPlainName key' = true)
    (hfield' : known.find? (·.name == key') = some (.slot key' get' set' r'))
    (hset : get start = none) (hset' : ∀ a, get' (set start a) = none)
    (hread : form.ReadBy limit n r P) (hread' : form'.ReadBy limit m r' P') :
    FieldsRead known limit [(key, form), (key', form')] [n, m] (· = start)
      fun s => ∃ a b, P a ∧ P' b ∧ s = set' (set start a) b := by
  refine .slot hkey hfield (fun s hs => hs ▸ hset) hread (.cons hkey' hfield' ?_ ?_ .nil)
  · rintro _ ⟨s, a, hs, _, rfl⟩
    show (get' (set s a)).isSome = false
    rw [hs, hset' a]
    rfl
  · rintro _ ⟨s, a, hs, ha, rfl⟩
    exact hread'.bind_moves fun b hb =>
      ⟨set' (set s a) b, ⟨a, b, ha, hb, hs ▸ rfl⟩, Moves.pure (set' (set s a) b)⟩

/-- Three fields that are kept in slots. -/
theorem FieldsRead.three {γ δ : Type} {key' key'' : String} {form' form'' : Form} {m k : Nat}
    {r' : Reader γ} {r'' : Reader δ} {P' : γ → Prop} {P'' : δ → Prop} {get : σ → Option α}
    {set : σ → α → σ} {get' : σ → Option γ} {set' : σ → γ → σ} {get'' : σ → Option δ}
    {set'' : σ → δ → σ} {start : σ} (hkey : isPlainName key = true)
    (hfield : known.find? (·.name == key) = some (.slot key get set r))
    (hkey' : isPlainName key' = true)
    (hfield' : known.find? (·.name == key') = some (.slot key' get' set' r'))
    (hkey'' : isPlainName key'' = true)
    (hfield'' : known.find? (·.name == key'') = some (.slot key'' get'' set'' r''))
    (hset : get start = none) (hset' : ∀ a, get' (set start a) = none)
    (hset'' : ∀ a b, get'' (set' (set start a) b) = none) (hread : form.ReadBy limit n r P)
    (hread' : form'.ReadBy limit m r' P') (hread'' : form''.ReadBy limit k r'' P'') :
    FieldsRead known limit [(key, form), (key', form'), (key'', form'')] [n, m, k] (· = start)
      fun s => ∃ a b c, P a ∧ P' b ∧ P'' c ∧ s = set'' (set' (set start a) b) c := by
  refine .slot hkey hfield (fun s hs => hs ▸ hset) hread (.slot hkey' hfield' ?_ hread'
    (.cons hkey'' hfield'' ?_ ?_ .nil))
  · rintro _ ⟨s, a, rfl, _, rfl⟩
    exact hset' a
  · rintro _ ⟨_, b, ⟨s, a, rfl, _, rfl⟩, _, rfl⟩
    show (get'' _).isSome = false
    rw [hset'' a b]
    rfl
  · rintro _ ⟨_, b, ⟨s, a, rfl, ha, rfl⟩, hb, rfl⟩
    exact hread''.bind_moves fun c hc =>
      ⟨set'' (set' (set s a) b) c, ⟨a, b, c, ha, hb, hc, rfl⟩, Moves.pure _⟩

/-- The fields of a record, from the first one to the closing parenthesis. -/
def fieldsText (depth : Nat) (after : List Char) : List (String × Form) → List Char
  | [] => ')' :: after
  | (key, form) :: fields =>
    key.toList ++ ':' :: ' ' :: (form.render (depth + 1) ++
      ',' :: '\n' :: (renderFields depth fields ++ (margin depth ++ ')' :: after)))

theorem skip_renderFields (depth : Nat) (after : List Char) (fields : List (String × Form)) :
    skip .blanks (renderFields depth fields ++ (margin depth ++ ')' :: after)) =
      skip .blanks (fieldsText depth after fields) := by
  cases fields with
  | nil => exact skip_margin depth _
  | cons field fields =>
    rw [renderFields, fieldsText]
    simp only [List.append_assoc, List.cons_append]
    exact skip_margin (depth + 1) _

/-- A name begins with what is no white space and closes nothing. -/
theorem exists_cons_of_isPlainName (hkey : isPlainName key = true) :
    ∃ c rest, key.toList = c :: rest ∧ isNamePart c = true := by
  unfold isPlainName at hkey
  cases hchars : key.toList with
  | nil => simp [hchars] at hkey
  | cons c rest =>
    simp only [hchars, Bool.and_eq_true, List.all_eq_true] at hkey
    exact ⟨c, rest, rfl, hkey.2 c List.mem_cons_self⟩

theorem opensValue_of_isNamePart {c : Char} (h : isNamePart c = true) : opensValue c = true := by
  have hnone : [' ', '\t', '\n', '\r', '\x0b', '\x0c', '\u0085', '\u200e', '\u200f', '\u2028',
      '\u2029', '/', ')', ']'].all (fun x => !isNamePart x) = true := by decide +kernel
  have hc : c ∉ _ := fun hmem => by
    have hpart := List.all_eq_true.mp hnone c hmem
    rw [h] at hpart
    cases hpart
  simp only [List.mem_cons, List.not_mem_nil, or_false, not_or] at hc
  simp [opensValue, isBlank, hc]

/-- A value may begin where a name does. -/
theorem opens_name (hkey : isPlainName key = true) (text : List Char) :
    ∃ c rest, key.toList ++ text = c :: rest ∧ opensValue c = true := by
  obtain ⟨c, rest, hchars, hpart⟩ := exists_cons_of_isPlainName hkey
  rw [hchars]
  exact ⟨c, _, rfl, opensValue_of_isNamePart hpart⟩

/-- Nothing is skipped in front of a name. -/
theorem skip_name (hkey : isPlainName key = true) (text : List Char) :
    skip .blanks (key.toList ++ text) = .ok (key.toList ++ text) := by
  obtain ⟨c, rest, hchars, hopens⟩ := opens_name hkey text
  rw [hchars]
  exact skip_of_opensValue hopens rest

theorem skip_fieldsText (h : FieldsRead known limit fields ns Q Q') (depth : Nat)
    (after : List Char) :
    skip .blanks (fieldsText depth after fields) = .ok (fieldsText depth after fields) := by
  cases h with
  | nil => rfl
  | cons hkey => exact skip_name hkey _

/-- The fields of a record are read one after the other, a comma behind each of them. -/
theorem FieldsRead.reads (h : FieldsRead known limit fields ns Q Q') (depth : Nat)
    (after : List Char) :
    ∀ (rounds : Nat) (text : List Char) (s : σ), fields.length < rounds →
      skip .blanks text = .ok (fieldsText depth after fields) → Q s →
        Reads (limit + 1) (deepest ns) (Reader.fields known rounds true s) text (')' :: after)
          Q' := by
  induction h with
  | nil =>
    rintro (_ | rounds) text s hrounds hskip hs
    · cases hrounds
    · exact (Moves.another_close hskip).reads (.of_moves (Moves.pure _ _) hs)
  | @cons key form field n ns fields Q Q₁ Q' hkey hfield hset hread hrest ih =>
    rintro (_ | rounds) text s hrounds hskip hs
    · cases hrounds
    obtain ⟨c, rest, hchars, hpart⟩ := exists_cons_of_isPlainName hkey
    -- the next field, or the parenthesis, is where the induction goes on
    have hnext := skip_fieldsText hrest depth after
    have hvalue := hread s hs
    have hanother : Moves (another ')' true) text true
        (fieldsText depth after ((key, form) :: fields)) := by
      rw [fieldsText, hchars, List.cons_append] at hskip ⊢
      refine Moves.another hskip ?_
      rintro rfl
      cases hpart
    have hname : Reads (limit + 1) 1 (nested name) (fieldsText depth after ((key, form) :: fields))
        (':' :: ' ' :: (form.render (depth + 1) ++ ',' :: '\n' ::
          (renderFields depth fields ++ (margin depth ++ ')' :: after)))) (· = key) :=
      (Reads.of_moves (P := (· = key))
        (Moves.name hkey (isDelimiter_of_mem_head? rfl _)) rfl).nested
    have hcomma : skip .blanks ('\n' :: (renderFields depth fields ++
        (margin depth ++ ')' :: after))) = .ok (fieldsText depth after fields) :=
      (skip_renderFields depth after fields).trans hnext
    -- the name of the field takes a level of its own, which the value takes in any case
    have hlevels : deepest (n :: ns) = max 1 (deepest (n :: ns)) := by
      rw [deepest_cons]
      omega
    refine hanother.reads ?_
    rw [if_pos rfl, hlevels]
    refine hname.bind ?_
    rintro _ rfl
    simp only [hfield, hset s hs]
    refine (Moves.pure (field.value s) _).reads ?_
    refine (Moves.skipBlank (skip_cons rfl (by decide) _)).reads ?_
    refine (Moves.take ':' _ _).reads ?_
    refine (Moves.skipBlank (hvalue.skip_render (depth + 1) _)).reads ?_
    refine (hvalue.reads (depth + 1) _ (ends_comma _)).nested.bind fun s' hs' => ?_
    refine (Moves.comma (skip_cons rfl (by decide) _) hcomma).reads ?_
    exact ih rounds _ s' (Nat.lt_of_succ_lt_succ hrounds) hnext hs'

theorem length_le_renderFields (depth : Nat) :
    ∀ fields : List (String × Form), fields.length ≤ (renderFields depth fields).length
  | [] => Nat.le_refl 0
  | (key, form) :: fields => by
    have ih := length_le_renderFields depth fields
    rw [renderFields]
    simp only [List.length_append, List.length_cons]
    omega

/-- What stands in the parentheses of a record, whatever is in front of them. -/
theorem FieldsRead.reads_enclosed (h : FieldsRead known limit fields ns Q Q') (depth : Nat)
    (after : List Char) {s : σ} (hs : Q s) {rounds : Nat} (hrounds : fields.length < rounds) :
    Reads (limit + 2) (group ns) (enclosed false (Reader.fields known rounds true s))
      ('(' :: '\n' :: (renderFields depth fields ++ (margin depth ++ ')' :: after))) after Q' :=
  Form.reads_enclosed (h.reads depth after rounds _ s hrounds
    ((skip_renderFields depth after fields).trans (skip_fieldsText h depth after)) hs)

/-- The name of a record is shown or left out. -/
theorem moves_recordName {shown : String} (hrecord : isPlainName recordType = true)
    (hshown : shown = "" ∨ shown = recordType) (text : List Char) :
    Moves (recordName recordType) (shown.toList ++ '(' :: text) () ('(' :: text) := by
  rcases hshown with rfl | rfl
  · exact (Moves.peek _).bind ((Moves.dialect _).bind (Moves.pure _ _))
  · obtain ⟨c, rest, hchars, hpart⟩ := exists_cons_of_isPlainName hrecord
    have hhead : (shown.toList ++ '(' :: text).head?.any isNamePart = true := by
      rw [hchars]
      exact hpart
    refine (Moves.peek _).bind ?_
    rw [if_pos hhead]
    refine (Moves.name hrecord (isDelimiter_of_mem_head? rfl _)).bind ?_
    rw [if_pos (beq_self_eq_true shown)]
    exact Moves.pure _ _

/-- **Records.**  A record is read back, two levels above its fields, if they are. -/
theorem FieldsRead.record_deep (h : FieldsRead known limit fields ns Q Q') {start : σ}
    (hstart : Q start) {shown : String} (hrecord : isPlainName recordType = true)
    (hshown : shown = "" ∨ shown = recordType) {f : σ → Reader β}
    (hf : ∀ s, Q' s → ∃ b, R b ∧ ∀ text, Moves (f s) text b text) :
    (Form.record shown fields).ReadBy (limit + 1) (group ns)
      (Reader.record recordType false known start >>= f) R := by
  refine ReadBy.bind_moves ⟨fun depth => ?_, fun depth after _ => ?_⟩ hf
  · rcases hshown with rfl | rfl
    · exact ⟨'(', _, rfl, rfl⟩
    · rw [render, List.append_assoc, List.append_assoc]
      exact opens_name hrecord _
  · have hlong := length_le_renderFields depth fields
    have hrender : (Form.record shown fields).render depth ++ after =
        shown.toList ++ '(' :: '\n' ::
          (renderFields depth fields ++ (margin depth ++ ')' :: after)) := by
      rw [render]
      simp
    rw [hrender]
    refine (moves_recordName hrecord hshown _).reads ?_
    refine (Moves.skipBlank (skip_cons rfl (by decide) _)).reads ((Moves.rest _).reads ?_)
    refine (h.reads_enclosed depth after hstart ?_).mono (Nat.le_succ _)
    rw [List.length_cons, List.length_cons, List.length_append]
    omega

theorem FieldsRead.record (h : FieldsRead known limit fields ns Q Q') {start : σ}
    (hstart : Q start) {shown : String} (hrecord : isPlainName recordType = true)
    (hshown : shown = "" ∨ shown = recordType) {f : σ → Reader β}
    (hf : ∀ s, Q' s → ∃ b, R b ∧ ∀ text, Moves (f s) text b text) :
    (Form.record shown fields).ReadBy limit (group ns)
      (Reader.record recordType false known start >>= f) R :=
  (h.record_deep hstart hrecord hshown hf).mono (Nat.le_succ limit)

end Records

/-! ## §7. Variants, optional values and texts -/

section Variants

variable {limit n : Nat} {key : String} {form : Form} {r : Reader α} {P : α → Prop}
  {f : String → Reader α} {a : α}

/-- The name of a variant is read first. -/
theorem reads_variant (hkey : isPlainName key = true) {text after : List Char}
    (htext : ∀ c ∈ text.head?, isDelimiter c = true) (h : Reads limit n (f key) text after P) :
    Reads limit (max 1 n + 1) (Reader.variant f) (key.toList ++ text) after P := by
  have hname : Reads (limit + 1) 1 (nested name) (key.toList ++ text) text (· = key) :=
    (Reads.of_moves (P := (· = key)) (Moves.name hkey htext) rfl).nested
  have hinside : Reads limit (max 1 n) (do skipBlank; f (← nested name)) (key.toList ++ text) after
      P := by
    refine (Moves.skipBlank (skip_name hkey text)).reads ((hname.mono (Nat.le_succ limit)).bind ?_)
    rintro _ rfl
    exact h
  exact hinside.nested.mono (Nat.le_succ limit)

/-- **Bare names.** -/
theorem readBy_word (hkey : isPlainName key = true) (hf : ∀ text, Moves (f key) text a text)
    (ha : P a) : (Form.word key).ReadBy limit 2 (Reader.variant f) P := by
  refine ⟨fun depth => ?_, fun depth after hafter => ?_⟩
  · have hopens := opens_name hkey []
    rwa [List.append_nil] at hopens
  · exact reads_variant hkey hafter.isDelimiter (Reads.of_moves (hf after) ha)

/-- A bare name of a table. -/
theorem readBy_named {named? : String → Option α} {what : String} (hkey : isPlainName key = true)
    (hnamed : named? key = some a) (ha : P a) :
    (Form.word key).ReadBy limit 2 (Reader.word named? what) P := by
  refine readBy_word hkey (fun text => ?_) ha
  simp only [hnamed]
  exact Moves.pure a text

/-- What a variant holds behind its name. -/
theorem ReadBy.payload {g : Bool → Reader α} (h : form.ReadBy limit n (g false) P) (depth : Nat)
    (after : List Char) :
    Reads limit (n + 1) (Reader.payload g) ('(' :: (form.render depth ++ ')' :: after)) after
      P := by
  refine (Moves.skipBlank (skip_cons rfl (by decide) _)).reads ((Moves.take '(' _ _).reads ?_)
  refine (Moves.skipBlank (h.skip_render depth _)).reads ((Moves.dialect _).reads ?_)
  have hvalue := (h.reads depth _ (ends_parenthesis after)).nested
  refine (hvalue.mono (Nat.le_succ limit)).bind_moves fun a ha => ⟨a, ha, ?_⟩
  refine (Moves.comma_of_ne (skip_cons rfl (by decide) _) (by simp)).bind ?_
  exact (Moves.take ')' after _).bind (Moves.pure _ _)

/-- **Variants.**  A variant is read back if the reader for its name reads its value. -/
theorem readBy_variant (hkey : isPlainName key = true)
    (hf : ∀ depth after, Reads limit (n + 1) (f key)
      ('(' :: (form.render depth ++ ')' :: after)) after P) :
    (Form.variant key form).ReadBy limit (n + 2) (Reader.variant f) P := by
  have hrender : ∀ depth text, (Form.variant key form).render depth ++ text =
      key.toList ++ '(' :: (form.render depth ++ ')' :: text) := by
    intro depth text
    rw [render]
    simp
  refine ⟨fun depth => ?_, fun depth after _ => ?_⟩
  · have hopens := opens_name hkey ('(' :: (form.render depth ++ ')' :: []))
    rwa [← hrender, List.append_nil] at hopens
  · have hreads := reads_variant hkey (isDelimiter_of_mem_head? rfl _) (hf depth after)
    rwa [Nat.max_eq_right (Nat.le_add_left 1 n), ← hrender] at hreads

/-- A variant that makes something of its value. -/
theorem ReadBy.variant {g : Bool → Reader β} {make : β → α} {Q : β → Prop}
    (h : form.ReadBy limit n (g false) Q) (hkey : isPlainName key = true)
    (hf : f key = do return make (← Reader.payload g)) (hmake : ∀ b, Q b → P (make b)) :
    (Form.variant key form).ReadBy limit (n + 2) (Reader.variant f) P := by
  refine readBy_variant hkey fun depth after => ?_
  rw [hf]
  exact (h.payload depth after).bind_moves fun b hb => ⟨make b, hmake b hb, Moves.pure _ _⟩

/-- **Texts.** -/
theorem readBy_text (s : String) : (Form.text s).ReadBy limit 0 Reader.text (· = s) := by
  have hrender : ∀ depth, (Form.text s).render depth = (Text.quoted s).toList := fun depth => by
    rw [Form.text, render]
  refine ⟨fun depth => ?_, fun depth after _ => ?_⟩
  · rw [hrender, Text.quoted, String.toList_ofList]
    exact ⟨'"', _, rfl, rfl⟩
  · rw [hrender]
    exact .of_moves (Moves.find (text?_quoted s after) _) rfl

/-- How deep an optional value goes. -/
def optionalLevels : Option String → Nat
  | none => 0
  | some _ => 1

/-- **Optional texts.** -/
theorem readBy_optionalText (o : Option String) :
    (Form.optionalText o).ReadBy limit (optionalLevels o) (optional Reader.text) (· = o) := by
  cases o with
  | none =>
    refine ⟨fun depth => ⟨'N', _, rfl, rfl⟩, fun depth after hafter => ?_⟩
    refine .of_moves ?_ rfl
    exact (Moves.word? "None" hafter.isDelimiter).bind (Moves.pure _ _)
  | some s =>
    have hrender : ∀ depth text, (Form.optionalText (some s)).render depth ++ text =
        "Some".toList ++ '(' :: ((Form.text s).render depth ++ ')' :: text) := by
      intro depth text
      rw [optionalText, render]
      simp
    refine ⟨fun depth => ?_, fun depth after _ => ?_⟩
    · rw [optionalText, render]
      exact ⟨'S', _, rfl, rfl⟩
    · have hs := @readBy_text limit s
      -- the reader tries the other word first
      have hnone : ∀ text, Moves (Reader.word? "None") ("Some".toList ++ '(' :: text) false
          ("Some".toList ++ '(' :: text) := fun text room supply => rfl
      rw [hrender]
      refine (hnone _).reads ?_
      refine (Moves.word? "Some" (isDelimiter_of_mem_head? rfl _)).reads ?_
      refine (Moves.skipBlank (skip_cons rfl (by decide) _)).reads ?_
      refine (Moves.take? '(' _).reads ?_
      refine (Moves.skipBlank (hs.skip_render depth _)).reads ?_
      refine ((hs.reads depth _ (ends_parenthesis after)).nested.mono
        (Nat.le_succ limit)).bind_moves ?_
      rintro _ rfl
      refine ⟨_, rfl, ?_⟩
      refine (Moves.comma_of_ne (skip_cons rfl (by decide) _) (by simp)).bind ?_
      exact (Moves.take ')' after _).bind (Moves.pure _ _)

/-- **Truth values.** -/
theorem readBy_bool (b : Bool) : (Form.bool b).ReadBy limit 0 Reader.bool (· = b) := by
  cases b with
  | true =>
    refine ⟨fun depth => ⟨'t', _, rfl, rfl⟩, fun depth after hafter => .of_moves ?_ rfl⟩
    exact (Moves.word? "true" hafter.isDelimiter).bind (Moves.pure _ _)
  | false =>
    -- the reader tries the other word first
    have htrue : ∀ text, Moves (Reader.word? "true") ("false".toList ++ text) false
        ("false".toList ++ text) := fun text room supply => rfl
    refine ⟨fun depth => ⟨'f', _, rfl, rfl⟩, fun depth after hafter => .of_moves ?_ rfl⟩
    exact (htrue after).bind ((Moves.word? "false" hafter.isDelimiter).bind (Moves.pure _ _))

end Variants

/-! ## §8. Whole texts -/

/-- A text that does not begin with options has none. -/
theorem moves_header {text : List Char} (h : text.head? ≠ some '#') (rounds : Nat) :
    Moves (header rounds {}) text {} text := by
  cases rounds with
  | zero => exact Moves.pure _ _
  | succ rounds =>
    have hne : (text.head? != some '#') = true := by simpa using h
    refine (Moves.peek text).bind ?_
    rw [if_pos hne]
    exact Moves.pure _ _

/-- **Whole texts.**  A text that holds one value is read, unless the value nests too deeply. -/
theorem ReadBy.readAll {form : Form} {n : Nat} {r : Reader α} {P : α → Prop}
    (h : form.ReadBy nestingLimit n r P) (hoptions : (form.render 0).head? ≠ some '#')
    (supply : Supply) :
    (n ≤ nestingLimit → ∃ a rest, P a ∧ Reader.readAll r form.pretty supply = .ok (a, rest)) ∧
      (nestingLimit < n → Reader.readAll r form.pretty supply = .error .tooDeep) := by
  have hskip : skip .blanks (form.render 0) = .ok (form.render 0) := by
    have hskip := h.skip_render 0 []
    rwa [List.append_nil] at hskip
  -- there are no options in front of the value and nothing but the end behind it
  have hstart : Moves (do skipBlank; header (← Reader.rest).length {}) (form.render 0) {}
      (form.render 0) :=
    (Moves.skipBlank hskip).bind ((Moves.rest _).bind (moves_header hoptions _))
  have hwhole : Reads nestingLimit n (do
      let a ← r
      skipBlank
      if (← Reader.rest).isEmpty then pure a else expected "the end of the text")
      (form.render 0) [] P := by
    have hreads := h.reads 0 [] nofun
    rw [List.append_nil] at hreads
    refine hreads.bind_moves fun a ha => ⟨a, ha, ?_⟩
    exact (Moves.skipBlank rfl).bind ((Moves.rest []).bind (Moves.pure a []))
  obtain ⟨hfits, hdeep⟩ := hwhole nestingLimit supply (Nat.le_refl _)
  rw [Reader.readAll, pretty, String.toList_ofList]
  simp only [hstart nestingLimit supply]
  constructor
  · intro hn
    obtain ⟨a, supply', ha, hr⟩ := hfits hn
    exact ⟨a, supply', ha, by rw [hr]; rfl⟩
  · intro hn
    rw [hdeep hn]
    rfl

end Form

end ShaderFlow
