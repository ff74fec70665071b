/-
  ShaderFlow.Proofs.JsonTokens — strings and numbers in JSON text are read back.

  A string is read back character by character: each is written by a letter behind a backslash,
  by its number or as itself, and the three forms begin differently.  A number is read back by
  its parts, which are digits, digits behind a point and a power of ten; all three layouts of a
  number are made of these.  Behind a value stands nothing, a comma or a new line, and no number
  goes on with one of these.

  Main definitions:
    * `Json.Number.Plain`  — numbers in forms that are written;
    * `Json.Number.asRead` — a number as it is read;
    * `Json.Spelling`      — a number by its parts.

  Main statements:
    * `Json.Scan.string?_quoted`    — strings;
    * `Json.Number.value_asRead`    — reading keeps the value of a number;
    * `Json.Number.exists_spelling` — the parts of the text of a number;
    * `Json.Scan.number_text`       — numbers.
-/

import ShaderFlow.Json.Reader
import ShaderFlow.Proofs.Numerals

namespace ShaderFlow

namespace Json

/-! ## §1. Scanning -/

namespace Scan

variable {α β : Type} {x : Scan α} {a : α} {text rest after : List Char}

theorem bind_eq (h : x text = some (a, rest)) (f : α → Scan β) : (x >>= f) text = f a rest := by
  show (x text).bind (fun p => f p.1 p.2) = _
  rw [h]
  rfl

theorem map_eq (h : x text = some (a, rest)) (f : α → β) :
    (f <$> x) text = some (f a, rest) := by
  show (x text).bind (fun p => some (f p.1, p.2)) = _
  rw [h]
  rfl

theorem get_eq (text : List Char) : (get : Scan (List Char)) text = some (text, text) := rfl

theorem take?_cons (c : Char) (rest : List Char) : take? c (c :: rest) = some (true, rest) := by
  simp [take?]

theorem take?_of_ne {c : Char} (h : text.head? ≠ some c) : take? c text = some (false, text) := by
  cases text with
  | nil => rfl
  | cons d rest =>
    have hne : d ≠ c := fun heq => h (congrArg some heq)
    simp [take?, hne]

theorem expect_append (word rest : List Char) : expect word (word ++ rest) = some ((), rest) := by
  rw [expect, if_pos (List.isPrefixOf_iff_prefix.mpr (List.prefix_append word rest)),
    List.drop_left]

theorem dropWhile_of_head {p : Char → Bool} (h : ∀ c ∈ text.head?, p c = false) :
    text.dropWhile p = text := by
  cases text with
  | nil => rfl
  | cons c text => exact List.dropWhile_cons_of_neg (by simp [h c rfl])

theorem blanks_of_head (h : ∀ c ∈ text.head?, isBlank c = false) :
    blanks text = some ((), text) := by
  rw [blanks, dropWhile_of_head h]

/-- White space is skipped up to what is none. -/
theorem blanks_append {pad : List Char} (hpad : ∀ c ∈ pad, isBlank c = true)
    (h : ∀ c ∈ text.head?, isBlank c = false) : blanks (pad ++ text) = some ((), text) := by
  rw [blanks, List.dropWhile_append_of_pos hpad, dropWhile_of_head h]

theorem isBlank_of_mem_newline {depth : Nat} {c : Char} (h : c ∈ newline depth) :
    isBlank c = true := by
  obtain rfl | h := List.mem_cons.mp h
  · rfl
  · rw [List.eq_of_mem_replicate h]
    rfl

/-- Whether a text may stand behind a value: it is empty or goes on with a comma or a new
    line. -/
def Ends (after : List Char) : Prop := ∀ c ∈ after.head?, c = ',' ∨ c = '\n'

theorem Ends.eq_false (hafter : Ends after) {p : Char → Bool}
    (hp : p ',' = false ∧ p '\n' = false) : ∀ c ∈ after.head?, p c = false := by
  intro c hc
  rcases hafter c hc with rfl | rfl
  · exact hp.1
  · exact hp.2

theorem Ends.head_ne (hafter : Ends after) {c : Char} (hc : c ≠ ',' ∧ c ≠ '\n') :
    after.head? ≠ some c := by
  intro hhead
  rcases hafter c hhead with rfl | rfl
  · exact hc.1 rfl
  · exact hc.2 rfl

/-! ## §2. Strings -/

/-- A letter behind a backslash. -/
theorem escaped_letter {c letter : Char} (h : escapeLetter c = some letter) :
    escaped (letter :: after) = some (c, after) := by
  unfold escapeLetter at h
  split at h <;> cases h <;> rfl

/-- Four digits are read as their value. -/
theorem unit_append {ds : List Char} {vs : List Nat} (hlength : ds.length = 4)
    (hds : ds.mapM hexDigit? = some vs) :
    unit (ds ++ after) = some (vs.foldl (fun n d => 16 * n + d) 0, after) := by
  match ds, hlength with
  | [a, b, c, d], _ =>
    show ([a, b, c, d].mapM hexDigit? >>= _) = _
    rw [hds]
    rfl

/-- A control by its number. -/
theorem escaped_numbered {c : Char} (hc : isControl c = true) :
    ∃ ds, numbered c = '\\' :: 'u' :: ds ∧ escaped ('u' :: (ds ++ after)) = some (c, after) := by
  have hcontrols : ∀ n < 0x20, ((numbered (Char.ofNat n)).drop 2).length = 4 ∧
      (((numbered (Char.ofNat n)).drop 2).mapM hexDigit?).map
        (List.foldl (fun n d => 16 * n + d) 0) = some n := by decide +kernel
  have hlow : c.toNat < 0x20 := of_decide_eq_true hc
  obtain ⟨hlength, hvalue⟩ := hcontrols c.toNat hlow
  rw [Char.ofNat_toNat] at hlength hvalue
  obtain ⟨vs, hvs, hfold⟩ := Option.map_eq_some_iff.mp hvalue
  refine ⟨(numbered c).drop 2, rfl, ?_⟩
  show numberedChar ((numbered c).drop 2 ++ after) = _
  -- a control is no half of a pair of units
  rw [numberedChar, bind_eq (unit_append hlength hvs), hfold, if_neg (by omega), if_neg (by omega),
    Char.ofNat_toNat]
  rfl

/-- **One character.**  It is read back from its form inside quotes. -/
theorem stringRest_escape (c : Char) (rounds : Nat) (acc after : List Char) :
    stringRest (rounds + 1) acc (escape c ++ after) = stringRest rounds (c :: acc) after := by
  cases hletter : escapeLetter c with
  | some letter =>
    simp only [escape, hletter]
    show (escaped >>= fun c => stringRest rounds (c :: acc)) (letter :: after) = _
    rw [bind_eq (escaped_letter hletter)]
  | none =>
    cases hcontrol : isControl c with
    | true =>
      obtain ⟨ds, hnumbered, hescaped⟩ := @escaped_numbered after c hcontrol
      simp only [escape, hletter, hcontrol, if_true, hnumbered]
      show (escaped >>= fun c => stringRest rounds (c :: acc)) ('u' :: (ds ++ after)) = _
      rw [bind_eq hescaped]
    | false =>
      have hquote : c ≠ '"' := by
        rintro rfl
        cases hletter
      have hslash : c ≠ '\\' := by
        rintro rfl
        cases hletter
      simp only [escape, hletter, hcontrol]
      show stringRest (rounds + 1) acc (c :: after) = _
      rw [stringRest, bind_eq (rfl : next (c :: after) = some (c, after))]
      split
      next => exact absurd rfl hquote
      next => exact absurd rfl hslash
      next => rw [hcontrol]; rfl

theorem stringRest_flatMap_escape (after : List Char) :
    ∀ (cs : List Char) (rounds : Nat) (acc : List Char), cs.length < rounds →
      stringRest rounds acc (cs.flatMap escape ++ '"' :: after) =
        some (String.ofList (acc.reverse ++ cs), after)
  | [], rounds + 1, acc, _ => by
    rw [List.append_nil]
    rfl
  | c :: cs, rounds + 1, acc, h => by
    rw [List.flatMap_cons, List.append_assoc, stringRest_escape,
      stringRest_flatMap_escape after cs rounds _ (Nat.lt_of_succ_lt_succ h), List.reverse_cons,
      List.append_assoc, List.singleton_append]

theorem length_le_flatMap_escape (cs : List Char) : cs.length ≤ (cs.flatMap escape).length := by
  have hpos : ∀ c, 0 < (escape c).length := by
    intro c
    rw [escape]
    split
    · exact Nat.succ_pos _
    · split <;> exact Nat.succ_pos _
  induction cs with
  | nil => exact Nat.le_refl 0
  | cons c cs ih =>
    have hc := hpos c
    rw [List.flatMap_cons, List.length_append, List.length_cons]
    omega

/-- **Strings.**  Between its quotes every text is read back. -/
theorem string?_quoted (s : String) (after : List Char) :
    string? (quoted s ++ after) = some (s, after) := by
  have hquoted : quoted s ++ after = ['"'] ++ (s.toList.flatMap escape ++ '"' :: after) := by
    rw [quoted]
    simp
  have hrounds : s.toList.length < (s.toList.flatMap escape ++ '"' :: after).length := by
    have hle := length_le_flatMap_escape s.toList
    rw [List.length_append, List.length_cons]
    omega
  rw [hquoted, string?, bind_eq (expect_append _ _)]
  show stringRest _ [] _ = _
  rw [stringRest_flatMap_escape after _ _ _ hrounds]
  exact congrArg (fun t => some (t, after)) String.ofList_toList

end Scan

/-! ## §3. Numbers by their parts -/

/-- A number by its parts. -/
structure Spelling where
  negative : Bool
  /-- The digits in front of the point. -/
  whole : List Char
  /-- The digits behind the point, if there is one. -/
  fraction : Option (List Char)
  /-- The power of ten, if there is one. -/
  power : Option Int

namespace Spelling

/-- The point with the digits behind it. -/
def fractionText (fraction : Option (List Char)) : List Char := fraction.elim [] ('.' :: ·)

/-- The power of ten as it is written. -/
def powerText (power : Option Int) : List Char :=
  power.elim [] fun e => 'e' :: Layout.exponentText true e

/-- The parts of a number one behind the other. -/
def text (s : Spelling) : List Char :=
  (if s.negative then ['-'] else []) ++ s.whole ++ fractionText s.fraction ++ powerText s.power

/-- The number that the parts stand for. -/
def number (s : Spelling) : Number where
  negative := s.negative
  decimal :=
    ⟨Nat.ofDigitChars 10 (s.whole ++ s.fraction.getD []) 0,
      s.power.getD 0 - (s.fraction.getD []).length⟩
  whole := s.fraction.isNone && s.power.isNone

/-- Whether the parts make a number: there are digits on both sides of a point, and no zero
    stands in front of another digit. -/
structure Valid (s : Spelling) : Prop where
  isDigit : ∀ c ∈ s.whole ++ s.fraction.getD [], c.isDigit = true
  ne_nil : s.whole ≠ []
  lead : s.whole.head? = some '0' → s.whole = ['0']
  behind : s.fraction ≠ some []

end Spelling

namespace Scan

variable {text rest after : List Char}

theorem digits_append {ds : List Char} (hds : ∀ c ∈ ds, c.isDigit = true) (hne : ds ≠ [])
    (hrest : ∀ c ∈ rest.head?, c.isDigit = false) : digits (ds ++ rest) = some (ds, rest) := by
  have hnone : rest.takeWhile Char.isDigit = [] := by
    cases rest with
    | nil => rfl
    | cons c rest => exact List.takeWhile_cons_of_neg (by simp [hrest c rfl])
  have htaken : (ds ++ rest).takeWhile Char.isDigit = ds := by
    rw [List.takeWhile_append_of_pos hds, hnone, List.append_nil]
  rw [digits]
  simp only [htaken, List.drop_left]
  exact if_neg (by simpa using hne)

theorem wholeDigits_append {ds : List Char} (hds : ∀ c ∈ ds, c.isDigit = true) (hne : ds ≠ [])
    (hlead : ds.head? = some '0' → ds = ['0']) (hrest : ∀ c ∈ rest.head?, c.isDigit = false) :
    wholeDigits (ds ++ rest) = some (ds, rest) := by
  rw [wholeDigits, bind_eq (digits_append hds hne hrest), if_neg]
  · rfl
  · intro hzero
    rw [Bool.and_eq_true, beq_iff_eq, decide_eq_true_eq] at hzero
    have hlength := congrArg List.length (hlead hzero.1)
    exact absurd hzero.2 (by rw [hlength]; decide)

theorem fraction_append {ds : Option (List Char)} (hds : ∀ c ∈ ds.getD [], c.isDigit = true)
    (hne : ds ≠ some []) (hdigit : ∀ c ∈ rest.head?, c.isDigit = false)
    (hpoint : rest.head? ≠ some '.') :
    fraction (Spelling.fractionText ds ++ rest) = some (ds, rest) := by
  cases ds with
  | none =>
    show fraction rest = _
    rw [fraction, bind_eq (take?_of_ne hpoint)]
    rfl
  | some ds =>
    show fraction ('.' :: (ds ++ rest)) = _
    rw [fraction, bind_eq (take?_cons '.' (ds ++ rest))]
    exact map_eq (digits_append hds (fun hnil => hne (congrArg some hnil)) hdigit) some

/-- The digits of a natural number are read as the number. -/
theorem digits_digitsOf (n : Nat) (hafter : Ends after) :
    digits (Layout.digitsOf n ++ after) = some (Layout.digitsOf n, after) :=
  digits_append (fun _ => Form.isDigit_of_mem_toDigits) (Form.Spells.digitsOf_ne_nil n)
    (hafter.eq_false ⟨rfl, rfl⟩)

theorem valueOf_digitsOf (n : Nat) : valueOf (Layout.digitsOf n) = n :=
  Nat.ofDigitChars_ten_toDigits

theorem takeEither_of_ne {x y : Char} (hx : text.head? ≠ some x) (hy : text.head? ≠ some y) :
    takeEither x y text = some (false, text) := by
  rw [takeEither, bind_eq (take?_of_ne hx)]
  exact take?_of_ne hy

theorem power_append (e : Option Int) (hafter : Ends after) :
    power (Spelling.powerText e ++ after) = some (e, after) := by
  cases e with
  | none =>
    show power after = _
    rw [power, bind_eq (takeEither_of_ne (hafter.head_ne (by decide)) (hafter.head_ne (by decide)))]
    rfl
  | some e =>
    -- a power of ten shows its sign, whatever it is
    have hsign : powerSign (Layout.exponentText true e ++ after) =
        some (decide (e < 0), Layout.digitsOf e.natAbs ++ after) := by
      rw [Layout.exponentText]
      by_cases hneg : e < 0
      · rw [if_pos hneg, decide_eq_true hneg]
        rfl
      · rw [if_neg hneg, decide_eq_false hneg]
        rfl
    have hvalue : (if decide (e < 0) = true then -(e.natAbs : Int) else e.natAbs) = e := by
      simp only [decide_eq_true_eq]
      split <;> omega
    show power ('e' :: (Layout.exponentText true e ++ after)) = _
    rw [power, bind_eq (rfl : takeEither 'e' 'E' ('e' :: _) = some (true, _)), if_pos rfl,
      bind_eq hsign, bind_eq (digits_digitsOf e.natAbs hafter), valueOf_digitsOf, hvalue]
    rfl

/-- What stands behind the digits in front of the point is no digit. -/
theorem head_fractionText (s : Spelling) (hafter : Ends after) :
    ∀ c ∈ (Spelling.fractionText s.fraction ++ (Spelling.powerText s.power ++ after)).head?,
      c.isDigit = false := by
  obtain ⟨negative, whole, fraction, power⟩ := s
  cases fraction with
  | some ds =>
    rintro _ ⟨⟩
    rfl
  | none =>
    cases power with
    | some e =>
      rintro _ ⟨⟩
      rfl
    | none => exact hafter.eq_false ⟨rfl, rfl⟩

/-- **Numbers by their parts.** -/
theorem number_spelling {s : Spelling} (h : s.Valid) (hafter : Ends after) :
    number (s.text ++ after) = some (s.number, after) := by
  have hwhole : ∀ c ∈ s.whole, c.isDigit = true := fun c hc =>
    h.isDigit c (List.mem_append_left _ hc)
  have hbehind : ∀ c ∈ s.fraction.getD [], c.isDigit = true := fun c hc =>
    h.isDigit c (List.mem_append_right _ hc)
  have hpower : ∀ c ∈ (Spelling.powerText s.power ++ after).head?, c.isDigit = false ∧ c ≠ '.' := by
    cases s.power with
    | some e =>
      rintro _ ⟨⟩
      decide
    | none =>
      intro c hc
      rcases hafter c hc with rfl | rfl
      · decide
      · decide
  have hsign : take? '-' (s.text ++ after) = some (s.negative, s.whole ++
      (Spelling.fractionText s.fraction ++ (Spelling.powerText s.power ++ after))) := by
    rw [Spelling.text, List.append_assoc, List.append_assoc, List.append_assoc]
    cases s.negative with
    | true => exact take?_cons '-' _
    | false =>
      -- without a sign a digit comes first
      obtain ⟨c, cs, hcons⟩ := List.exists_cons_of_ne_nil h.ne_nil
      have hc := hwhole c (hcons ▸ List.mem_cons_self)
      refine take?_of_ne ?_
      rw [hcons]
      rintro ⟨⟩
      cases hc
  rw [number, bind_eq hsign,
    bind_eq (wholeDigits_append hwhole h.ne_nil h.lead (head_fractionText s hafter)),
    bind_eq (fraction_append hbehind h.behind (fun c hc => (hpower c hc).1)
      fun hhead => (hpower '.' hhead).2 rfl),
    bind_eq (power_append s.power hafter)]
  rfl

end Scan

/-! ## §4. Numbers -/

/-- Whether a number has a form that is written: an integer has no power of ten, and zero none
    that would put another zero in front of its point. -/
structure Number.Plain (n : Number) : Prop where
  whole : n.whole = true → n.decimal.exponent = 0
  zero : n.decimal.digits = 0 → n.decimal.exponent ≤ 0

/-- A number as it is read: in positional form it has the digits that it is spelt with. -/
def Number.asRead (n : Number) : Number :=
  if n.whole = false ∧ Layout.json.isPlain n.decimal = true then
    { n with decimal := n.decimal.spelt }
  else n

/-- The number that is read has the value of the one that was written. -/
theorem Number.value_asRead (n : Number) : n.asRead.decimal.value = n.decimal.value := by
  rw [asRead]
  split
  next => exact n.decimal.value_spelt
  next => rfl

namespace Number

variable {negative : Bool} {digits : Nat} {exponent : Int}

/-- An integer is spelt by its digits. -/
theorem exists_spelling_of_whole (h : Number.Plain ⟨negative, ⟨digits, exponent⟩, true⟩) :
    ∃ s : Spelling, s.Valid ∧ s.text = Number.text ⟨negative, ⟨digits, exponent⟩, true⟩ ∧
      s.number = Number.asRead ⟨negative, ⟨digits, exponent⟩, true⟩ := by
  have hexponent : exponent = 0 := h.whole rfl
  subst hexponent
  refine ⟨⟨negative, Layout.digitsOf digits, none, none⟩, ⟨?_, ?_, ?_, ?_⟩, ?_, ?_⟩
  · intro c hc
    rw [Option.getD_none, List.append_nil] at hc
    exact Form.isDigit_of_mem_toDigits hc
  · exact Form.Spells.digitsOf_ne_nil digits
  · exact fun hlead => (Form.Spells.digitsOf_of_head digits hlead).2
  · rintro ⟨⟩
  · rw [Spelling.text, text, if_pos rfl]
    simp [Spelling.fractionText, Spelling.powerText, Layout.digitsOf]
  · rw [Spelling.number, asRead, if_neg (by simp)]
    simp [Form.Spells.ofDigitChars_digitsOf]

/-- The text of a number that is not whole. -/
theorem text_of_not_whole : Number.text ⟨negative, ⟨digits, exponent⟩, false⟩ =
    (if negative then ['-'] else []) ++
      (if Layout.json.isPlain ⟨digits, exponent⟩ then Layout.positional ⟨digits, exponent⟩
        else Layout.scientific true ⟨digits, exponent⟩) := by
  rw [text, if_neg (by simp), Layout.write, String.toList_ofList]
  cases negative <;> rfl

/-- In positional form a point stands between the digits. -/
theorem exists_spelling_of_isPlain (h : Number.Plain ⟨negative, ⟨digits, exponent⟩, false⟩)
    (hplain : Layout.json.isPlain ⟨digits, exponent⟩ = true) :
    ∃ s : Spelling, s.Valid ∧ s.text = Number.text ⟨negative, ⟨digits, exponent⟩, false⟩ ∧
      s.number = Number.asRead ⟨negative, ⟨digits, exponent⟩, false⟩ := by
  obtain ⟨front, behind, hpositional, hspells⟩ := Form.exists_positional ⟨digits, exponent⟩
  have hspelt := hspells.spelt_eq
  rw [Form.ofDigits_eq] at hspelt
  refine ⟨⟨negative, front, some behind, none⟩, ⟨hspells.isDigit, hspells.ne_nil, ?_, ?_⟩, ?_, ?_⟩
  · intro hlead
    refine (hspells.lead hlead).resolve_right ?_
    rintro ⟨hzero, hpos⟩
    exact absurd (h.zero hzero) (Int.not_le.mpr hpos)
  · exact fun hnil => hspells.behind_ne_nil (Option.some.inj hnil)
  · rw [text_of_not_whole, if_pos hplain, hpositional]
    simp [Spelling.text, Spelling.fractionText, Spelling.powerText]
  · rw [Spelling.number, asRead, if_pos ⟨rfl, hplain⟩, ← hspelt]
    rfl

/-- In scientific form the point, if there is one, stands behind the first digit. -/
theorem exists_spelling_of_not_isPlain (hplain : Layout.json.isPlain ⟨digits, exponent⟩ = false) :
    ∃ s : Spelling, s.Valid ∧ s.text = Number.text ⟨negative, ⟨digits, exponent⟩, false⟩ ∧
      s.number = Number.asRead ⟨negative, ⟨digits, exponent⟩, false⟩ := by
  -- zero is written in positional form, so the first digit is none
  have hdigits : digits ≠ 0 := by
    rintro rfl
    cases hplain
  obtain ⟨c, cs, hcons, -⟩ := Form.exists_cons_toDigits digits
  have hlead : [c].head? ≠ some '0' := fun hlead =>
    hdigits (Form.eq_zero_of_head_toDigits digits (by rw [hcons]; exact hlead))
  have hall : ∀ d ∈ c :: cs, d.isDigit = true :=
    fun d hd => Form.isDigit_of_mem_toDigits (hcons ▸ hd)
  have hvalue : Nat.ofDigitChars 10 (c :: cs) 0 = digits := by
    rw [← hcons]
    exact Nat.ofDigitChars_ten_toDigits
  have hread : Number.asRead ⟨negative, ⟨digits, exponent⟩, false⟩ =
      ⟨negative, ⟨digits, exponent⟩, false⟩ := if_neg (by simp [hplain])
  have htext : Number.text ⟨negative, ⟨digits, exponent⟩, false⟩ =
      (if negative then ['-'] else []) ++ Layout.scientific true ⟨digits, exponent⟩ := by
    rw [text_of_not_whole, hplain]
    rfl
  rw [htext, hread, Layout.scientific, Layout.digitsOf, hcons]
  cases cs with
  | nil =>
    refine ⟨⟨negative, [c], none, some exponent⟩, ⟨hall, List.cons_ne_nil _ _,
      fun h => absurd h hlead, by rintro ⟨⟩⟩, ?_, ?_⟩
    · simp [Spelling.text, Spelling.fractionText, Spelling.powerText]
    · simp [Spelling.number, hvalue]
  | cons d ds =>
    refine ⟨⟨negative, [c], some (d :: ds), some ((ds.length + 1 : Nat) + exponent)⟩,
      ⟨hall, List.cons_ne_nil _ _, fun h => absurd h hlead, by rintro ⟨⟩⟩, ?_, ?_⟩
    · simp [Spelling.text, Spelling.fractionText, Spelling.powerText]
    · simp [Spelling.number, hvalue]

/-- **Forms of numbers.**  Integers, positional form and scientific form are spelt by parts that
    stand for the number that is read. -/
theorem exists_spelling {n : Number} (h : n.Plain) :
    ∃ s : Spelling, s.Valid ∧ s.text = n.text ∧ s.number = n.asRead := by
  obtain ⟨negative, ⟨digits, exponent⟩, whole⟩ := n
  cases whole with
  | true => exact exists_spelling_of_whole h
  | false =>
    cases hplain : Layout.json.isPlain ⟨digits, exponent⟩ with
    | true => exact exists_spelling_of_isPlain h hplain
    | false => exact exists_spelling_of_not_isPlain hplain

end Number

/-- **Numbers.** -/
theorem Scan.number_text {n : Number} {after : List Char} (h : n.Plain) (hafter : Scan.Ends after) :
    Scan.number (n.text ++ after) = some (n.asRead, after) := by
  obtain ⟨s, hvalid, htext, hnumber⟩ := Number.exists_spelling h
  rw [← htext, ← hnumber]
  exact Scan.number_spelling hvalid hafter

end Json

end ShaderFlow
