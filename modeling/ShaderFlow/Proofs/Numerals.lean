/-
  ShaderFlow.Proofs.Numerals — numbers are read back.

  The digits of an integer are read as the integer: no sign, base or suffix can be seen in them,
  and what is spelt never exceeds the number itself, so it stays in the range of the type.  The
  digits of a float are read as a decimal with the value that was written, which rounds to the
  float.

  Main statements:
    * `Form.readBy_int`         — integers in the range of a type;
    * `Form.exists_positional`  — what a decimal spells in positional form;
    * `Form.readBy_float`       — all floats that are numbers.
-/

import ShaderFlow.Markup.Scalars
import ShaderFlow.Proofs.Reading
import ShaderFlow.Proofs.Rounding

namespace ShaderFlow.Form

open Reader

variable {limit : Nat} {after : List Char}

/-! ## §1. Digits -/

/-- The digits of a number. -/
theorem isDigit_of_mem_toDigits {n : Nat} {c : Char} (h : c ∈ Nat.toDigits 10 n) :
    c.isDigit = true :=
  Nat.isDigit_of_mem_toDigits (by decide) (by decide) h

theorem exists_cons_toDigits (n : Nat) :
    ∃ c cs, Nat.toDigits 10 n = c :: cs ∧ c.isDigit = true := by
  have hpos : 0 < (Nat.toDigits 10 n).length := Nat.length_toDigits_pos
  obtain ⟨c, cs, hdigits⟩ := List.exists_cons_of_length_pos hpos
  exact ⟨c, cs, hdigits, isDigit_of_mem_toDigits (hdigits ▸ List.mem_cons_self)⟩

theorem hexValue?_of_isDigit {c : Char} (h : c.isDigit = true) :
    hexValue? c = some (c.toNat - '0'.toNat) := by
  rw [hexValue?, if_pos h]

theorem value_lt_of_isDigit {c : Char} (h : c.isDigit = true) : c.toNat - '0'.toNat < 10 := by
  have hlast : c.toNat ≤ '9'.toNat := by
    simp only [Char.isDigit, Bool.and_eq_true, decide_eq_true_eq] at h
    exact h.2
  have hnine : '9'.toNat = '0'.toNat + 9 := rfl
  omega

theorem isIntegerChar_of_isDigit {c : Char} (h : c.isDigit = true) : isIntegerChar c = true := by
  rw [isIntegerChar, hexValue?_of_isDigit h]
  rfl

/-- What has been read is never more than what the remaining digits make of it. -/
theorem le_ofDigitChars (ds : List Char) : ∀ n : Nat, n ≤ Nat.ofDigitChars 10 ds n := by
  induction ds with
  | nil => exact fun n => Nat.le_refl n
  | cons c ds ih =>
    intro n
    have hstep := ih (10 * n + (c.toNat - '0'.toNat))
    show n ≤ Nat.ofDigitChars 10 ds (10 * n + (c.toNat - '0'.toNat))
    omega

/-- Decimal digits spell their number, if that is in range. -/
theorem spell_digits {most : Nat} :
    ∀ (ds : List Char) (n : Nat), (∀ c ∈ ds, c.isDigit = true) →
      Nat.ofDigitChars 10 ds n ≤ most →
        spell 10 most after n ds = .ok (Nat.ofDigitChars 10 ds n)
  | [], n, _, _ => rfl
  | c :: ds, n, hds, hmost => by
    have hc := hds c List.mem_cons_self
    have hle := le_ofDigitChars ds (10 * n + (c.toNat - '0'.toNat))
    have hmost : Nat.ofDigitChars 10 ds (10 * n + (c.toNat - '0'.toNat)) ≤ most := hmost
    have hlow := value_lt_of_isDigit hc
    have hcomm : n * 10 + (c.toNat - '0'.toNat) = 10 * n + (c.toNat - '0'.toNat) := by omega
    rw [spell, hexValue?_of_isDigit hc]
    simp only
    -- neither the shift nor the digit exceeds the most, since the whole number does not
    rw [if_neg (by omega), if_neg (by omega), if_neg (by omega), hcomm]
    exact spell_digits ds _ (fun d hd => hds d (List.mem_cons_of_mem c hd)) hmost

/-! ## §2. Integers -/

theorem toList_int (n : Int) :
    (toString n).toList = (if n < 0 then ['-'] else []) ++ Nat.toDigits 10 n.natAbs := by
  cases n with
  | ofNat n =>
    show (toString n).toList = _
    rw [Nat.toString_eq_repr, Nat.toList_repr]
    rfl
  | negSucc n =>
    show ("-" ++ toString (n + 1)).toList = _
    rw [String.toList_append, Nat.toString_eq_repr, Nat.toList_repr, if_pos (Int.negSucc_lt_zero n)]
    rfl

/-- A digit is no sign. -/
theorem sign_of_isDigit {c : Char} {text : List Char} (hc : c.isDigit = true) :
    Numeral.sign (c :: text) = (false, c :: text) := by
  unfold Numeral.sign
  split
  next heq => cases heq; cases hc
  next heq => cases heq; cases hc
  next => rfl

/-- A sign is taken off the digits. -/
theorem sign_digits (n : Int) (text : List Char) :
    Numeral.sign ((toString n).toList ++ text) =
      (decide (n < 0), Nat.toDigits 10 n.natAbs ++ text) := by
  obtain ⟨c, cs, hdigits, hc⟩ := exists_cons_toDigits n.natAbs
  rw [toList_int]
  by_cases hneg : n < 0
  · simp only [hneg, if_true, decide_true]
    rfl
  · simp only [hneg, if_false, decide_false, List.nil_append, hdigits, List.cons_append]
    exact sign_of_isDigit hc

/-- Up to where a value ends digits are followed by digits. -/
theorem ne_of_not_isDigit {ds rest : List Char} (hds : ∀ c ∈ ds, c.isDigit = true)
    (hafter : Ends after) {x y : Char} (hx : x ≠ ',' ∧ x ≠ ')') (hy : y.isDigit = false)
    (hends : y ≠ ',' ∧ y ≠ ')') : ds ++ after ≠ x :: y :: rest := by
  intro heq
  -- the mark is behind the digits, right after the first one, or among them
  rcases ds with _ | ⟨c, _ | ⟨c', ds⟩⟩
  · rcases hafter x (congrArg List.head? heq) with h | h
    · exact hx.1 h
    · exact hx.2 h
  · rcases hafter y (congrArg List.head? (List.cons.inj heq).2) with h | h
    · exact hends.1 h
    · exact hends.2 h
  · have hdigit := hds c' (List.mem_cons_of_mem c List.mem_cons_self)
    rw [(List.cons.inj (List.cons.inj heq).2).1, hy] at hdigit
    cases hdigit

/-- Digits in front of what ends a value show no base. -/
theorem base_digits {ds : List Char} (hds : ∀ c ∈ ds, c.isDigit = true) (hafter : Ends after) :
    base (ds ++ after) = (10, ds ++ after) := by
  have hne := @ne_of_not_isDigit after ds
  unfold base
  split
  next heq => exact absurd heq (hne hds hafter (by decide) rfl (by decide))
  next heq => exact absurd heq (hne hds hafter (by decide) rfl (by decide))
  next heq => exact absurd heq (hne hds hafter (by decide) rfl (by decide))
  next => rfl

/-- What ends a value stops both integers and floats, and is no suffix of either. -/
theorem takeWhile_digits {part : Char → Bool} {ds : List Char} (hds : ∀ c ∈ ds, part c = true)
    (hends : part ',' = false ∧ part ')' = false) (hafter : Ends after) :
    (ds ++ after).takeWhile part = ds := by
  rw [List.takeWhile_append_of_pos hds]
  cases after with
  | nil => simp
  | cons c after =>
    rcases hafter c rfl with rfl | rfl
    · simp [hends.1]
    · simp [hends.2]

/-- A word does not come next where its first character does not. -/
theorem startsWord_of_ne {c : Char} {word : String} {text : List Char}
    (hword : word.toList.head? = some c) (htext : text.head? ≠ some c) :
    startsWord word text = false := by
  obtain ⟨cs, hchars⟩ := List.head?_eq_some_iff.mp hword
  cases text with
  | nil => simp [startsWord, hchars]
  | cons d text =>
    have hne : c ≠ d := fun heq => htext (congrArg some heq.symm)
    simp [startsWord, hchars, hne]

theorem startsWord_of_ends {c : Char} {word : String} (hword : word.toList.head? = some c)
    (hc : c ≠ ',' ∧ c ≠ ')') (hafter : Ends after) : startsWord word after = false :=
  startsWord_of_ne hword fun hhead => (hafter c hhead).elim hc.1 hc.2

/-- No type of integers is named behind them. -/
theorem find?_suffix (hafter : Ends after) :
    (IntegerType.all.find? fun t => startsWord t.suffix after) = none := by
  have hsuffix : ∀ t ∈ IntegerType.all,
      t.suffix.toList.head? = some 'i' ∨ t.suffix.toList.head? = some 'u' := by decide
  rw [List.find?_eq_none]
  intro t ht
  rcases hsuffix t ht with h | h
  · rw [startsWord_of_ends h (by decide) hafter]
    decide
  · rw [startsWord_of_ends h (by decide) hafter]
    decide

theorem isNamePart_of_isDigit {c : Char} (h : c.isDigit = true) : isNamePart c = true := by
  have hlow := value_lt_of_isDigit h
  have hzero : '0'.toNat = 48 := rfl
  rw [isNamePart, if_pos (by omega)]
  simp [Char.isAlphanum, h]

/-- An integer is taken up to where the value ends. -/
theorem takeInteger_int (type : IntegerType) {n : Int} (hlow : -(type.below : Int) ≤ n)
    (hhigh : n ≤ type.above) (hafter : Ends after) :
    takeInteger type ((toString n).toList ++ after) = .ok (type, n, after) := by
  obtain ⟨c, cs, hdigits, hc⟩ := exists_cons_toDigits n.natAbs
  have hds : ∀ c ∈ Nat.toDigits 10 n.natAbs, isIntegerChar c = true :=
    fun c hc => isIntegerChar_of_isDigit (isDigit_of_mem_toDigits hc)
  have htaken := takeWhile_digits hds ⟨rfl, rfl⟩ hafter
  -- nothing is left of the digits, so what is looked at for a suffix is what ends the value
  have hbehind : (Nat.toDigits 10 n.natAbs ++ after).dropWhile isIntegerChar = after := by
    have hall := List.takeWhile_append_dropWhile (p := isIntegerChar)
      (l := Nat.toDigits 10 n.natAbs ++ after)
    rw [htaken] at hall
    exact List.append_cancel_left hall
  have hhead : (Nat.toDigits 10 n.natAbs).head? ≠ some '_' := by
    rw [hdigits]
    rintro ⟨⟩
    cases hc
  have hvalue : Nat.ofDigitChars 10 (Nat.toDigits 10 n.natAbs) 0 = n.natAbs :=
    Nat.ofDigitChars_ten_toDigits
  have hmost : n.natAbs ≤ if decide (n < 0) then type.below else type.above := by
    by_cases hneg : n < 0
    · rw [decide_eq_true hneg, if_pos rfl]
      omega
    · rw [decide_eq_false hneg, if_neg (by decide)]
      omega
  have hspell := @spell_digits after _ (Nat.toDigits 10 n.natAbs) 0
    (fun c => isDigit_of_mem_toDigits) (hvalue.symm ▸ hmost)
  have hempty : (Nat.toDigits 10 n.natAbs).isEmpty = false := by
    rw [hdigits]
    rfl
  simp only [takeInteger, sign_digits, hbehind, find?_suffix hafter, base_digits
    (fun c => isDigit_of_mem_toDigits) hafter, htaken, List.drop_left, Option.getD_none,
    Option.elim_none, List.drop_zero]
  have hsigned : (if decide (n < 0) then -(n.natAbs : Int) else n.natAbs) = n := by
    by_cases hneg : n < 0
    · rw [decide_eq_true hneg, if_pos rfl]
      omega
    · rw [decide_eq_false hneg, if_neg (by decide)]
      omega
  rw [if_neg (by rw [hempty]; decide), if_neg (by simpa using hhead), hspell, hvalue]
  show Except.ok (type, (if decide (n < 0) then -(n.natAbs : Int) else n.natAbs), after) = _
  rw [hsigned]

/-- **Integers.**  An integer in the range of a type is read back. -/
theorem readBy_int (type : IntegerType) {n : Int} (hlow : -(type.below : Int) ≤ n)
    (hhigh : n ≤ type.above) : (Form.int n).ReadBy limit 0 (integer type) (· = n) := by
  have hrender : ∀ depth, (Form.int n).render depth = (toString n).toList := fun depth => by
    rw [Form.int, render]
  refine ⟨fun depth => ?_, fun depth after hafter => .of_moves (Moves.scan ?_) rfl⟩
  · obtain ⟨c, cs, hdigits, hc⟩ := exists_cons_toDigits n.natAbs
    rw [hrender, toList_int]
    split
    · exact ⟨'-', _, rfl, rfl⟩
    · rw [List.nil_append, hdigits]
      exact ⟨c, cs, rfl, opensValue_of_isNamePart (isNamePart_of_isDigit hc)⟩
  · rw [hrender, takeInteger_int type hlow hhigh hafter]
    exact if_pos rfl

/-- **Bytes.**  A byte is read back from its number. -/
theorem readBy_byte (n : UInt8) : (Form.int n.toNat).ReadBy limit 0 byte (· = n.toNat) := by
  have hint := @readBy_int limit (.unsigned 8) n.toNat (by
    show -((0 : Nat) : Int) ≤ _
    omega) (by
    have hlt := n.toNat_lt
    show (n.toNat : Int) ≤ ((255 : Nat) : Int)
    omega)
  refine ⟨hint.opens, fun depth after hafter => ?_⟩
  obtain ⟨c, cs, hdigits, hc⟩ := exists_cons_toDigits n.toNat
  have hreads := (hint.reads depth after hafter).bind_moves (Q := (· = n.toNat))
    (f := fun k => pure k.toNat) (by
      rintro _ rfl
      exact ⟨n.toNat, rfl, Moves.pure _ _⟩)
  refine (Moves.rest _).reads ?_
  have hrender : (Form.int n.toNat).render depth ++ after = c :: (cs ++ after) := by
    rw [Form.int, render, toList_int, if_neg (by omega)]
    show Nat.toDigits 10 n.toNat ++ after = _
    rw [hdigits]
    rfl
  rw [hrender] at hreads ⊢
  -- a digit does not start a byte between apostrophes
  split
  next heq =>
    rw [(List.cons.inj heq).1] at hc
    cases hc
  next => exact hreads

/-! ## §3. Decimals -/

theorem ofDigits_eq (ds : List Char) : Numeral.ofDigits ds = Nat.ofDigitChars 10 ds 0 := by
  rw [Numeral.ofDigits, Nat.ofDigitChars]
  congr 1
  funext n c
  rw [Nat.mul_comm]

theorem ofDigitChars_zeros (count : Nat) :
    ∀ n : Nat, Nat.ofDigitChars 10 (List.replicate count '0') n = n * 10 ^ count := by
  induction count with
  | zero => exact fun n => (Nat.mul_one n).symm
  | succ count ih =>
    intro n
    rw [List.replicate_succ, Nat.ofDigitChars_cons, ih, Nat.pow_succ']
    show (10 * n + 0) * 10 ^ count = n * (10 * 10 ^ count)
    rw [Nat.add_zero, Nat.mul_comm 10 n, Nat.mul_assoc]

theorem isDigit_of_mem_zeros {count : Nat} {c : Char} (h : c ∈ List.replicate count '0') :
    c.isDigit = true := by
  rw [List.eq_of_mem_replicate h]
  rfl

/-- Only the digits of zero begin with a zero. -/
theorem eq_zero_of_head_toDigits (n : Nat) (h : (Nat.toDigits 10 n).head? = some '0') : n = 0 := by
  induction n using Nat.strongRecOn with
  | ind n ih =>
    by_cases hsmall : n < 10
    · have hchar : ∀ k < 10, k.digitChar = '0' → k = 0 := by decide
      rw [Nat.toDigits_of_lt_base hsmall] at h
      exact hchar n hsmall (Option.some.inj h)
    -- the first digit is that of the quotient
    · obtain ⟨c, cs, hdigits, -⟩ := exists_cons_toDigits (n / 10)
      have hlead : (Nat.toDigits 10 (n / 10)).head? = some '0' := by
        rw [Nat.toDigits_of_base_le (by decide) (Nat.le_of_not_lt hsmall), hdigits] at h
        rw [hdigits]
        exact h
      have hquotient := ih (n / 10) (by omega) hlead
      omega

/-- Whether the digits on both sides of a point spell a decimal. -/
structure Spells (whole fraction : List Char) (d : Decimal) : Prop where
  ne_nil : whole ≠ []
  behind_ne_nil : fraction ≠ []
  isDigit : ∀ c ∈ whole ++ fraction, c.isDigit = true
  spelt_eq : ⟨Numeral.ofDigits (whole ++ fraction), 0 - fraction.length⟩ = d.spelt
  /-- A zero stands in front of other digits only where zero has a power of ten. -/
  lead : whole.head? = some '0' → whole = ['0'] ∨ d.digits = 0 ∧ 0 < d.exponent

namespace Spells

theorem value_eq {whole fraction : List Char} {d : Decimal} (h : Spells whole fraction d) :
    (⟨Numeral.ofDigits (whole ++ fraction), 0 - fraction.length⟩ : Decimal).value = d.value := by
  rw [h.spelt_eq, d.value_spelt]

variable (digits : Nat)

theorem digitsOf_ne_nil : Layout.digitsOf digits ≠ [] := by
  obtain ⟨c, cs, hdigits, _⟩ := exists_cons_toDigits digits
  rw [Layout.digitsOf, hdigits]
  exact List.cons_ne_nil c cs

theorem ofDigitChars_digitsOf : Nat.ofDigitChars 10 (Layout.digitsOf digits) 0 = digits :=
  Nat.ofDigitChars_ten_toDigits

theorem digitsOf_of_head (h : (Layout.digitsOf digits).head? = some '0') :
    digits = 0 ∧ Layout.digitsOf digits = ['0'] := by
  have hzero := eq_zero_of_head_toDigits digits h
  exact ⟨hzero, hzero ▸ rfl⟩

/-- All digits stand before the point, with zeros behind them. -/
theorem before (count : Nat) :
    Spells (Layout.digitsOf digits ++ List.replicate count '0') ['0'] ⟨digits, count⟩ where
  ne_nil := fun hnil => digitsOf_ne_nil digits (List.append_eq_nil_iff.mp hnil).1
  behind_ne_nil := List.cons_ne_nil _ _
  isDigit := by
    intro c hc
    rw [List.append_assoc, List.mem_append, List.mem_append] at hc
    rcases hc with hc | hc | hc
    · exact isDigit_of_mem_toDigits hc
    · exact isDigit_of_mem_zeros hc
    · exact @isDigit_of_mem_zeros 1 c hc
  spelt_eq := by
    have hspelt :
        Nat.ofDigitChars 10 (Layout.digitsOf digits ++ List.replicate count '0' ++ ['0']) 0 =
          digits * 10 ^ (count + 1) := by
      rw [List.append_assoc, ← List.replicate_succ', Nat.ofDigitChars_append,
        ofDigitChars_digitsOf, ofDigitChars_zeros]
    rw [ofDigits_eq, hspelt, Decimal.spelt, if_pos (Int.natCast_nonneg count)]
    rfl
  lead := by
    intro hlead
    rw [List.head?_append_of_ne_nil _ (digitsOf_ne_nil digits)] at hlead
    obtain ⟨hzero, hdigits⟩ := digitsOf_of_head digits hlead
    cases count with
    | zero => exact .inl (by rw [hdigits]; rfl)
    | succ count => exact .inr ⟨hzero, by positivity⟩

/-- The point stands between the digits. -/
theorem around {point : Nat} (hpoint : point ≠ 0) (hlt : point < (Layout.digitsOf digits).length) :
    Spells ((Layout.digitsOf digits).take point) ((Layout.digitsOf digits).drop point)
      ⟨digits, point - (Layout.digitsOf digits).length⟩ where
  ne_nil := fun hnil => (List.take_eq_nil_iff.mp hnil).elim hpoint (digitsOf_ne_nil digits)
  behind_ne_nil := fun hnil => absurd (List.drop_eq_nil_iff.mp hnil) (by omega)
  isDigit := by
    rw [List.take_append_drop]
    exact fun c => isDigit_of_mem_toDigits
  spelt_eq := by
    have hexponent : 0 - ((Layout.digitsOf digits).drop point).length =
        (point : Int) - (Layout.digitsOf digits).length := by
      rw [List.length_drop]
      omega
    rw [List.take_append_drop, ofDigits_eq, ofDigitChars_digitsOf, hexponent, Decimal.spelt,
      if_neg (by simp only; omega)]
  lead := by
    intro hlead
    rw [List.head?_take, if_neg hpoint] at hlead
    rw [(digitsOf_of_head digits hlead).2] at hlt
    exact absurd (Nat.lt_one_iff.mp hlt) hpoint

/-- All digits stand behind the point and some zeros. -/
theorem behind (count : Nat) :
    Spells ['0'] (List.replicate count '0' ++ Layout.digitsOf digits)
      ⟨digits, 0 - (count + (Layout.digitsOf digits).length : Nat)⟩ where
  ne_nil := List.cons_ne_nil _ _
  behind_ne_nil := fun hnil => digitsOf_ne_nil digits (List.append_eq_nil_iff.mp hnil).2
  isDigit := by
    intro c hc
    rw [List.mem_append, List.mem_append] at hc
    rcases hc with hc | hc | hc
    · exact @isDigit_of_mem_zeros 1 c hc
    · exact isDigit_of_mem_zeros hc
    · exact isDigit_of_mem_toDigits hc
  spelt_eq := by
    have hspelt : Nat.ofDigitChars 10
        (['0'] ++ (List.replicate count '0' ++ Layout.digitsOf digits)) 0 = digits := by
      rw [Nat.ofDigitChars_append, Nat.ofDigitChars_append, ofDigitChars_zeros]
      show Nat.ofDigitChars 10 _ (0 * _) = digits
      rw [Nat.zero_mul, ofDigitChars_digitsOf]
    have hpos := List.length_pos_iff.mpr (digitsOf_ne_nil digits)
    rw [ofDigits_eq, hspelt, List.length_append, List.length_replicate, Decimal.spelt,
      if_neg (by simp only; omega)]
  lead := fun _ => .inl rfl

end Spells

/-- **Positional form.**  Digits stand on both sides of the point, and spell the decimal that was
    written. -/
theorem exists_positional (d : Decimal) : ∃ whole fraction : List Char,
    Layout.positional d = whole ++ '.' :: fraction ∧ Spells whole fraction d := by
  obtain ⟨digits, exponent⟩ := d
  rw [Layout.positional]
  by_cases hwhole : exponent ≥ 0
  · rw [if_pos hwhole]
    obtain ⟨count, rfl⟩ := Int.eq_ofNat_of_zero_le hwhole
    exact ⟨_, _, rfl, Spells.before digits count⟩
  · simp only [if_neg hwhole]
    by_cases hpoint : ((Layout.digitsOf digits).length : Int) + exponent > 0
    · rw [if_pos hpoint]
      obtain ⟨point, hcut⟩ := Int.eq_ofNat_of_zero_le (Int.le_of_lt hpoint)
      have hexponent : exponent = point - (Layout.digitsOf digits).length := by omega
      refine ⟨_, _, rfl, ?_⟩
      rw [hcut, Int.toNat_natCast, hexponent]
      exact Spells.around digits (by omega) (by omega)
    · rw [if_neg hpoint]
      obtain ⟨count, hcount⟩ := Int.eq_ofNat_of_zero_le (Int.neg_nonneg.mpr (Int.not_lt.mp hpoint))
      have hexponent : exponent = 0 - (count + (Layout.digitsOf digits).length : Nat) := by omega
      rw [hcount, Int.toNat_natCast, hexponent, List.append_assoc]
      exact ⟨_, _, rfl, Spells.behind digits count⟩

/-- A decimal is read from its digits. -/
theorem ofChars?_positional {whole fraction : List Char} {d : Decimal}
    (h : Spells whole fraction d) (negative : Bool) :
    Numeral.ofChars? ((if negative then ['-'] else []) ++ (whole ++ '.' :: fraction)) =
      some ⟨negative, Numeral.ofDigits (whole ++ fraction), 0 - fraction.length⟩ := by
  have hsign : Numeral.sign ((if negative then ['-'] else []) ++ (whole ++ '.' :: fraction)) =
      (negative, whole ++ '.' :: fraction) := by
    cases negative with
    | true => rfl
    | false =>
      obtain ⟨c, cs, rfl⟩ := List.exists_cons_of_ne_nil h.ne_nil
      exact sign_of_isDigit (h.isDigit c List.mem_cons_self)
  have hwhole : (whole ++ '.' :: fraction).takeWhile Char.isDigit = whole := by
    rw [List.takeWhile_append_of_pos fun c hc => h.isDigit c (List.mem_append_left _ hc)]
    simp
  have hfraction : fraction.takeWhile Char.isDigit = fraction := by
    have htaken : (fraction ++ []).takeWhile Char.isDigit = fraction ++ [].takeWhile Char.isDigit :=
      List.takeWhile_append_of_pos fun c hc => h.isDigit c (List.mem_append_right whole hc)
    simpa using htaken
  have hempty : whole.isEmpty = false := by simpa using h.ne_nil
  simp only [Numeral.ofChars?, hsign, hwhole, List.drop_left, hfraction, hempty, List.drop_length,
    Numeral.exponent?]
  rfl

/-! ## §4. Floats -/

theorem dropUnderscores_of_not_mem :
    ∀ {text : List Char} (allowed : Bool), '_' ∉ text → dropUnderscores allowed text = some text
  | [], _, _ => by rw [dropUnderscores]
  | c :: text, allowed, h => by
    have hc : c ≠ '_' := fun heq => h (heq ▸ List.mem_cons_self)
    have htext : '_' ∉ text := fun hmem => h (List.mem_cons_of_mem c hmem)
    rw [dropUnderscores]
    · simp only [dropUnderscores_of_not_mem _ htext, Option.map_some]
    · exact hc

/-- No width is named behind a value. -/
theorem takeWidth_of_ends (hafter : Ends after) : takeWidth after = (none, after) := by
  have hnone : ([FloatWidth.single, .double].find? fun w => startsWord w.suffix after) = none := by
    rw [List.find?_eq_none]
    intro w _
    rw [startsWord_of_ends (c := 'f') (by cases w <;> rfl) (by decide) hafter]
    decide
  rw [takeWidth, hnone]

/-- The words for floats are no numerals: a letter is among their first two characters. -/
theorem takeFloatWord_of_isFloatChar {numeral : List Char}
    (hnumeral : ∀ c ∈ numeral, isFloatChar c = true) (hlong : 2 ≤ numeral.length) :
    takeFloatWord (numeral ++ after) = none := by
  have hletter : ∀ entry ∈ floatWords, (entry.1.toList.take 2).all isFloatChar = false := by
    decide +kernel
  rw [takeFloatWord, List.findSome?_eq_none_iff]
  rintro ⟨word, x⟩ hword
  have hstarts : ∀ suffix, startsWord (word ++ suffix) (numeral ++ after) = false := by
    intro suffix
    rw [startsWord, Bool.and_eq_false_iff]
    left
    -- two characters of the word would stand in the numeral, and one of them is a letter
    rw [Bool.eq_false_iff, Ne, List.isPrefixOf_iff_prefix, String.toList_append]
    intro hprefix
    have hboth : word.toList.take 2 <+: numeral :=
      List.prefix_of_prefix_length_le
        ((List.take_prefix 2 _).trans ((List.prefix_append _ _).trans hprefix))
        (List.prefix_append _ _) ((List.length_take_le 2 _).trans hlong)
    have hall : (word.toList.take 2).all isFloatChar = true :=
      List.all_eq_true.mpr fun c hc => hnumeral c (hboth.subset hc)
    rw [hletter (word, x) hword] at hall
    cases hall
  simp only [hstarts]
  rfl

theorem isFloatChar_of_isDigit {c : Char} (h : c.isDigit = true) : isFloatChar c = true := by
  simp [isFloatChar, h]

/-- **Numerals.**  A sign, digits, a point and digits are read as the float nearest to what they
    spell. -/
theorem takeFloat_numeral {whole fraction : List Char} {d : Decimal} (h : Spells whole fraction d)
    (negative : Bool) (hafter : Ends after) :
    takeFloat ((if negative then ['-'] else []) ++ (whole ++ '.' :: fraction) ++ after) =
      some (.ofDecimal negative (Numeral.ofDigits (whole ++ fraction)) (0 - fraction.length), none,
        after) := by
  have hnumeral : ∀ c ∈ (if negative then ['-'] else []) ++ (whole ++ '.' :: fraction),
      isFloatChar c = true ∧ c ≠ '_' := by
    intro c hc
    have hdigit : ∀ c : Char, c.isDigit = true → isFloatChar c = true ∧ c ≠ '_' := by
      intro c hc
      refine ⟨isFloatChar_of_isDigit hc, ?_⟩
      rintro rfl
      cases hc
    simp only [List.mem_append, List.mem_cons] at hc
    rcases hc with hc | hc | rfl | hc
    · cases negative with
      | true =>
        rw [if_pos rfl, List.mem_singleton] at hc
        subst hc
        decide
      | false => cases hc
    · exact hdigit c (h.isDigit c (List.mem_append_left _ hc))
    · decide
    · exact hdigit c (h.isDigit c (List.mem_append_right _ hc))
  have hpart : ∀ c ∈ (if negative then ['-'] else []) ++ (whole ++ '.' :: fraction),
      isFloatChar c = true := fun c hc => (hnumeral c hc).1
  -- a digit and the point at least: two characters with which no word begins
  have hlong : 2 ≤ ((if negative then ['-'] else []) ++ (whole ++ '.' :: fraction)).length := by
    have hpos := List.length_pos_iff.mpr h.ne_nil
    simp only [List.length_append, List.length_cons]
    omega
  rw [takeFloat, takeFloatWord_of_isFloatChar hpart hlong, Option.none_or]
  simp only [takeWhile_digits hpart ⟨rfl, rfl⟩ hafter, List.drop_left, takeWidth_of_ends hafter]
  rw [dropUnderscores_of_not_mem false fun hmem => (hnumeral '_' hmem).2 rfl, Option.bind_some,
    ofChars?_positional h]
  rfl

/-- **Infinities.** -/
theorem takeFloat_infinity (negative : Bool) (hafter : Ends after) :
    takeFloat ((if negative then "-inf" else "inf").toList ++ after) =
      some (.infinity negative, none, after) := by
  have hfound : takeFloatWord ((if negative then "-inf" else "inf").toList ++ after) =
      some (.infinity negative, none, after) := by
    cases negative with
    | false =>
      have hstarts := startsWord_append "inf" hafter.isDelimiter
      have hdrop : ("inf".toList ++ after).drop "inf".length = after := rfl
      rw [if_neg (by decide), takeFloatWord, floatWords, List.findSome?_cons]
      simp only [hdrop, takeWidth_of_ends hafter, Option.elim_none, String.append_empty]
      rw [if_pos hstarts]
    | true =>
      have hstarts := startsWord_append "-inf" hafter.isDelimiter
      have hdrop : ("-inf".toList ++ after).drop "-inf".length = after := rfl
      -- the words without a minus are tried first
      have hothers : ∀ word ∈ ["inf", "+inf"], ∀ suffix,
          startsWord (word ++ suffix) ("-inf".toList ++ after) = false := by
        intro word hword suffix
        obtain rfl | rfl := List.mem_pair.mp hword
        · exact startsWord_of_ne (c := 'i') (by simp) (by simp)
        · exact startsWord_of_ne (c := '+') (by simp) (by simp)
      rw [if_pos rfl, takeFloatWord, floatWords]
      simp only [List.findSome?_cons, hothers "inf" (by simp), hothers "+inf" (by simp), hdrop,
        takeWidth_of_ends hafter, Option.elim_none, String.append_empty, hstarts]
      rfl
  rw [takeFloat, hfound, Option.some_or]

/-- **Floats.**  A float that is a number is read back to the bit. -/
theorem readBy_float {x : Binary32} (hx : x.isNaN = false) :
    (Form.float x).ReadBy limit 0 Reader.float (· = x) := by
  have hrender : ∀ depth, (Form.float x).render depth = x.documentText.toList := fun depth => by
    rw [Form.float, render]
  have htext : (∃ c rest, x.documentText.toList = c :: rest ∧ opensValue c = true) ∧
      ∀ after, Ends after → takeFloat (x.documentText.toList ++ after) = some (x, none, after) := by
    by_cases hfinite : x.isFinite = true
    · obtain ⟨whole, fraction, hpositional, hspells⟩ :=
        exists_positional (x.shortest Layout.document.tie)
      have hchars : x.documentText.toList =
          (if x.negative then ['-'] else []) ++ (whole ++ '.' :: fraction) := by
        rw [Binary32.documentText, if_pos hfinite, Layout.render, Layout.write,
          String.toList_ofList, ← hpositional]
        cases x.negative <;> rfl
      refine ⟨?_, fun after hafter => ?_⟩
      · rw [hchars]
        obtain ⟨c, cs, rfl⟩ := List.exists_cons_of_ne_nil hspells.ne_nil
        cases x.negative with
        | true => exact ⟨'-', _, rfl, rfl⟩
        | false =>
          have hc := hspells.isDigit c List.mem_cons_self
          exact ⟨c, _, rfl, opensValue_of_isNamePart (isNamePart_of_isDigit hc)⟩
      · rw [hchars, takeFloat_numeral hspells x.negative hafter,
          Binary32.ofDecimal_of_shortest hfinite hspells.value_eq]
    · -- what is a number and is not finite has the rung of infinity
      have hinfinite : x = .infinity x.negative := by
        have hlow : ¬ x.rung.val < Format.binary32.infinity := by
          simpa [Binary32.isFinite] using hfinite
        have hhigh : ¬ Format.binary32.infinity < x.rung.val := by
          simpa [Binary32.isNaN] using hx
        have hrung : x.rung = (Binary32.infinity x.negative).rung :=
          Fin.ext (show x.rung.val = Format.binary32.infinity by omega)
        exact congrArg (Binary32.mk x.negative) hrung
      have hchars : x.documentText.toList = (if x.negative then "-inf" else "inf").toList := by
        rw [Binary32.documentText, if_neg hfinite, hx]
        cases x.negative <;> rfl
      refine ⟨?_, fun after hafter => ?_⟩
      · rw [hchars]
        cases x.negative
        · exact ⟨'i', _, rfl, rfl⟩
        · exact ⟨'-', _, rfl, rfl⟩
      · rw [hchars, takeFloat_infinity x.negative hafter, ← hinfinite]
  obtain ⟨hopens, htaken⟩ := htext
  refine ⟨fun depth => hrender depth ▸ hopens, fun depth after hafter => .of_moves ?_ rfl⟩
  refine Moves.scan ?_
  rw [hrender, htaken after hafter]
  rfl

end ShaderFlow.Form
