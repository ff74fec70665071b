/-
  ShaderFlow.Proofs.Quoting — quoted texts are read back.

  A character inside quotes stands for itself, is written by a letter behind a backslash, or by
  its number in braces.  The three forms begin differently, and each ends where it can be told
  from what follows, so a reader that undoes them one after the other meets the characters of
  the text and then the closing quote, whatever the text is.

  Main statements:
    * `bracedHex?_toDigits` — the number of a character;
    * `quotedBody_escape`   — one character;
    * `text?_quoted`        — a whole text.
-/

import ShaderFlow.Markup.Texts
import ShaderFlow.Text.Quoted

namespace ShaderFlow.Reader

/-! ## §1. Characters by number -/

theorem charOf?_toNat (c : Char) : charOf? c.toNat = some c := by
  have hvalid : c.toNat.isValidChar := c.valid
  rw [charOf?, if_pos hvalid, Char.ofNat_toNat]

theorem hexValue?_digitChar : ∀ n < 16, hexValue? n.digitChar = some n := by decide

theorem digitChar_ne_brace : ∀ n < 16, n.digitChar ≠ '\x7d' := by decide

/-- One more digit in braces. -/
theorem bracedHex?_digitChar {n : Nat} (hn : n < 16) (digits count value : Nat)
    (after : List Char) :
    bracedHex? (digits + 1) count value (n.digitChar :: after) =
      bracedHex? digits (count + 1) (16 * value + n) after := by
  rw [bracedHex?]
  · rw [hexValue?_digitChar n hn, Option.bind_some]
  · exact digitChar_ne_brace n hn

/-- The digits of a number are read as the number, from the first on. -/
theorem bracedHex?_toDigits (n : Nat) :
    ∀ (digits : Nat) (after : List Char),
      bracedHex? ((Nat.toDigits 16 n).length + digits) 0 0 (Nat.toDigits 16 n ++ after) =
        bracedHex? digits (Nat.toDigits 16 n).length n after := by
  induction n using Nat.strongRecOn with
  | ind n ih =>
    intro digits after
    by_cases hsmall : n < 16
    · rw [Nat.toDigits_of_lt_base hsmall, List.length_singleton, Nat.add_comm]
      exact (bracedHex?_digitChar hsmall digits 0 0 after).trans (by simp)
    -- the last digit is read behind those of the quotient
    · have hlow : n % 16 < 16 := Nat.mod_lt n (by decide)
      have hdigits := Nat.toDigits_of_base_le (b := 16) (by decide) (Nat.le_of_not_lt hsmall)
      have hvalue : 16 * (n / 16) + n % 16 = n := Nat.div_add_mod n 16
      have hlength : (Nat.toDigits 16 n).length = (Nat.toDigits 16 (n / 16)).length + 1 := by
        rw [hdigits, List.length_append, List.length_singleton]
      rw [hlength, Nat.add_assoc, Nat.add_comm 1 digits, hdigits, List.append_assoc,
        ih (n / 16) (by omega), List.singleton_append, bracedHex?_digitChar hlow, hvalue]

/-- A character by its number in braces. -/
theorem bracedHex?_number (c : Char) (after : List Char) :
    bracedHex? 6 0 0 (Nat.toDigits 16 c.toNat ++ '\x7d' :: after) = some (c, after) := by
  -- numbers of characters are below 16 ^ 6, and the reader takes six digits at most
  have hshort : (Nat.toDigits 16 c.toNat).length ≤ 6 := by
    rw [Nat.length_toDigits_le_iff (by decide) (by decide)]
    rcases c.valid with h | ⟨-, h⟩
    · exact Nat.lt_trans h (by decide)
    · exact Nat.lt_trans h (by decide)
  have hpos : (Nat.toDigits 16 c.toNat).length ≠ 0 := Nat.pos_iff_ne_zero.mp Nat.length_toDigits_pos
  have hread := bracedHex?_toDigits c.toNat (6 - (Nat.toDigits 16 c.toNat).length)
    ('\x7d' :: after)
  rw [Nat.add_sub_cancel' hshort] at hread
  rw [hread, bracedHex?, if_neg hpos, charOf?_toNat]
  rfl

/-! ## §2. Quoted characters -/

/-- What a letter behind a backslash stands for. -/
theorem unescape?_letter {c letter : Char} (h : Text.escapeLetter c = some letter)
    (after : List Char) : unescape? .text (letter :: after) = some (c, after) := by
  unfold Text.escapeLetter at h
  split at h <;> cases h <;> rfl

/-- What is written as itself neither closes the text nor begins an escape. -/
theorem ne_of_escapeLetter_eq_none {c : Char} (h : Text.escapeLetter c = none) :
    c ≠ '"' ∧ c ≠ '\\' := by
  constructor <;> rintro rfl <;> cases h

/-- **One character.**  It is read back from its form inside quotes. -/
theorem quotedBody_escape (c : Char) (rounds : Nat) (after : List Char) :
    quotedBody .text (rounds + 1) (Text.escape c ++ after) =
      (quotedBody .text rounds after).map fun (cs, rest) => (c :: cs, rest) := by
  cases hletter : Text.escapeLetter c with
  | some letter =>
    simp only [Text.escape, hletter]
    show (unescape? .text (letter :: after)).bind _ = _
    rw [unescape?_letter hletter]
    rfl
  | none =>
    obtain ⟨hquote, hslash⟩ := ne_of_escapeLetter_eq_none hletter
    cases hplain : Text.isPlain c with
    | true =>
      simp only [Text.escape, hletter, hplain, if_true]
      show quotedBody .text (rounds + 1) (c :: after) = _
      rw [quotedBody]
      · exact hquote
      · exact hslash
    | false =>
      simp only [Text.escape, hletter, hplain, Text.numbered]
      show (bracedHex? 6 0 0 (Nat.toDigits 16 c.toNat ++ ['\x7d'] ++ after)).bind _ = _
      rw [List.append_assoc, List.singleton_append, bracedHex?_number]
      rfl

/-! ## §3. Quoted texts -/

/-- The characters of a text are read back up to the closing quote. -/
theorem quotedBody_flatMap_escape (after : List Char) :
    ∀ (cs : List Char) (rounds : Nat), cs.length < rounds →
      quotedBody .text rounds (cs.flatMap Text.escape ++ '"' :: after) = some (cs, after)
  | [], rounds + 1, _ => rfl
  | c :: cs, rounds + 1, h => by
    have hrest : cs.length < rounds := Nat.lt_of_succ_lt_succ h
    rw [List.flatMap_cons, List.append_assoc, quotedBody_escape,
      quotedBody_flatMap_escape after cs rounds hrest]
    rfl

theorem length_le_flatMap_escape (cs : List Char) :
    cs.length ≤ (cs.flatMap Text.escape).length := by
  induction cs with
  | nil => exact Nat.le_refl 0
  | cons c cs ih =>
    have hpos : 0 < (Text.escape c).length := by
      rw [Text.escape]
      split
      · exact Nat.succ_pos _
      · split
        · exact Nat.succ_pos _
        · exact Nat.succ_pos _
    rw [List.flatMap_cons, List.length_append, List.length_cons]
    omega

/-- **A whole text.**  Between its quotes every text is read back, and what stands behind the
    closing quote is left. -/
theorem text?_quoted (s : String) (after : List Char) :
    text? ((Text.quoted s).toList ++ after) = some (s, after) := by
  have hquoted : (Text.quoted s).toList ++ after =
      '"' :: (s.toList.flatMap Text.escape ++ '"' :: after) := by
    rw [Text.quoted, String.toList_ofList]
    simp
  have hrounds : s.toList.length <
      (s.toList.flatMap Text.escape ++ '"' :: after).length + 1 := by
    have hle := length_le_flatMap_escape s.toList
    rw [List.length_append]
    omega
  rw [hquoted]
  show (quotedBody .text _ _).map _ = _
  rw [quotedBody_flatMap_escape after s.toList _ hrounds]
  exact congrArg (fun t => some (t, after)) String.ofList_toList

end ShaderFlow.Reader
