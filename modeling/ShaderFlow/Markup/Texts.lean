/-
  ShaderFlow.Markup.Texts — texts, characters and bytes in a document.

  A text stands between quotes and may have escapes, or is raw between quotes with as many
  hash signs as it needs.  A character stands between apostrophes.  Behind the letter `b`
  either is a run of bytes or one byte.

  Main definitions:
    * `Reader.text` — a text;
    * `Reader.pastText?`, `Reader.pastChar?`, `Reader.pastBytes?` — what follows a text, a
      character or a run of bytes;
    * `Reader.byteChar?` — a byte written as a character.
-/

import ShaderFlow.Markup.Reader

namespace ShaderFlow.Reader

/-! ## §1. Escapes -/

/-- The value of a hexadecimal digit. -/
def hexValue? (c : Char) : Option Nat :=
  if c.isDigit then some (c.toNat - '0'.toNat)
  else if 'a' ≤ c && c ≤ 'f' then some (c.toNat - 'a'.toNat + 10)
  else if 'A' ≤ c && c ≤ 'F' then some (c.toNat - 'A'.toNat + 10)
  else none

/-- The number of two hexadecimal digits. -/
def hexPair? : List Char → Option (Nat × List Char)
  | a :: b :: rest => do
    let x ← hexValue? a
    let y ← hexValue? b
    pure (16 * x + y, rest)
  | _ => none

/-- The character with the given number. -/
def charOf? (n : Nat) : Option Char := if n.isValidChar then some (Char.ofNat n) else none

/-- The hexadecimal digits up to a closing brace, at most six of them. -/
def bracedHex? : (digits : Nat) → (count value : Nat) → List Char → Option (Char × List Char)
  | _, count, value, '\x7d' :: rest =>
    if count = 0 then none else (charOf? value).map (·, rest)
  | digits + 1, count, value, c :: rest =>
    (hexValue? c).bind fun x => bracedHex? digits (count + 1) (16 * value + x) rest
  | _, _, _, _ => none

/-- The character that bytes spell, if they spell exactly one: a lead byte tells how many
    follow, each of which adds six bits, and a character is spelt no longer than needed. -/
def charOfBytes? : List Nat → Option Char
  | [a] => if a < 0x80 then charOf? a else none
  | [a, b] =>
    if 0xc2 ≤ a && a < 0xe0 && b / 64 == 2 then charOf? (a % 32 * 64 + b % 64) else none
  | [a, b, c] =>
    let n := a % 16 * 4096 + b % 64 * 64 + c % 64
    if a / 16 == 14 && b / 64 == 2 && c / 64 == 2 && 0x800 ≤ n then charOf? n else none
  | [a, b, c, d] =>
    let n := a % 8 * 262144 + b % 64 * 4096 + c % 64 * 64 + d % 64
    if a / 8 == 30 && b / 64 == 2 && c / 64 == 2 && d / 64 == 2 && 0x10000 ≤ n then charOf? n
    else none
  | _ => none

/-- A character spelt by up to four bytes, given the bytes read so far; each further byte
    needs an escape of its own. -/
def spelt? : (more : Nat) → (bytes : List Nat) → List Char → Option (Char × List Char)
  | more, bytes, text =>
    match charOfBytes? bytes, more, text with
    | some c, _, _ => some (c, text)
    | none, more + 1, '\\' :: 'x' :: rest =>
      (hexPair? rest).bind fun (b, rest) => spelt? more (bytes ++ [b]) rest
    | none, _, _ => none

/-- What a run of escapes is to spell. -/
inductive Spelling where
  /-- Text, where several bytes may spell one character. -/
  | text
  /-- A single character. -/
  | character
  /-- Bytes, each of which stands for itself. -/
  | bytes
deriving Repr, DecidableEq

/-- The character that an escape stands for, from what follows the backslash.  A byte is given
    as the character of its number. -/
def unescape? (spelling : Spelling) : List Char → Option (Char × List Char)
  | '\'' :: rest => some ('\'', rest)
  | '"' :: rest => some ('"', rest)
  | '\\' :: rest => some ('\\', rest)
  | 'n' :: rest => some ('\n', rest)
  | 'r' :: rest => some ('\r', rest)
  | 't' :: rest => some ('\t', rest)
  | '0' :: rest => some ('\x00', rest)
  | 'x' :: rest =>
    (hexPair? rest).bind fun (b, rest) =>
      match spelling with
      | .text => spelt? 3 [b] rest
      | .character => spelt? 0 [b] rest
      | .bytes => some (Char.ofNat b, rest)
  | 'u' :: '\x7b' :: rest => bracedHex? 6 0 0 rest
  | _ => none

/-! ## §2. Quoted and raw bodies -/

/-- The text up to the closing quote.  Each character takes at least one round. -/
def quotedBody (spelling : Spelling) :
    (rounds : Nat) → List Char → Option (List Char × List Char)
  | 0, _ => none
  | _, [] => none
  | _ + 1, '"' :: rest => some ([], rest)
  | rounds + 1, '\\' :: rest =>
    (unescape? spelling rest).bind fun (c, rest) =>
      (quotedBody spelling rounds rest).map fun (cs, rest) => (c :: cs, rest)
  | rounds + 1, c :: rest =>
    (quotedBody spelling rounds rest).map fun (cs, rest) => (c :: cs, rest)

/-- The text up to the first place where `closing` stands. -/
def rawBody (closing : List Char) : List Char → Option (List Char × List Char)
  | [] => none
  | c :: rest =>
    if closing.isPrefixOf (c :: rest) then some ([], (c :: rest).drop closing.length)
    else (rawBody closing rest).map fun (cs, rest) => (c :: cs, rest)

/-- A raw text from its hash signs on, with what follows it. -/
def rawText? (text : List Char) : Option (List Char × List Char) :=
  let hashes := text.takeWhile (· == '#')
  match text.drop hashes.length with
  | '"' :: rest => rawBody ('"' :: hashes) rest
  | _ => none

/-! ## §3. Texts, characters and bytes -/

/-- A text, quoted or raw, with what follows it. -/
def text? (source : List Char) : Option (String × List Char) :=
  let body :=
    match source with
    | '"' :: rest => quotedBody .text (rest.length + 1) rest
    | 'r' :: rest => rawText? rest
    | _ => none
  body.map fun (cs, rest) => (String.ofList cs, rest)

/-- A text, quoted or raw. -/
def text : Reader String := find text? "a text"

/-- What follows a text. -/
def pastText? (source : List Char) : Option (List Char) :=
  (text? source).map fun (_, rest) => rest

/-- What follows a character between apostrophes. -/
def pastChar? : List Char → Option (List Char)
  | '\'' :: body =>
    let char :=
      match body with
      | '\\' :: rest => unescape? .character rest
      | c :: rest => some (c, rest)
      | [] => none
    match char with
    | some (_, '\'' :: rest) => some rest
    | _ => none
  | _ => none

/-- What follows a run of bytes, quoted or raw. -/
def pastBytes? : List Char → Option (List Char)
  | 'b' :: '"' :: rest => (quotedBody .bytes (rest.length + 1) rest).map fun (_, rest) => rest
  | 'b' :: 'r' :: rest => (rawText? rest).map fun (_, rest) => rest
  | _ => none

/-- A byte as an ASCII character between apostrophes behind a `b`, with what follows it.  An
    escape may be of any kind but a braced number. -/
def byteChar? : List Char → Option (Nat × List Char)
  | 'b' :: '\'' :: body =>
    let char :=
      match body with
      | '\\' :: 'u' :: _ => none
      | '\\' :: rest => unescape? .bytes rest
      | c :: rest => if c.toNat < 0x80 then some (c, rest) else none
      | [] => none
    match char with
    | some (c, '\'' :: rest) => some (c.toNat, rest)
    | _ => none
  | _ => none

end ShaderFlow.Reader
