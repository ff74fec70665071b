/-
  ShaderFlow.Json.Reader — reading JSON text.

  Objects come with their members in the order of their keys, and of members with one key
  only the last.

  Main definitions:
    * `Json.ofText?` — the value that a text holds.
-/

import ShaderFlow.Json.Basic

namespace ShaderFlow.Json

/-! ## §1. Scanning -/

/-- A scanner takes what is left of a text and fails where the text is not JSON. -/
abbrev Scan (α : Type) := StateT (List Char) Option α

namespace Scan

/-- The next character, which has to be there. -/
def next : Scan Char := fun
  | c :: rest => some (c, rest)
  | [] => none

/-- Takes a character if it comes next, and says whether it did. -/
def take? (x : Char) : Scan Bool := fun
  | c :: rest => if c == x then some (true, rest) else some (false, c :: rest)
  | [] => some (false, [])

/-- Takes one of two characters if it comes next, and says whether it did. -/
def takeEither (x y : Char) : Scan Bool := do
  if ← take? x then pure true else take? y

/-- Takes characters that have to come next. -/
def expect (word : List Char) : Scan Unit := fun text =>
  if word.isPrefixOf text then some ((), text.drop word.length) else none

/-- Whether a character is white space between tokens. -/
def isBlank (c : Char) : Bool := c == ' ' || c == '\n' || c == '\t' || c == '\r'

/-- Skips white space. -/
def blanks : Scan Unit := fun text => some ((), text.dropWhile isBlank)

/-! ## §2. Numbers -/

/-- Takes digits, of which there has to be one. -/
def digits : Scan (List Char) := fun text =>
  let ds := text.takeWhile Char.isDigit
  if ds.isEmpty then none else some (ds, text.drop ds.length)

/-- The number that decimal digits stand for. -/
def valueOf (ds : List Char) : Nat := ds.foldl (fun n d => 10 * n + (d.toNat - '0'.toNat)) 0

/-- The digits in front of the point: no zero stands in front of another digit. -/
def wholeDigits : Scan (List Char) := do
  let ds ← digits
  if ds.head? == some '0' && ds.length > 1 then failure else pure ds

/-- The digits behind a point, if there is one. -/
def fraction : Scan (Option (List Char)) := do
  if ← take? '.' then some <$> digits else pure none

/-- The sign of a power of ten, if there is one: whether it is a minus. -/
def powerSign : Scan Bool := do
  if ← take? '-' then pure true
  else
    let _ ← take? '+'
    pure false

/-- A power of ten, if there is one. -/
def power : Scan (Option Int) := do
  if ← takeEither 'e' 'E' then
    let negative ← powerSign
    let size : Int := valueOf (← digits)
    pure (some (if negative then -size else size))
  else pure none

/-- A number. -/
def number : Scan Number := do
  let negative ← take? '-'
  let whole ← wholeDigits
  let fraction ← fraction
  let power ← power
  let behind := fraction.getD []
  pure {
    negative
    decimal := ⟨valueOf (whole ++ behind), power.getD 0 - behind.length⟩
    whole := fraction.isNone && power.isNone }

/-! ## §3. Strings -/

/-- The value of a hexadecimal digit. -/
def hexDigit? (c : Char) : Option Nat :=
  if c.isDigit then some (c.toNat - '0'.toNat)
  else if 'a' ≤ c ∧ c ≤ 'f' then some (c.toNat - 'a'.toNat + 10)
  else if 'A' ≤ c ∧ c ≤ 'F' then some (c.toNat - 'A'.toNat + 10)
  else none

/-- Four hexadecimal digits. -/
def unit : Scan Nat := fun
  | a :: b :: c :: d :: rest => do
    let ds ← [a, b, c, d].mapM hexDigit?
    some (ds.foldl (fun n d => 16 * n + d) 0, rest)
  | _ => none

/-- A character by its number, which takes two units beyond the first plane. -/
def numberedChar : Scan Char := do
  let high ← unit
  if 0xD800 ≤ high ∧ high < 0xDC00 then
    expect ['\\', 'u']
    let low ← unit
    if 0xDC00 ≤ low ∧ low < 0xE000 then
      pure (Char.ofNat (0x10000 + (high - 0xD800) * 0x400 + (low - 0xDC00)))
    else failure
  else if 0xDC00 ≤ high ∧ high < 0xE000 then failure
  else pure (Char.ofNat high)

/-- What a backslash with the next characters stands for. -/
def escaped : Scan Char := do
  match ← next with
  | '"' => pure '"'
  | '\\' => pure '\\'
  | '/' => pure '/'
  | 'b' => pure '\x08'
  | 'f' => pure '\x0c'
  | 'n' => pure '\n'
  | 'r' => pure '\r'
  | 't' => pure '\t'
  | 'u' => numberedChar
  | _ => failure

/-- The rest of a string behind its first quote, in at most the given number of rounds, of
    which each takes a character at least. -/
def stringRest : (rounds : Nat) → (acc : List Char) → Scan String
  | 0, _ => failure
  | rounds + 1, acc => do
    match ← next with
    | '"' => pure (String.ofList acc.reverse)
    | '\\' => stringRest rounds ((← escaped) :: acc)
    | c => if isControl c then failure else stringRest rounds (c :: acc)

/-- A string. -/
def string? : Scan String := do
  expect ['"']
  stringRest (← get).length []

/-! ## §4. Values -/

/-- Adds a member in the order of the keys, in place of one with the same key. -/
def insertMember (key : String) (j : Json) : List (String × Json) → List (String × Json)
  | [] => [(key, j)]
  | (k, v) :: rest =>
    if key == k then (k, j) :: rest
    else if key < k then (key, j) :: (k, v) :: rest
    else (k, v) :: insertMember key j rest

/-- The items of an array up to its end, in at most the given number of rounds. -/
def items (value : Scan Json) : (rounds : Nat) → (acc : List Json) → Scan (List Json)
  | 0, _ => failure
  | rounds + 1, acc => do
    let acc := (← value) :: acc
    blanks
    if ← take? ',' then items value rounds acc
    else
      expect [']']
      pure acc.reverse

/-- The members of an object up to its end, in at most the given number of rounds. -/
def members (value : Scan Json) :
    (rounds : Nat) → (acc : List (String × Json)) → Scan (List (String × Json))
  | 0, _ => failure
  | rounds + 1, acc => do
    blanks
    let key ← string?
    blanks
    expect [':']
    let acc := insertMember key (← value) acc
    blanks
    if ← take? ',' then members value rounds acc
    else
      expect ['\x7d']
      pure acc

/-- An array or an object, given how to scan what is inside. -/
def composite (inside : Scan Json) : Scan Json := do
  if ← take? '[' then
    blanks
    if ← take? ']' then pure (.array []) else return .array (← items inside (← get).length [])
  else
    expect ['\x7b']
    blanks
    if ← take? '\x7d' then pure (.object [])
    else return .object (← members inside (← get).length [])

/-- A value, given how to scan an array or an object. -/
def valueOr (nested : Scan Json) : Scan Json := do
  blanks
  match (← get).head? with
  | some 'n' => (fun () => Json.null) <$> expect "null".toList
  | some 't' => (fun () => Json.bool true) <$> expect "true".toList
  | some 'f' => (fun () => Json.bool false) <$> expect "false".toList
  | some '"' => Json.string <$> string?
  | some '[' | some '\x7b' => nested
  | _ => Json.number <$> number

/-- A value that nests no deeper than the given number of levels. -/
def value : (levels : Nat) → Scan Json
  | 0 => valueOr failure
  | levels + 1 => valueOr (composite (value levels))

end Scan

/-- How deep arrays and objects may nest. -/
def nestingLimit : Nat := 127

/-- The value that a text holds. -/
def ofText? (text : String) : Option Json :=
  match Scan.value nestingLimit text.toList with
  | some (j, rest) => if rest.all Scan.isBlank then some j else none
  | none => none

end ShaderFlow.Json
