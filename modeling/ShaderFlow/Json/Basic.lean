/-
  ShaderFlow.Json.Basic — JSON values and their text.

  A number keeps the decimal it is written as, so that nothing is rounded before it is known
  what the number is for.  Text is written with one array item or object member to a line,
  indented by two blanks a level.  Strings escape quotes, backslashes and controls and keep
  everything else.

  Main definitions:
    * `Json` — the values;
    * `Json.pretty` — their text.
-/

import ShaderFlow.Number.Layout

namespace ShaderFlow

/-! ## §1. Values -/

/-- A number as it is written. -/
structure Json.Number where
  negative : Bool := false
  decimal : Decimal
  /-- Whether it has neither a point nor a power of ten. -/
  whole : Bool
deriving Repr, DecidableEq

/-- A JSON value.  Objects keep the order of their members. -/
inductive Json where
  | null
  | bool (b : Bool)
  | number (n : Json.Number)
  | string (s : String)
  | array (items : List Json)
  | object (members : List (String × Json))

/-- Numbers in JSON use a power of ten below a millionth and from ten to the thirteenth on,
    with its sign; a middle goes to the even digit. -/
def Layout.json : Layout where
  plain := some (-6, 13)
  explicitPlus := true
  tie := .toEven

/-- The text of a number. -/
def Json.Number.text (n : Json.Number) : List Char :=
  if n.whole then (if n.negative then ['-'] else []) ++ Nat.toDigits 10 n.decimal.digits
  else (Layout.json.write n.negative n.decimal).toList

namespace Json

/-- An integer. -/
def int (n : Int) : Json :=
  .number { negative := decide (n < 0), decimal := ⟨n.natAbs, 0⟩, whole := true }

/-- A natural number. -/
def nat (n : Nat) : Json := int n

/-- A float by its shortest digits; what is not finite becomes null. -/
def float (x : Binary32) : Json :=
  if x.isFinite then
    .number { negative := x.negative, decimal := x.shortest Layout.json.tie, whole := false }
  else .null

/-! ## §2. Strings -/

/-- The letter behind a backslash that stands for a character. -/
def escapeLetter : Char → Option Char
  | '"' => some '"'
  | '\\' => some '\\'
  | '\x08' => some 'b'
  | '\x0c' => some 'f'
  | '\n' => some 'n'
  | '\r' => some 'r'
  | '\t' => some 't'
  | _ => none

/-- A control by its number, in four hexadecimal digits. -/
def numbered (c : Char) : List Char :=
  let ds := Nat.toDigits 16 c.toNat
  ['\\', 'u'] ++ List.replicate (4 - ds.length) '0' ++ ds

/-- Whether a character is a control, which strings only hold by its number or letter. -/
def isControl (c : Char) : Bool := c.toNat < 0x20

/-- One character inside a string. -/
def escape (c : Char) : List Char :=
  match escapeLetter c with
  | some letter => ['\\', letter]
  | none => if isControl c then numbered c else [c]

/-- A string between quotes. -/
def quoted (s : String) : List Char := '"' :: s.toList.flatMap escape ++ ['"']

/-! ## §3. Layout -/

/-- A new line at the given depth. -/
def newline (depth : Nat) : List Char := '\n' :: List.replicate (2 * depth) ' '

mutual

/-- A value as it stands at the given depth. -/
def render (depth : Nat) : Json → List Char
  | .null => "null".toList
  | .bool b => (if b then "true" else "false").toList
  | .number n => n.text
  | .string s => quoted s
  | .array [] => ['[', ']']
  | .array (item :: items) =>
    '[' :: newline (depth + 1) ++ render (depth + 1) item ++ renderItems depth items ++
      newline depth ++ [']']
  | .object [] => ['\x7b', '\x7d']
  | .object ((name, value) :: members) =>
    '\x7b' :: newline (depth + 1) ++ quoted name ++ [':', ' '] ++ render (depth + 1) value ++
      renderMembers depth members ++ newline depth ++ ['\x7d']

/-- The items behind the first one. -/
def renderItems (depth : Nat) : List Json → List Char
  | [] => []
  | item :: items =>
    ',' :: newline (depth + 1) ++ render (depth + 1) item ++ renderItems depth items

/-- The members behind the first one. -/
def renderMembers (depth : Nat) : List (String × Json) → List Char
  | [] => []
  | (name, value) :: members =>
    ',' :: newline (depth + 1) ++ quoted name ++ [':', ' '] ++ render (depth + 1) value ++
      renderMembers depth members

end

/-- The text of a value. -/
def pretty (j : Json) : String := String.ofList (j.render 0)

end Json

end ShaderFlow
