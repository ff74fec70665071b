/-
  ShaderFlow.Text.Quoted — texts between quotes.

  A quoted text spells controls, quotes, backslashes and everything that would not show as
  itself by an escape, so that it can stand on one line of a document and be read back.
-/

import ShaderFlow.Text.Visible

namespace ShaderFlow.Text

/-- The letter that stands for a character behind a backslash. -/
def escapeLetter : Char → Option Char
  | '\x00' => some '0'
  | '\t' => some 't'
  | '\r' => some 'r'
  | '\n' => some 'n'
  | '\\' => some '\\'
  | '"' => some '"'
  | '\'' => some '\''
  | _ => none

/-- A character by its number, in hexadecimal. -/
def numbered (c : Char) : List Char :=
  ['\\', 'u', '\x7b'] ++ Nat.toDigits 16 c.toNat ++ ['\x7d']

/-- Whether a character is written as itself. -/
def isPlain (c : Char) : Bool :=
  if c.toNat < 0x7f then c.toNat ≥ 0x20
  else !CodePoints.unseen.has c && !CodePoints.attached.has c

/-- The form of one character inside quotes. -/
def escape (c : Char) : List Char :=
  match escapeLetter c with
  | some letter => ['\\', letter]
  | none => if isPlain c then [c] else numbered c

/-- A text between quotes. -/
def quoted (text : String) : String :=
  String.ofList ('"' :: text.toList.flatMap escape ++ ['"'])

end ShaderFlow.Text
