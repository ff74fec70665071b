/-
  ShaderFlow.Markup.Writer — writing RON, the text form of documents and settings.

  A value is first given a form: a word, a list, a tuple, a record, or a variant around
  another form.  Forms are written with one field or list item to a line, each followed by a
  comma and indented by four blanks more than what it is part of; tuples stay on one line.

  Main definitions:
    * `Form` — the forms;
    * `Form.pretty` — the text of a form.
-/

import ShaderFlow.Number.Layout
import ShaderFlow.Text.Quoted

namespace ShaderFlow

/-- How a value is written. -/
inductive Form where
  /-- A number, a quoted text, a truth value or a bare name. -/
  | word (text : String)
  | list (items : List Form)
  /-- Parts on one line, behind a name that may be empty. -/
  | tuple (name : String) (items : List Form)
  /-- Named fields, behind a name that may be empty. -/
  | record (name : String) (fields : List (String × Form))
  /-- A name with a value in parentheses. -/
  | variant (name : String) (value : Form)

/-- Numbers in documents never use a power of ten; a middle goes up. -/
def Layout.document : Layout where
  plain := none
  explicitPlus := false
  tie := .up

/-- A number in a document. -/
def Binary32.documentText (x : Binary32) : String :=
  if x.isFinite then Layout.document.render x
  else (if x.negative then "-" else "") ++ (if x.isNaN then "NaN" else "inf")

namespace Form

/-- A number. -/
def float (x : Binary32) : Form := .word x.documentText

/-- A text. -/
def text (s : String) : Form := .word (Text.quoted s)

/-- A truth value. -/
def bool (b : Bool) : Form := .word (if b then "true" else "false")

/-- An integer. -/
def int (n : Int) : Form := .word (toString n)

/-- An optional text. -/
def optionalText : Option String → Form
  | none => .word "None"
  | some s => .variant "Some" (.text s)

/-! ## §1. Layout -/

/-- The blanks in front of a line. -/
def margin (depth : Nat) : List Char := List.replicate (4 * depth) ' '

mutual

/-- A form as it stands at the given depth. -/
def render (depth : Nat) : Form → List Char
  | word text => text.toList
  | list items =>
    '[' :: (if items.isEmpty then [] else '\n' :: renderItems depth items ++ margin depth) ++ [']']
  | tuple name items => name.toList ++ '(' :: renderParts depth items ++ [')']
  | record name fields =>
    name.toList ++ '(' :: '\n' :: renderFields depth fields ++ margin depth ++ [')']
  | variant name value => name.toList ++ '(' :: render depth value ++ [')']

/-- The items of a list, one to a line. -/
def renderItems (depth : Nat) : List Form → List Char
  | [] => []
  | item :: items =>
    margin (depth + 1) ++ render (depth + 1) item ++ ',' :: '\n' :: renderItems depth items

/-- The parts of a tuple. -/
def renderParts (depth : Nat) : List Form → List Char
  | [] => []
  | [item] => render depth item
  | item :: items => render depth item ++ ',' :: ' ' :: renderParts depth items

/-- The fields of a record, one to a line. -/
def renderFields (depth : Nat) : List (String × Form) → List Char
  | [] => []
  | (name, value) :: fields =>
    margin (depth + 1) ++ name.toList ++ ':' :: ' ' :: render (depth + 1) value ++
      ',' :: '\n' :: renderFields depth fields

end

/-- The text of a form. -/
def pretty (form : Form) : String := String.ofList (form.render 0)

end Form

end ShaderFlow
