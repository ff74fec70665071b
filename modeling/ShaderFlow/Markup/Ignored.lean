/-
  ShaderFlow.Markup.Ignored — values that nobody asked for.

  A field that a record does not know may have any value.  The value is read for its extent
  only, by the form it shows; it still has to be well formed and to fit into the room.

  Main definitions:
    * `Reader.ignored` — a value of any form.
-/

import ShaderFlow.Markup.Parts
import ShaderFlow.Markup.Scalars

namespace ShaderFlow.Reader

/-! ## §1. Looking ahead -/

/-- Whether the parentheses at the start of a text hold named fields. -/
def holdsFields (text : List Char) : Bool :=
  match text with
  | '(' :: rest =>
    match (skip .blanks rest).toOption.bind name? with
    | some (_, after) => ((skip .blanks after).toOption.bind List.head?) == some ':'
    | none => false
  | _ => false

/-- What the parentheses of a variant hold when the value inside has none of its own. -/
inductive Content where
  | nothing
  | fields
  /-- More than one part. -/
  | parts
  /-- One value, with or without a comma behind it. -/
  | value
deriving Repr, DecidableEq

/-- Whether a comma is followed by anything but a closing parenthesis. -/
def partFollows (afterComma : List Char) : Except ReadError Bool :=
  (skip .blanks afterComma).map fun rest => rest.head? != some ')'

/-- Drops a text, a character and a run of bytes from the start of a text, each if it is
    there. -/
def dropLiterals (text : List Char) : List Char :=
  [pastChar?, pastText?, pastBytes?].foldl (fun text past => (past text).getD text) text

/-- Whether a comma separates two parts before `depth` open brackets and the parentheses around
    them close.  Brackets of all kinds count alike; those in literals and comments do not. -/
def separates : (rounds depth : Nat) → List Char → Except ReadError Bool
  | 0, _, _ => .error (.expected "a closing parenthesis")
  | rounds + 1, depth, text =>
    match (skip .blanks text).map dropLiterals with
    | .error e => .error e
    | .ok [] => .error (.expected "a closing parenthesis")
    | .ok (c :: rest) =>
      if c == '(' || c == '[' || c == '\x7b' then separates rounds (depth + 1) rest
      else if c == ')' || c == ']' || c == '\x7d' then
        match depth with
        | 0 => .ok false
        | depth + 1 => separates rounds depth rest
      else if c == ',' && depth == 0 then partFollows rest
      else separates rounds depth rest

/-- What parentheses hold, judged by the text behind the opening one. -/
def content (text : List Char) : Except ReadError Content := do
  let several (separated : Bool) : Content := if separated then .parts else .value
  let scanned (text : List Char) := (separates (text.length + 1) 0 text).map several
  if text.head? == some ')' then .ok .nothing
  else
    match name? text with
    | none => scanned text
    | some (_, after) =>
      match ← skip .blanks after with
      | ':' :: _ => .ok .fields
      | ',' :: rest => (partFollows rest).map several
      | rest => scanned rest

/-! ## §2. Values by their form -/

/-- Words that are values by themselves. -/
def valueWords : List String :=
  ["true", "false", "None", "inf", "inff32", "inff64", "NaN", "NaNf32", "NaNf64"]

/-- A key and a value, with a colon between them. -/
def entry (key value : Reader Unit) : Reader Unit := do
  key
  skipBlank
  take ':' "a colon"
  skipBlank
  value

/-- All parts up to a closing character. -/
def ignoredParts (close : Char) (part : Reader Unit) : Reader Unit := do
  let _ ← parts close part ((← rest).length + 1) true

/-- Named fields. -/
def ignoredFields (value : Reader Unit) : Reader Unit :=
  ignoredParts ')' (entry (do let _ ← name) value)

/-- What stands in parentheses, given how to read the values in it. -/
def ignoredGroup (value : Reader Unit) : Reader Unit := do
  if holdsFields (← rest) then enclosed false (ignoredFields value)
  else enclosed false (ignoredParts ')' value)

/-- A map, given how to read the values in it. -/
def ignoredMap (value : Reader Unit) : Reader Unit := do
  take '\x7b' "a map"
  nested (ignoredParts '\x7d' (entry value value))
  skipBlank
  take '\x7d' "the end of a map"

/-- What follows the opening parenthesis of an optional value, in a dialect whose variants
    share their parentheses with the value inside. -/
def ignoredContent (value : Reader Unit) : Reader Unit := do
  match content (← rest) with
  | .error e => fun _ _ => .error e
  | .ok .nothing => pure ()
  | .ok .fields => enclosed true (ignoredFields value)
  | .ok .parts => enclosed true (ignoredParts ')' value)
  | .ok .value => value

/-- An optional value behind `Some`, given how to read the value in it. -/
def ignoredOptional (value : Reader Unit) : Reader Unit := do
  skipBlank
  if ← take? '(' then
    skipBlank
    nested (if (← dialect).bareVariants then ignoredContent value else value)
    let _ ← comma
    take ')' "a closing parenthesis"
  else if (← dialect).implicitSome then nested value
  else expected "an optional value"

/-- A value that neither a word nor a name begins, given how to read the values in it. -/
def ignoredPlain (value : Reader Unit) : Reader Unit := do
  match ← rest with
  | '(' :: ')' :: after => goTo after
  | '(' :: _ => ignoredGroup value
  | '[' :: _ => let _ ← list value
  | '\x7b' :: _ => ignoredMap value
  | '"' :: _ | 'r' :: _ => past pastText? "a text"
  | 'b' :: '\'' :: _ => let _ ← byte
  | 'b' :: _ => past pastBytes? "bytes"
  | '\'' :: _ => past pastChar? "a character"
  | _ => anyNumber

/-- A value of any form that nests at most `levels` deep. -/
def ignored : (levels : Nat) → Reader Unit
  | 0 => fun _ _ => .error .tooDeep
  | levels + 1 => do
    let text ← rest
    if ← word? "Some" then ignoredOptional (ignored levels)
    else
      match valueWords.find? (startsWord · text), name? text with
      | some word, _ => goTo (text.drop word.length)
      | none, some (_, after) =>
        goTo after
        skipBlank
        if (← peek) == some '(' then ignoredGroup (ignored levels)
      | none, none => ignoredPlain (ignored levels)

end ShaderFlow.Reader
