/-
  ShaderFlow.Markup.Parts — lists and tuples.

  Parts are separated by commas, and one may follow the last part.

  Main definitions:
    * `Reader.list`, `Reader.tuple`, `Reader.pair` — parts in brackets or parentheses;
    * `Reader.parts` — all parts up to a closing character;
    * `Reader.enclosed` — what stands in parentheses.
-/

import ShaderFlow.Markup.Reader

namespace ShaderFlow.Reader

variable {α β : Type}

/-! ## §1. Parts between commas -/

/-- Whether another part follows: anything but the closing character, and only behind a
    comma. -/
def another (close : Char) (separated : Bool) : Reader Bool := do
  skipBlank
  if (← peek) == some close then pure false
  else if separated then pure true
  else expected "a comma"

/-- One part that has to be there, and whether a comma follows it. -/
def part (close : Char) (separated : Bool) (r : Reader α) : Reader (α × Bool) := do
  if ← another close separated then
    let a ← nested r
    pure (a, ← comma)
  else expected "another part"

/-- All parts up to the closing character.  Each takes at least one character. -/
def parts (close : Char) (r : Reader α) : (rounds : Nat) → (separated : Bool) → Reader (List α)
  | 0, _ => expected "the end of the parts"
  | rounds + 1, separated => do
    if ← another close separated then
      let a ← nested r
      let separated ← comma
      return a :: (← parts close r rounds separated)
    else pure []

/-! ## §2. Brackets and parentheses -/

/-- A list. -/
def list (r : Reader α) : Reader (List α) := do
  take '[' "a list"
  let rounds := (← rest).length + 1
  let items ← nested (parts ']' r rounds true)
  skipBlank
  take ']' "the end of a list"
  pure items

/-- What stands in parentheses, one level deeper; with `bare` the parentheses belong to
    something else. -/
def enclosed (bare : Bool) (r : Reader α) : Reader α := do
  if !bare then take '(' "an opening parenthesis"
  let a ← nested r
  if !bare then take ')' "a closing parenthesis"
  pure a

/-- The given number of parts of one type. -/
def repeated (r : Reader α) : (count : Nat) → (separated : Bool) → Reader (List α)
  | 0, _ => pure []
  | count + 1, separated => do
    let (a, separated) ← part ')' separated r
    return a :: (← repeated r count separated)

/-- A tuple of the given number of parts of one type. -/
def tuple (bare : Bool) (count : Nat) (r : Reader α) : Reader (List α) :=
  enclosed bare (repeated r count true)

/-- A tuple of two parts. -/
def pair (bare : Bool) (first : Reader α) (second : Reader β) : Reader (α × β) :=
  enclosed bare do
    let (a, separated) ← part ')' true first
    let (b, _) ← part ')' separated second
    pure (a, b)

end ShaderFlow.Reader
