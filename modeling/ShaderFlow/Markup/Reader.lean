/-
  ShaderFlow.Markup.Reader — reading RON, the text form of documents and settings.

  RON writes records as `(field: value, ..)`, lists as `[..]`, variants by name and
  texts in quotes, with white space and comments anywhere between them.  A reader takes what
  is left of the text and returns a value with the new rest, or says what it expected.  It
  carries the options that the text switched on, how much deeper values may still nest, and
  a supply of identities for the nodes of nested networks.

  Main definitions:
    * `Reader` — the readers, a monad;
    * `Reader.skipBlank`, `Reader.name` — white space with comments, and names;
    * `Reader.nested` — one level deeper, where there is room.
-/

import ShaderFlow.Text.Identifier
import ShaderFlow.Graph.Edit

namespace ShaderFlow

/-! ## §1. Readers -/

/-- Why a text could not be read. -/
inductive ReadError where
  /-- The text has something else where this should stand. -/
  | expected (what : String)
  /-- Values nest too deeply. -/
  | tooDeep
  /-- A value was well formed, but its content was refused with this text. -/
  | refused (message : String)
deriving Repr, DecidableEq

namespace ReadError

/-- The text of a read error. -/
def message : ReadError → String
  | .expected what => "expected " ++ what
  | .tooDeep => "values nest too deeply"
  | .refused text => text

end ReadError

/-- Options that a text can switch on in its first lines. -/
structure Dialect where
  /-- An optional value may stand without `Some`. -/
  implicitSome : Bool := false
  /-- A record or tuple inside a variant has no parentheses of its own. -/
  bareVariants : Bool := false
  /-- A record has to show its name. -/
  explicitNames : Bool := false
deriving Repr, DecidableEq

/-- What a reader is told. -/
structure Setting where
  dialect : Dialect := {}
  /-- How many levels deeper values may nest. -/
  room : Nat
deriving Repr, DecidableEq

/-- What a reader changes. -/
structure Cursor where
  rest : List Char
  supply : Supply
deriving Repr, DecidableEq

/-- A reader of values of one type. -/
def Reader (α : Type) : Type := Setting → Cursor → Except ReadError (α × Cursor)

instance : Monad Reader where
  pure a := fun _ c => .ok (a, c)
  bind r f := fun s c =>
    match r s c with
    | .error e => .error e
    | .ok (a, c) => f a s c

namespace Reader

variable {α : Type}

/-- Fails, naming what was expected. -/
def expected (what : String) : Reader α := fun _ _ => .error (.expected what)

/-- Fails because of the content of a value. -/
def refused (message : String) : Reader α := fun _ _ => .error (.refused message)

/-- The dialect of the text. -/
def dialect : Reader Dialect := fun s c => .ok (s.dialect, c)

/-- What is left of the text. -/
def rest : Reader (List Char) := fun _ c => .ok (c.rest, c)

/-- Goes on from another point of the text. -/
def goTo (rest : List Char) : Reader Unit := fun _ c => .ok ((), { c with rest })

/-- Applies a function on the rest of the text that cannot be told more than that. -/
def scan (f : List Char → Except ReadError (α × List Char)) : Reader α := fun _ c =>
  (f c.rest).map fun (a, rest) => (a, { c with rest })

/-- Applies a function that finds a value at the start of the rest of the text, if it can. -/
def find (f : List Char → Option (α × List Char)) (what : String) : Reader α := scan fun text =>
  match f text with
  | some found => .ok found
  | none => .error (.expected what)

/-- Skips what a function finds the end of. -/
def past (f : List Char → Option (List Char)) (what : String) : Reader Unit :=
  find (fun text => (f text).map ((), ·)) what

/-- Uses the supply of identities. -/
def supplied (f : Supply → α × Supply) : Reader α := fun _ c =>
  let (a, supply) := f c.supply
  .ok (a, { c with supply })

/-- Reads a value one level deeper. -/
def nested (r : Reader α) : Reader α := fun s c =>
  match s.room with
  | 0 => .error .tooDeep
  | room + 1 => r { s with room } c

/-! ## §2. Characters -/

/-- The character that comes next. -/
def peek : Reader (Option Char) := fun _ c => .ok (c.rest.head?, c)

/-- Takes a character if it comes next, and says whether it did. -/
def take? (x : Char) : Reader Bool := fun _ c =>
  match c.rest with
  | y :: rest => if x == y then .ok (true, { c with rest }) else .ok (false, c)
  | [] => .ok (false, c)

/-- Takes a character that has to come next. -/
def take (x : Char) (what : String) : Reader Unit := do
  if ← take? x then pure () else expected what

/-! ## §3. White space and comments -/

/-- What is being skipped. -/
inductive Skipping where
  | blanks
  /-- A comment up to the end of its line. -/
  | line
  /-- A comment inside this many others. -/
  | block (enclosing : Nat)
deriving Repr, DecidableEq

/-- White space between the parts of a document. -/
def isBlank (c : Char) : Bool :=
  c == ' ' || c == '\t' || c == '\n' || c == '\r' || c == '\x0b' || c == '\x0c' ||
    c == '\u0085' || c == '\u200e' || c == '\u200f' || c == '\u2028' || c == '\u2029'

/-- Skips white space and comments.  A comment between `/*` and `*/` may hold others. -/
def skip : Skipping → List Char → Except ReadError (List Char)
  | .blanks, '/' :: '/' :: rest => skip .line rest
  | .blanks, '/' :: '*' :: rest => skip (.block 0) rest
  | .blanks, '/' :: _ => .error (.expected "a comment")
  | .blanks, c :: rest => if isBlank c then skip .blanks rest else .ok (c :: rest)
  | .line, '\n' :: rest => skip .blanks rest
  | .line, _ :: rest => skip .line rest
  | .block n, '/' :: '*' :: rest => skip (.block (n + 1)) rest
  | .block 0, '*' :: '/' :: rest => skip .blanks rest
  | .block (n + 1), '*' :: '/' :: rest => skip (.block n) rest
  | .block n, _ :: rest => skip (.block n) rest
  | .blanks, [] => .ok []
  | .line, [] => .ok []
  | .block _, [] => .error (.expected "the end of a comment")

/-- Skips white space and comments. -/
def skipBlank : Reader Unit := scan fun text => (skip .blanks text).map ((), ·)

/-- Takes a comma and the white space around it, and says whether there was one. -/
def comma : Reader Bool := do
  skipBlank
  if ← take? ',' then
    skipBlank
    pure true
  else pure false

/-! ## §4. Names -/

/-- Whether a character may begin a name. -/
def isNameStart (c : Char) : Bool :=
  if c.toNat < 0x80 then c.isAlpha || c == '_' else CodePoints.nameStart.has c

/-- Whether a character may continue a name. -/
def isNamePart (c : Char) : Bool :=
  if c.toNat < 0x80 then c.isAlphanum || c == '_' else CodePoints.namePart.has c

/-- Whether a character may stand in a name that is marked as raw. -/
def isRawNamePart (c : Char) : Bool := c == '.' || c == '+' || c == '-' || isNamePart c

/-- The name at the start of a text with what follows it, if there is one.  A name must not
    run into a character of raw names, and the prefix of a raw or binary text is no name. -/
def name? (text : List Char) : Option (String × List Char) :=
  match text with
  | 'r' :: '#' :: rest =>
    let raw := rest.takeWhile isRawNamePart
    if raw.isEmpty then none else some (String.ofList raw, rest.drop raw.length)
  | 'r' :: '"' :: _ | 'b' :: '"' :: _ | 'b' :: '\'' :: _ | 'b' :: 'r' :: '"' :: _
  | 'b' :: 'r' :: '#' :: _ => none
  | c :: _ =>
    let plain := text.takeWhile isNamePart
    if isNameStart c && (text.takeWhile isRawNamePart).length == plain.length then
      some (String.ofList plain, text.drop plain.length)
    else none
  | [] => none

/-- Reads a name. -/
def name : Reader String := find name? "a name"

/-- Whether a text starts with a word that no character of names continues. -/
def startsWord (word : String) (text : List Char) : Bool :=
  word.toList.isPrefixOf text &&
    !((text.drop word.toList.length).head?.any isNamePart)

/-- Takes a word if it comes next, and says whether it did. -/
def word? (word : String) : Reader Bool := scan fun text =>
  if startsWord word text then .ok (true, text.drop word.toList.length) else .ok (false, text)

/-! ## §5. The first lines of a text -/

/-- How deep the values of a text may nest. -/
def nestingLimit : Nat := 128

/-- Takes one part after the other, each with the white space behind it, and says whether
    all were there. -/
def takeAll : List String → Reader Bool
  | [] => pure true
  | part :: parts => do
    let text ← rest
    let found := part.toList.isPrefixOf text
    if found then
      goTo (text.drop part.toList.length)
      skipBlank
    let others ← takeAll parts
    pure (found && others)

/-- The option of the given name. -/
def Dialect.enable? (d : Dialect) : String → Option Dialect
  | "implicit_some" => some { d with implicitSome := true }
  | "unwrap_variant_newtypes" => some { d with bareVariants := true }
  | "explicit_struct_names" => some { d with explicitNames := true }
  | "unwrap_newtypes" => some d
  | _ => none

/-- Reads the names of options up to the end of their list. -/
def options : (rounds : Nat) → Dialect → Reader Dialect
  | 0, _ => expected "the end of the options"
  | rounds + 1, d => do
    let option ← name
    match Dialect.enable? d option with
    | none => expected "a known option"
    | some d =>
      let separated ← comma
      let another := (← peek).any isNamePart
      if another && !separated then expected "a comma"
      else if another then options rounds d
      else pure d

/-- Reads the lines that switch options on, as many as there are. -/
def header : (rounds : Nat) → Dialect → Reader Dialect
  | 0, d => pure d
  | rounds + 1, d => do
    if (← peek) != some '#' then pure d
    else if ← takeAll ["#", "!", "[", "enable", "("] then
      skipBlank
      let d ← options (← rest).length d
      skipBlank
      if ← takeAll [")", "]"] then
        skipBlank
        header rounds d
      else expected "the end of the options"
    else expected "a list of options"

/-- Reads a whole text: options, one value, and nothing behind it. -/
def readAll (r : Reader α) (text : String) (supply : Supply) : Except ReadError (α × Supply) :=
  let start : Reader Dialect := do
    skipBlank
    header (← rest).length {}
  match start { room := nestingLimit } { rest := text.toList, supply } with
  | .error e => .error e
  | .ok (dialect, c) =>
    let whole : Reader α := do
      let a ← r
      skipBlank
      if (← rest).isEmpty then pure a else expected "the end of the text"
    (whole { dialect, room := nestingLimit } c).map fun (a, c) => (a, c.supply)

end Reader

end ShaderFlow
