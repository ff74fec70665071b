/-
  ShaderFlow.Json.Decode — JSON values as values of other types.

  Records come as objects, or as arrays of their fields in order; members that are no fields
  are ignored.  Variants come as their names, or as objects of one member whose key is the
  name.  Decoding hands out identities for the nodes of nested networks.

  Main definitions:
    * `Decoding` — the monad;
    * `Decode.integer`, `Decode.float`, `Decode.list`, … — plain values;
    * `Decode.variant`, `Decode.record` — variants and records.
-/

import ShaderFlow.Json.Basic
import ShaderFlow.Markup.Reader

namespace ShaderFlow

/-- The decoding of a value, which may take identities and may fail. -/
abbrev Decoding (α : Type) := StateT Supply (Except ReadError) α

namespace Decode

variable {α σ : Type}

/-- Fails, naming what was expected. -/
def expected (what : String) : Decoding α := throw (.expected what)

/-! ## §1. Plain values -/

/-- A string. -/
def text : Json → Decoding String
  | .string s => pure s
  | _ => expected "a string"

/-- A truth value. -/
def flag : Json → Decoding Bool
  | .bool b => pure b
  | _ => expected "true or false"

/-- The items of an array. -/
def list (item : Json → Decoding α) : Json → Decoding (List α)
  | .array items => items.mapM item
  | _ => expected "an array"

/-- A value that may be null. -/
def optional (value : Json → Decoding α) : Json → Decoding (Option α)
  | .null => pure none
  | j => some <$> value j

/-- The integer that a number is, if it is written as one; negative zero is none. -/
def integer? (n : Json.Number) : Option Int :=
  if !n.whole || n.negative && n.decimal.digits == 0 then none
  else if n.negative then some (-n.decimal.digits)
  else some n.decimal.digits

/-- An integer between two bounds. -/
def integer (least greatest : Int) : Json → Decoding Int
  | .number n =>
    match integer? n with
    | some i => if least ≤ i ∧ i ≤ greatest then pure i else expected "an integer in range"
    | none => expected "an integer"
  | _ => expected "an integer"

/-- A natural number up to a bound. -/
def natural (greatest : Nat) (j : Json) : Decoding Nat := Int.toNat <$> integer 0 greatest j

/-- Whether an integer has 64 bits, with or without a sign. -/
def isWord (i : Int) : Bool := -(Int.pow 2 63) ≤ i && i < Int.pow 2 64

/-- The float that a number stands for: an integer of 64 bits is rounded once, any other
    number goes through double precision. -/
def floatOf (n : Json.Number) : Binary32 :=
  if (integer? n).any isWord then .ofDecimal n.negative n.decimal.digits 0
  else .ofDecimalViaDouble n.negative n.decimal.digits n.decimal.exponent

/-- A float. -/
def float : Json → Decoding Binary32
  | .number n => pure (floatOf n)
  | _ => expected "a number"

/-! ## §2. Variants -/

/-- The name of a variant and its content, if there is any. -/
def variant : Json → Decoding (String × Option Json)
  | .string name => pure (name, none)
  | .object [(name, content)] => pure (name, some content)
  | _ => expected "a variant"

/-- The content of a variant. -/
def content (value : Json → Decoding α) : Option Json → Decoding α
  | some j => value j
  | none => expected "the content of a variant"

/-- A variant without content. -/
def word (named? : String → Option α) (j : Json) : Decoding α := do
  match ← variant j with
  | (name, none) | (name, some .null) =>
    match named? name with
    | some a => pure a
    | none => expected "a known variant"
  | _ => expected "a variant without content"

/-! ## §3. Records -/

/-- A record, one field after the other: the members of an object in their order, or the
    items of an array in the order of the fields. -/
def record (fields : List String) (field : σ → String → Json → Decoding σ) (start : σ) :
    Json → Decoding σ
  | .object members =>
    (members.filter (fields.contains ·.1)).foldlM (fun s m => field s m.1 m.2) start
  | .array items => do
    let s ← (fields.zip items).foldlM (fun s m => field s m.1 m.2) start
    if items.length ≤ fields.length then pure s else expected "no further items"
  | _ => expected "a record"

/-- The fields of a record by name, before they are decoded. -/
abbrev Fields := List (String × Json)

/-- The fields of a record. -/
def fields (names : List String) : Json → Decoding Fields :=
  record names (fun fs name j => pure (fs ++ [(name, j)])) []

/-- A field that has to be there. -/
def Fields.get (fs : Fields) (name : String) (value : Json → Decoding α) : Decoding α :=
  match fs.find? (·.1 == name) with
  | some (_, j) => value j
  | none => expected ("the field " ++ name)

/-- A field with a default. -/
def Fields.getD (fs : Fields) (name : String) (value : Json → Decoding α) (default : α) :
    Decoding α :=
  match fs.find? (·.1 == name) with
  | some (_, j) => value j
  | none => pure default

/-- What has been found of a record. -/
def found (name : String) : Option α → Decoding α
  | some a => pure a
  | none => expected ("the field " ++ name)

end Decode

end ShaderFlow
