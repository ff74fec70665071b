/-
  ShaderFlow.Markup.Structure — records, variants and optional values.

  A record may show its name in front; fields that nobody asked for are skipped, fields that
  come twice are not.  A variant is a name, with what belongs to it behind it.

  Main definitions:
    * `Reader.record`, `Reader.fields` — records by their fields;
    * `Reader.variant`, `Reader.payload` — variants and the values inside them;
    * `Reader.optional` — optional values.
-/

import ShaderFlow.Markup.Ignored

namespace ShaderFlow.Reader

variable {α σ : Type}

/-! ## §1. Records -/

/-- A field of a record: how its value changes what is known of the record. -/
structure Field (σ : Type) where
  name : String
  /-- Whether the field was there already. -/
  isSet : σ → Bool
  /-- Reads the value. -/
  value : σ → Reader σ

/-- A field whose value is kept in an optional slot. -/
def Field.slot (name : String) (get : σ → Option α) (set : σ → α → σ) (r : Reader α) : Field σ where
  name := name
  isSet s := (get s).isSome
  value s := do return set s (← r)

/-- Reads the fields of a record up to the closing parenthesis. -/
def fields (known : List (Field σ)) :
    (rounds : Nat) → (separated : Bool) → σ → Reader σ
  | 0, _, _ => expected "the end of a record"
  | rounds + 1, separated, s => do
    if ← another ')' separated then
      let key ← nested name
      let value ←
        match known.find? (·.name == key) with
        | some field =>
          if field.isSet s then expected "each field once" else pure (field.value s)
        | none => pure (do ignored (nestingLimit + 1); pure s)
      skipBlank
      take ':' "a colon"
      skipBlank
      let s ← nested value
      fields known rounds (← comma) s
    else pure s

/-- The name in front of a record, which has to be the given one where there is one. -/
def recordName (expectedName : String) : Reader Unit := do
  if (← peek).any isNamePart then
    if (← name) == expectedName then pure () else expected expectedName
  else if (← dialect).explicitNames then expected expectedName
  else pure ()

/-- A record with the given name and fields, from what is known before the first field. -/
def record (recordType : String) (bare : Bool) (known : List (Field σ)) (start : σ) : Reader σ := do
  if !bare then recordName recordType
  skipBlank
  let rounds := (← rest).length + 1
  enclosed bare (fields known rounds true start)

/-- The value of a slot that has to be set. -/
def required (slot : Option α) (fieldName : String) : Reader α :=
  match slot with
  | some a => pure a
  | none => expected ("the field " ++ fieldName)

/-! ## §2. Variants and optional values -/

/-- A variant, given how to read what follows its name. -/
def variant (r : String → Reader α) : Reader α := nested do
  skipBlank
  r (← nested name)

/-- A variant that is a name of a table. -/
def word (named? : String → Option α) (what : String) : Reader α :=
  variant fun name =>
    match named? name with
    | some a => pure a
    | none => expected what

/-- The value inside a variant; the reader is told whether the value has to share the
    parentheses of the variant. -/
def payload (r : Bool → Reader α) : Reader α := do
  skipBlank
  take '(' "an opening parenthesis"
  skipBlank
  let bare := (← dialect).bareVariants
  let a ← nested (r bare)
  let _ ← comma
  take ')' "a closing parenthesis"
  pure a

/-- An optional value. -/
def optional (r : Reader α) : Reader (Option α) := do
  if ← word? "None" then pure none
  else
    let marked ← word? "Some"
    if marked then skipBlank
    if ← (if marked then take? '(' else pure false) then
      skipBlank
      let a ← nested r
      let _ ← comma
      take ')' "a closing parenthesis"
      pure (some a)
    else if (← dialect).implicitSome then return some (← nested r)
    else expected "an optional value"

end ShaderFlow.Reader
