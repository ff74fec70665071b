/-
  ShaderFlow.Markup.Scalars — numbers and truth values in a document.

  Integers may be written in four bases with underscores between digits; floats in decimal,
  with or without a point and a power of ten.  A suffix may name the width of a number, which
  then has to be the expected one.  Where any number will do, an integer that is too large,
  or that turns out to have a power of ten, is a float.

  Main definitions:
    * `Reader.integer`, `Reader.byte`, `Reader.float`, `Reader.bool` — values of one type;
    * `Reader.anyNumber` — a number of any type, for its extent only.
-/

import ShaderFlow.Markup.Texts
import ShaderFlow.Number.Binary32

namespace ShaderFlow

/-! ## §1. Decimal numerals -/

/-- A decimal numeral: `digits * 10 ^ exponent` with a sign. -/
structure Numeral where
  negative : Bool
  digits : Nat
  exponent : Int
deriving Repr, DecidableEq

namespace Numeral

/-- The value of a run of decimal digits. -/
def ofDigits (ds : List Char) : Nat := ds.foldl (fun n c => n * 10 + (c.toNat - '0'.toNat)) 0

/-- Takes a sign and says whether it was a minus. -/
def sign : List Char → Bool × List Char
  | '-' :: rest => (true, rest)
  | '+' :: rest => (false, rest)
  | text => (false, text)

/-- Reads the power of ten that ends a numeral, if there is one; nothing may follow it. -/
def exponent? : List Char → Option Int
  | [] => some 0
  | c :: rest =>
    if c == 'e' || c == 'E' then
      let (negative, ds) := sign rest
      if ds.isEmpty || !ds.all Char.isDigit then none
      else
        let e : Int := ofDigits ds
        some (if negative then -e else e)
    else none

/-- Reads a whole numeral: digits with or without a point, at least one of them, and perhaps
    a power of ten. -/
def ofChars? (text : List Char) : Option Numeral :=
  let (negative, body) := sign text
  let whole := body.takeWhile Char.isDigit
  let rest := body.drop whole.length
  let (fraction, rest) :=
    match rest with
    | '.' :: more =>
      let ds := more.takeWhile Char.isDigit
      (ds, more.drop ds.length)
    | _ => ([], rest)
  if whole.isEmpty && fraction.isEmpty then none
  else (exponent? rest).map fun e =>
    { negative, digits := ofDigits (whole ++ fraction), exponent := e - fraction.length }

/-- The single-precision number nearest to a numeral. -/
def toBinary32 (n : Numeral) : Binary32 := Binary32.ofDecimal n.negative n.digits n.exponent

end Numeral

/-! ## §2. Integers -/

/-- A type of integers: its range, and the suffix that names it. -/
structure IntegerType where
  suffix : String
  /-- The distance from zero to the least integer. -/
  below : Nat
  /-- The greatest integer. -/
  above : Nat
deriving Repr, DecidableEq

namespace IntegerType

/-- Integers of a width that may be negative. -/
def signed (width : Nat) : IntegerType where
  suffix := "i" ++ toString width
  below := Nat.pow 2 (width - 1)
  above := Nat.pow 2 (width - 1) - 1

/-- Integers of a width from zero on. -/
def unsigned (width : Nat) : IntegerType where
  suffix := "u" ++ toString width
  below := 0
  above := Nat.pow 2 width - 1

/-- The types that a suffix can name. -/
def all : List IntegerType := [8, 16, 32, 64].flatMap fun width => [signed width, unsigned width]

/-- Every integer of some type. -/
def widest : IntegerType where
  suffix := ""
  below := (signed 64).below
  above := (unsigned 64).above

end IntegerType

namespace Reader

/-- Whether a character may stand in an integer. -/
def isIntegerChar (c : Char) : Bool := (hexValue? c).isSome || c == '_'

/-- The base that the start of an integer names. -/
def base : List Char → Nat × List Char
  | '0' :: 'b' :: rest => (2, rest)
  | '0' :: 'o' :: rest => (8, rest)
  | '0' :: 'x' :: rest => (16, rest)
  | text => (10, text)

/-- The number that digits in a base spell, behind a number that was spelt already.  Fails
    where it stops: before a digit that is foreign to the base, or at `after`, the end of the
    whole number, as soon as the number exceeds `most`. -/
def spell (base most : Nat) (after : List Char) : Nat → List Char → Except (List Char) Nat
  | n, [] => .ok n
  | n, c :: ds =>
    match hexValue? c with
    | none => spell base most after n ds
    | some digit =>
      if most < n * base then .error after
      else if base ≤ digit then .error (c :: ds ++ after)
      else if most < n * base + digit then .error after
      else spell base most after (n * base + digit) ds

/-- An integer with its type and what follows it.  The type is the one that a suffix behind
    the digits names, else the given one.  Fails where it stops, having taken everything up to
    there. -/
def takeInteger (type : IntegerType) (text : List Char) :
    Except (List Char) (IntegerType × Int × List Char) :=
  let (negative, unsigned) := Numeral.sign text
  let behind := unsigned.dropWhile isIntegerChar
  let named := IntegerType.all.find? fun t => startsWord t.suffix behind
  let type := named.getD type
  let (base, body) := base unsigned
  let ds := body.takeWhile isIntegerChar
  let after := (body.drop ds.length).drop (named.elim 0 (·.suffix.length))
  if ds.isEmpty then .error after
  else if ds.head? == some '_' then .error body
  else
    (spell base (if negative then type.below else type.above) after 0 ds).map fun n =>
      (type, if negative then -n else n, after)

/-- An integer of a type. -/
def integer (type : IntegerType) : Reader Int := scan fun text =>
  match takeInteger type text with
  | .ok (found, n, after) =>
    if found = type then .ok (n, after)
    else .error (.expected ("an integer of type " ++ type.suffix))
  | .error _ => .error (.expected "an integer in range")

/-- A byte: an integer, or a character between apostrophes behind a `b`. -/
def byte : Reader Nat := do
  match ← rest with
  | 'b' :: '\'' :: _ => find byteChar? "a byte"
  | _ => return (← integer (.unsigned 8)).toNat

/-! ## §3. Floats -/

/-- Whether a character may stand in a float. -/
def isFloatChar (c : Char) : Bool :=
  c.isDigit || c == 'e' || c == 'E' || c == '.' || c == '+' || c == '-' || c == '_'

/-- Drops the underscores of a float.  One may follow a digit, the mark of the power of ten
    or another underscore, but not the point. -/
def dropUnderscores : (allowed : Bool) → List Char → Option (List Char)
  | _, [] => some []
  | allowed, '_' :: rest => if allowed then dropUnderscores allowed rest else none
  | allowed, c :: rest =>
    let allowed := if c.isDigit || c == 'e' || c == 'E' then true
      else if c == '.' then false else allowed
    (dropUnderscores allowed rest).map (c :: ·)

/-- The words for the floats that are not numerals. -/
def floatWords : List (String × Binary32) :=
  [("inf", .infinity false), ("+inf", .infinity false), ("-inf", .infinity true),
   ("NaN", .nan false), ("+NaN", .nan false), ("-NaN", .nan true)]

/-- A width of floats. -/
inductive FloatWidth where
  | single
  | double
deriving Repr, DecidableEq

/-- The suffix that names a width. -/
def FloatWidth.suffix : FloatWidth → String
  | .single => "f32"
  | .double => "f64"

/-- Takes the suffix that names a width, if there is one. -/
def takeWidth (text : List Char) : Option FloatWidth × List Char :=
  match [FloatWidth.single, .double].find? fun w => startsWord w.suffix text with
  | some w => (some w, text.drop w.suffix.length)
  | none => (none, text)

/-- A float by its word, with the width that its suffix names and what follows it. -/
def takeFloatWord (text : List Char) : Option (Binary32 × Option FloatWidth × List Char) :=
  floatWords.findSome? fun (word, x) =>
    let (width, after) := takeWidth (text.drop word.length)
    if startsWord (word ++ width.elim "" (·.suffix)) text then some (x, width, after) else none

/-- A float with the width that its suffix names and what follows it. -/
def takeFloat (text : List Char) : Option (Binary32 × Option FloatWidth × List Char) :=
  (takeFloatWord text).or <|
    let numeral := text.takeWhile isFloatChar
    ((dropUnderscores false numeral).bind Numeral.ofChars?).map fun n =>
      (n.toBinary32, takeWidth (text.drop numeral.length))

/-- A float of single precision. -/
def float : Reader Binary32 := scan fun text =>
  match takeFloat text with
  | some (x, width, after) =>
    if width = some .double then .error (.expected "a float of width f32") else .ok (x, after)
  | none => .error (.expected "a float")

/-! ## §4. Any number, and truth values -/

/-- What follows a number of any type.  A number with more characters of a float than of an
    integer is a float; any other is an integer, or else a float that reaches at least as far
    as the integer did. -/
def pastNumber? (text : List Char) : Option (List Char) :=
  let (_, body) := Numeral.sign text
  let pastFloat := (takeFloat text).map fun (_, _, after) => after
  if (body.takeWhile isIntegerChar).length < (body.takeWhile isFloatChar).length then pastFloat
  else
    match takeInteger .widest text with
    | .ok (_, _, after) => some after
    | .error stop => pastFloat.filter fun after => after.length ≤ stop.length

/-- A number of any type. -/
def anyNumber : Reader Unit := past pastNumber? "a number"

/-- A truth value. -/
def bool : Reader Bool := do
  if ← word? "true" then pure true
  else if ← word? "false" then pure false
  else expected "a truth value"

end Reader

end ShaderFlow
