/-
  ShaderFlow.Port.Type — the types of the values that flow between nodes.

  A port type decides which ports may be wired together and which declaration a value gets
  in the generated code.

  Main definitions:
    * `PortType.declare`, `PortType.zeroLiteral` — a type in code;
    * `PortType.connectsTo` — which source types a target accepts;
    * `PortType.convert` — the code that turns a value of one type into another.
-/

namespace ShaderFlow

/-! ## §1. Types -/

/-- The types an array can hold. -/
inductive ElementType where
  | float
  | vector2
  | vector3
  | vector4
deriving Repr, DecidableEq

/-- The type of a port. -/
inductive PortType where
  | bool
  | int
  | float
  | vector2
  | vector3
  | vector4
  /-- A sampler: it is declared, but never wired between nodes. -/
  | texture
  /-- A fixed number of elements of one type. -/
  | array (element : ElementType) (length : UInt16)
deriving Repr, DecidableEq

/-- The type of a single element. -/
def ElementType.portType : ElementType → PortType
  | .float => .float
  | .vector2 => .vector2
  | .vector3 => .vector3
  | .vector4 => .vector4

namespace PortType

/-! ## §2. Types in code -/

/-- The name of the type of one element of an array. -/
def elementName : ElementType → String
  | .float => "float"
  | .vector2 => "vec2"
  | .vector3 => "vec3"
  | .vector4 => "vec4"

/-- The name of a type in code; an array goes by the name of its elements. -/
def glslName : PortType → String
  | .bool => "bool"
  | .int => "int"
  | .float => "float"
  | .vector2 => "vec2"
  | .vector3 => "vec3"
  | .vector4 => "vec4"
  | .texture => "sampler2D"
  | .array element _ => elementName element

/-- The declarator of a variable: type and name, and the length of an array. -/
def declare (type : PortType) (name : String) : String :=
  match type with
  | .array _ length => type.glslName ++ " " ++ name ++ "[" ++ toString length.toNat ++ "]"
  | _ => type.glslName ++ " " ++ name

/-- How many channels of a render target a value fills; samplers and arrays fit in none. -/
def components : PortType → Nat
  | .bool | .int | .float => 1
  | .vector2 => 2
  | .vector3 => 3
  | .vector4 => 4
  | .texture | .array .. => 0

/-- The zero of the type of one array element. -/
def elementZero : ElementType → String
  | .float => "0.0"
  | element => elementName element ++ "(0.0)"

/-- The zero of a type in code; a sampler has none. -/
def zeroLiteral (type : PortType) : String :=
  match type with
  | .bool => "false"
  | .int => "0"
  | .float => "0.0"
  | .vector2 | .vector3 | .vector4 => type.glslName ++ "(0.0)"
  | .texture => ""
  | .array element length =>
    let items := List.replicate length.toNat (elementZero element)
    type.glslName ++ "[" ++ toString length.toNat ++ "](" ++ String.intercalate ", " items ++ ")"

/-- The float type with the given number of components. -/
def floatVector : Nat → Option PortType
  | 1 => some .float
  | 2 => some .vector2
  | 3 => some .vector3
  | 4 => some .vector4
  | _ => none

/-! ## §3. Wiring and conversion -/

/-- The pairs of different types that may be wired: numbers to each other, and a value to a
    vector that has more components. -/
def widens : PortType → PortType → Bool
  | .int, .float => true
  | .float, .int => true
  | .float, .vector2 => true
  | .float, .vector3 => true
  | .float, .vector4 => true
  | .vector2, .vector3 => true
  | .vector2, .vector4 => true
  | .vector3, .vector4 => true
  | _, _ => false

/-- Whether an output of one type may feed an input of another. -/
def connectsTo (source target : PortType) : Bool := source == target || source.widens target

/-- Code for the value of `expr`, of type `source`, as a value of type `target`.  Besides the
    pairs of `widens` it knows the casts between `bool` and `float` that texture storage
    needs; for any other pair the code is left as it is. -/
def convert (source target : PortType) (expr : String) : String :=
  match source, target with
  | .int, .float => "float(" ++ expr ++ ")"
  | .bool, .float => "float(" ++ expr ++ ")"
  | .float, .int => "int(" ++ expr ++ ")"
  | .float, .bool => "bool(" ++ expr ++ ")"
  | .float, .vector2 => "vec2(" ++ expr ++ ")"
  | .float, .vector3 => "vec3(" ++ expr ++ ")"
  | .float, .vector4 => "vec4(" ++ expr ++ ")"
  | .vector2, .vector3 => "vec3(" ++ expr ++ ", 0.0)"
  | .vector2, .vector4 => "vec4(" ++ expr ++ ", 0.0, 1.0)"
  | .vector3, .vector4 => "vec4(" ++ expr ++ ", 1.0)"
  | _, _ => expr

end PortType

end ShaderFlow
