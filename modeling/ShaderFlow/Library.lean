/-
  ShaderFlow.Library — the functions that function nodes can call.

  A library holds functions by name, in the order in which the names were first registered.
  A function registered again replaces its predecessor in the same place.

  Main definitions:
    * `Library.standard` — the functions that come with every compiler;
    * `Library.callKind?` — the kind of a node that calls a function.
-/

import ShaderFlow.Graph.Basic
import ShaderFlow.Table

namespace ShaderFlow

/-- A function in code. -/
structure ShaderFunction where
  name : String
  description : String
  /-- Parameters in call order. -/
  inputs : List PortSpec
  /-- What the function returns. -/
  output : PortType
  /-- The whole definition. -/
  source : String
deriving Repr, DecidableEq

/-- Functions by name. -/
structure Library where
  functions : Table String ShaderFunction := []
deriving Repr, DecidableEq

namespace Library

/-- Registers a function under its name. -/
def register (l : Library) (f : ShaderFunction) : Library :=
  { functions := l.functions.put f.name f }

/-- The function of the given name. -/
def get? (l : Library) (name : String) : Option ShaderFunction := l.functions.get? name

/-- The functions in order. -/
def toList (l : Library) : List ShaderFunction := l.functions.values

/-- The kind of a node that calls a function, with the signature it is registered with. -/
def callKind? (l : Library) (name : String) : Option Kind :=
  (l.get? name).map fun f => .function f.name f.inputs f.output

/-! ## §1. The standard functions -/

/-- A definition from its lines: the head, the indented statements and a closing brace. -/
def definition (head : String) (statements : List String) : String :=
  String.intercalate "\n" ([head ++ " \x7b"] ++ statements.map ("\t" ++ ·) ++ ["\x7d"])

/-- The brightness of a linear color. -/
def luminance : ShaderFunction where
  name := "luminance"
  description := "Relative luminance of a linear RGB color"
  inputs := [⟨"color", .vector3⟩]
  output := .float
  source := definition "float luminance(vec3 color)"
    ["return dot(color, vec3(0.2126, 0.7152, 0.0722));"]

/-- A number that looks random, from a point of the plane. -/
def hash12 : ShaderFunction where
  name := "hash12"
  description := "Pseudo-random value in [0, 1) from a 2D seed"
  inputs := [⟨"p", .vector2⟩]
  output := .float
  source := definition "float hash12(vec2 p)"
    ["vec3 p3 = fract(vec3(p.xyx) * 0.1031);",
     "p3 += dot(p3, p3.yzx + 33.33);",
     "return fract((p3.x + p3.y) * p3.z);"]

/-- A rotation of the plane. -/
def rotate2d : ShaderFunction where
  name := "rotate2d"
  description := "Rotate a 2D vector counter-clockwise"
  inputs := [⟨"v", .vector2⟩, ⟨"angle", .float⟩]
  output := .vector2
  source := definition "vec2 rotate2d(vec2 v, float angle)"
    ["float s = sin(angle);",
     "float c = cos(angle);",
     "return vec2(c * v.x - s * v.y, s * v.x + c * v.y);"]

/-- A linear map between two ranges. -/
def remap : ShaderFunction where
  name := "remap"
  description := "Linearly map a value between ranges"
  inputs := [⟨"x", .float⟩, ⟨"from_min", .float⟩, ⟨"from_max", .float⟩, ⟨"to_min", .float⟩,
    ⟨"to_max", .float⟩]
  output := .float
  source := definition
    "float remap(float x, float from_min, float from_max, float to_min, float to_max)"
    ["return to_min + (x - from_min) * (to_max - to_min) / (from_max - from_min);"]

/-- The library that comes with every compiler. -/
def standard : Library := [luminance, hash12, rotate2d, remap].foldl register {}

end Library

end ShaderFlow
