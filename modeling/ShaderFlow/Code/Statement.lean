/-
  ShaderFlow.Code.Statement — the statements of generated code.

  Statements keep the structure of what they say (which variable is declared, what is read,
  which block opens) and are turned into text only when a program is put together.

  Main definitions:
    * `Operand`, `Expr`, `Place`, `Statement` — the code;
    * `Statement.render` — its text.
-/

import ShaderFlow.Graph.MathOp

namespace ShaderFlow

/-! ## §1. Operands -/

/-- Where a value comes from. -/
inductive Operand where
  /-- A variable of the body. -/
  | var (name : String)
  | literal (value : Value)
  /-- The zero of a type. -/
  | zero (type : PortType)
  | uniform (name : String)
  | attribute (name : String)
  | varying (name : String)
  /-- A field of the point that is being built. -/
  | field (record name : String)
  /-- Channels of a state texture as they were in the last frame. -/
  | channels (texture swizzle : String)
  /-- A name that the stage provides. -/
  | builtin (name : String)
  /-- A value of one type as a value of another. -/
  | convert (source target : PortType) (operand : Operand)
deriving Repr, DecidableEq

namespace Operand

/-- A value of type `source` as one of type `target`. -/
def as (o : Operand) (source target : PortType) : Operand :=
  if source = target then o else .convert source target o

/-- The text of an operand. -/
def render : Operand → String
  | .var name => name
  | .literal value => value.literal
  | .zero type => type.zeroLiteral
  | .uniform name => name
  | .attribute name => name
  | .varying name => name
  | .field record name => record ++ "." ++ name
  | .channels texture swizzle => "texture2D(" ++ texture ++ ", particleUV)." ++ swizzle
  | .builtin name => name
  | .convert source target operand => source.convert target operand.render

end Operand

/-! ## §2. Expressions -/

/-- What a statement computes. -/
inductive Expr where
  | operand (operand : Operand)
  | math (op : MathOp) (args : List Operand)
  | call (function : String) (args : List Operand)
  /-- A normal in view space. -/
  | viewNormal (normal : Operand)
  /-- A color with its opacity. -/
  | withAlpha (color alpha : Operand)
deriving Repr, DecidableEq

namespace Expr

/-- The text of an expression. -/
def render : Expr → String
  | .operand o => o.render
  | .math op args => op.expression (args.map Operand.render)
  | .call function args =>
    function ++ "(" ++ String.intercalate ", " (args.map Operand.render) ++ ")"
  | .viewNormal normal => "normalize(normalMatrix * " ++ normal.render ++ ")"
  | .withAlpha color alpha => "vec4(" ++ color.render ++ ", " ++ alpha.render ++ ")"

end Expr

/-! ## §3. Statements -/

/-- What a statement assigns to. -/
inductive Place where
  /-- A variable that was declared before. -/
  | var (name : String)
  | varying (name : String)
  /-- Channels of the state texture that the stage computes. -/
  | channels (swizzle : String)
  /-- A field of the point that is being built. -/
  | field (record name : String)
deriving Repr, DecidableEq

namespace Place

/-- The text of a place. -/
def render : Place → String
  | .var name => name
  | .varying name => name
  | .channels swizzle => "gl_FragColor." ++ swizzle
  | .field record name => record ++ "." ++ name

end Place

/-- A line of a body. -/
inductive Statement where
  /-- Declares a variable with its value. -/
  | declare (type : PortType) (name : String) (value : Expr)
  | assign (place : Place) (value : Expr)
  /-- Opens a block, which runs if the condition holds, or always. -/
  | openBlock (condition : Option Operand)
  /-- Closes the last open block. -/
  | closeBlock
  /-- A line given as text. -/
  | raw (text : String)
deriving Repr, DecidableEq

namespace Statement

/-- The text of a statement. -/
def render : Statement → String
  | .declare type name value => type.declare name ++ " = " ++ value.render ++ ";"
  | .assign place value => place.render ++ " = " ++ value.render ++ ";"
  | .openBlock none => "if (true) \x7b"
  | .openBlock (some condition) => "if (" ++ condition.render ++ ") \x7b"
  | .closeBlock => "\x7d"
  | .raw text => text

end Statement

/-- A statement with the white space in front of it. -/
structure Entry where
  pad : String := ""
  statement : Statement
deriving Repr, DecidableEq

namespace Entry

/-- The text of a line. -/
def text (e : Entry) : String := e.pad ++ e.statement.render

/-- A line with more white space in front. -/
def indent (unit : String) (e : Entry) : Entry := { e with pad := unit ++ e.pad }

end Entry

end ShaderFlow
