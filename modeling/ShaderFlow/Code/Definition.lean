/-
  ShaderFlow.Code.Definition — what is declared outside the body of a stage.

  Declarations are told apart by category and name: a stage keeps the first one of each, and
  a second one is welcome only if it reads the same.
-/

import ShaderFlow.Graph.Basic
import ShaderFlow.Text.Lines

namespace ShaderFlow

/-- How precise floats are by default. -/
inductive Precision where
  | low
  | medium
  | high
deriving Repr, DecidableEq

/-- The word for a precision in code. -/
def Precision.keyword : Precision → String
  | .low => "lowp"
  | .medium => "mediump"
  | .high => "highp"

/-- The categories of declarations, in the order in which a stage lists them. -/
inductive DefinitionKind where
  | precision
  | attribute
  | varying
  | uniform
  | function
deriving Repr, DecidableEq

namespace DefinitionKind

/-- All categories in order. -/
def all : List DefinitionKind := [.precision, .attribute, .varying, .uniform, .function]

end DefinitionKind

/-- A declaration outside the body of a stage. -/
inductive Declaration where
  /-- The default precision of floats. -/
  | precision (qualifier : Precision)
  /-- An input that each vertex has. -/
  | attribute (type : PortType) (name : String)
  /-- A value that the vertex stage writes and the fragment stage reads. -/
  | varying (type : PortType) (name : String)
  /-- A value that the host sets. -/
  | uniform (type : PortType) (name : String)
  /-- A helper function with its result and its whole definition. -/
  | function (result : PortType) (name source : String)
deriving Repr, DecidableEq

namespace Declaration

/-- The category of a declaration. -/
def kind : Declaration → DefinitionKind
  | .precision _ => .precision
  | .attribute .. => .attribute
  | .varying .. => .varying
  | .uniform .. => .uniform
  | .function .. => .function

/-- The name that is declared. -/
def name : Declaration → String
  | .precision _ => "float"
  | .attribute _ name | .varying _ name | .uniform _ name | .function _ name _ => name

/-- The type of what is declared. -/
def type : Declaration → PortType
  | .precision _ => .float
  | .attribute type _ | .varying type _ | .uniform type _ | .function type _ _ => type

/-- The definition of a function. -/
def source? : Declaration → Option String
  | .function _ _ source => some source
  | _ => none

/-- What tells a declaration apart from others of a stage. -/
def key (d : Declaration) : DefinitionKind × String := (d.kind, d.name)

/-- A declaration in code.  A function is its definition without white space at the end. -/
def line : Declaration → String
  | .precision qualifier => "precision " ++ qualifier.keyword ++ " float;"
  | .attribute type name => "attribute " ++ type.declare name ++ ";"
  | .varying type name => "varying " ++ type.declare name ++ ";"
  | .uniform type name => "uniform " ++ type.declare name ++ ";"
  | .function _ _ source => Text.trimEnd source

end Declaration

/-- A declaration and the node that asked for it first. -/
structure Definition where
  owner : NodeId
  declaration : Declaration
deriving Repr, DecidableEq

end ShaderFlow
