/-
  ShaderFlow.Config.Basic — the settings of the compiler.

  Settings come in four parts, each with defaults of its own: the layout of code, materials,
  particle simulations and point builders.

  Main definitions:
    * `Config` and its parts;
    * `Config.check` — whether a render target can hold what the settings ask for.
-/

import ShaderFlow.Code.Definition
import ShaderFlow.Library

namespace ShaderFlow

/-- The layout of generated code. -/
structure Formatting where
  /-- One unit of indentation. -/
  indent : String := "\t"
  precision : Precision := .high
deriving Repr, DecidableEq

/-- Settings for materials: templates in place of the built-in ones. -/
structure MaterialOptions where
  vertexTemplate : Option String := none
  fragmentTemplate : Option String := none
deriving Repr, DecidableEq

/-- Settings for particle simulations. -/
structure ParticlesOptions where
  /-- How many float channels of each state texture may be used. -/
  channelsPerTexture : UInt8 := 4
  /-- What the names of the samplers begin with. -/
  texturePrefix : String := "texture_"
deriving Repr, DecidableEq

/-- Settings for point builders. -/
structure PointOptions where
  /-- The name of the generated function. -/
  functionName : String := "build_point"
  /-- The name of its parameter. -/
  pointVariable : String := "point"
deriving Repr, DecidableEq

/-- The settings of the compiler. -/
structure Config where
  formatting : Formatting := {}
  material : MaterialOptions := {}
  particles : ParticlesOptions := {}
  points : PointOptions := {}
deriving Repr, DecidableEq

/-- A setting that no backend can follow. -/
inductive ConfigFault where
  /-- A render target has no such number of channels. -/
  | channelCount (channels : Nat)
  /-- The channels cannot hold a position. -/
  | positionWidth (channels : Nat)
deriving Repr, DecidableEq

namespace ConfigFault

/-- The setting at fault. -/
def option : ConfigFault → String
  | .channelCount _ | .positionWidth _ => "particles.channels_per_texture"

/-- What is wrong with it. -/
def reason : ConfigFault → String
  | .channelCount n => toString n ++ " is outside 1..=4"
  | .positionWidth n => toString n ++ " channels cannot hold the vec3 position"

/-- The text of a fault. -/
def message (f : ConfigFault) : String := "invalid " ++ f.option ++ ": " ++ f.reason

end ConfigFault

/-- How many channels a render target has. -/
def ParticlesOptions.maxChannels : Nat := 4

/-- Refuses numbers of channels that no render target has. -/
def ParticlesOptions.check (o : ParticlesOptions) : Except ConfigFault Unit :=
  let channels := o.channelsPerTexture.toNat
  if 1 ≤ channels && channels ≤ maxChannels then .ok () else .error (.channelCount channels)

/-- Refuses settings that no backend can follow. -/
def Config.check (c : Config) : Except ConfigFault Unit := c.particles.check

/-- What a compilation reads besides the graph. -/
structure Context where
  config : Config := {}
  library : Library := .standard
deriving Repr, DecidableEq

end ShaderFlow
