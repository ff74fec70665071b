/-
  ShaderFlow.Config.Text — the text form of settings, which is RON.

  A text may leave out any part and any setting; what it leaves out keeps its default.
  Written settings are complete and show the names of their records.

  Main definitions:
    * `Config.text` — settings as text;
    * `Config.ofText` — a text as settings.
-/

import ShaderFlow.Config.Basic
import ShaderFlow.Markup.Structure
import ShaderFlow.Markup.Writer

namespace ShaderFlow

/-! ## §1. Precision -/

namespace Precision

/-- The name of a precision in a text. -/
def documentName : Precision → String
  | .low => "Low"
  | .medium => "Medium"
  | .high => "High"

/-- The precision of the given name. -/
def named? (name : String) : Option Precision :=
  [.low, .medium, .high].find? (·.documentName == name)

/-- Reads a precision. -/
def reader : Reader Precision := Reader.word named? "a precision"

end Precision

/-! ## §2. The parts -/

namespace Formatting

/-- The form of the layout settings. -/
def form (f : Formatting) : Form :=
  .record "FormattingOptions"
    [("indent", .text f.indent), ("precision", .word f.precision.documentName)]

/-- Reads layout settings. -/
def reader : Reader Formatting := do
  let known : List (Reader.Field (Option String × Option Precision)) :=
    [.slot "indent" (·.1) (fun s a => (some a, s.2)) Reader.text,
     .slot "precision" (·.2) (fun s a => (s.1, some a)) Precision.reader]
  let s ← Reader.record "FormattingOptions" false known (none, none)
  let base : Formatting := {}
  pure { indent := s.1.getD base.indent, precision := s.2.getD base.precision }

end Formatting

namespace MaterialOptions

/-- The form of the settings for materials. -/
def form (m : MaterialOptions) : Form :=
  .record "MaterialOptions"
    [("vertex_template", .optionalText m.vertexTemplate),
     ("fragment_template", .optionalText m.fragmentTemplate)]

/-- Reads settings for materials. -/
def reader : Reader MaterialOptions := do
  let known : List (Reader.Field (Option (Option String) × Option (Option String))) :=
    [.slot "vertex_template" (·.1) (fun s a => (some a, s.2)) (Reader.optional Reader.text),
     .slot "fragment_template" (·.2) (fun s a => (s.1, some a)) (Reader.optional Reader.text)]
  let s ← Reader.record "MaterialOptions" false known (none, none)
  pure { vertexTemplate := s.1.getD none, fragmentTemplate := s.2.getD none }

end MaterialOptions

namespace ParticlesOptions

/-- The form of the settings for particle simulations. -/
def form (p : ParticlesOptions) : Form :=
  .record "ParticlesOptions"
    [("channels_per_texture", .int p.channelsPerTexture.toNat),
     ("texture_prefix", .text p.texturePrefix)]

/-- Reads a number of channels. -/
def channelsReader : Reader UInt8 := do return UInt8.ofNat (← Reader.byte)

/-- Reads settings for particle simulations. -/
def reader : Reader ParticlesOptions := do
  let known : List (Reader.Field (Option UInt8 × Option String)) :=
    [.slot "channels_per_texture" (·.1) (fun s a => (some a, s.2)) channelsReader,
     .slot "texture_prefix" (·.2) (fun s a => (s.1, some a)) Reader.text]
  let s ← Reader.record "ParticlesOptions" false known (none, none)
  let base : ParticlesOptions := {}
  pure {
    channelsPerTexture := s.1.getD base.channelsPerTexture
    texturePrefix := s.2.getD base.texturePrefix }

end ParticlesOptions

namespace PointOptions

/-- The form of the settings for point builders. -/
def form (p : PointOptions) : Form :=
  .record "PointOptions"
    [("function_name", .text p.functionName), ("point_variable", .text p.pointVariable)]

/-- Reads settings for point builders. -/
def reader : Reader PointOptions := do
  let known : List (Reader.Field (Option String × Option String)) :=
    [.slot "function_name" (·.1) (fun s a => (some a, s.2)) Reader.text,
     .slot "point_variable" (·.2) (fun s a => (s.1, some a)) Reader.text]
  let s ← Reader.record "PointOptions" false known (none, none)
  let base : PointOptions := {}
  pure {
    functionName := s.1.getD base.functionName
    pointVariable := s.2.getD base.pointVariable }

end PointOptions

/-! ## §3. The whole -/

/-- What is known of settings while they are being read. -/
structure ConfigSlots where
  formatting : Option Formatting := none
  material : Option MaterialOptions := none
  particles : Option ParticlesOptions := none
  points : Option PointOptions := none

namespace Config

/-- The form of settings. -/
def form (c : Config) : Form :=
  .record "CompilerConfig"
    [("formatting", c.formatting.form), ("material", c.material.form),
     ("particles", c.particles.form), ("points", c.points.form)]

/-- Settings as text. -/
def text (c : Config) : String := c.form.pretty

/-- Reads settings. -/
def reader : Reader Config := do
  let known : List (Reader.Field ConfigSlots) :=
    [.slot "formatting" (·.formatting) (fun s a => { s with formatting := some a })
      Formatting.reader,
     .slot "material" (·.material) (fun s a => { s with material := some a })
      MaterialOptions.reader,
     .slot "particles" (·.particles) (fun s a => { s with particles := some a })
      ParticlesOptions.reader,
     .slot "points" (·.points) (fun s a => { s with points := some a }) PointOptions.reader]
  let s ← Reader.record "CompilerConfig" false known {}
  pure {
    formatting := s.formatting.getD {}
    material := s.material.getD {}
    particles := s.particles.getD {}
    points := s.points.getD {} }

/-- The settings that a text holds. -/
def ofText (text : String) : Except ReadError Config :=
  (Reader.readAll reader text {}).map (·.1)

end Config

end ShaderFlow
