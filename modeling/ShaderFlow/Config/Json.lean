/-
  ShaderFlow.Config.Json — settings and library functions as JSON.

  As in the text form, settings may leave out any part and any setting.

  Main definitions:
    * `Config.decode` — settings;
    * `ShaderFunction.decode` — a function for the library.
-/

import ShaderFlow.Config.Text
import ShaderFlow.Document.Json

namespace ShaderFlow

/-- Decodes layout settings. -/
def Formatting.decode (j : Json) : Decoding Formatting := do
  let fs ← Decode.fields ["indent", "precision"] j
  let base : Formatting := {}
  return {
    indent := ← fs.getD "indent" Decode.text base.indent
    precision := ← fs.getD "precision" (Decode.word Precision.named?) base.precision }

/-- Decodes settings for materials. -/
def MaterialOptions.decode (j : Json) : Decoding MaterialOptions := do
  let fs ← Decode.fields ["vertex_template", "fragment_template"] j
  return {
    vertexTemplate := ← fs.getD "vertex_template" (Decode.optional Decode.text) none
    fragmentTemplate := ← fs.getD "fragment_template" (Decode.optional Decode.text) none }

/-- Decodes settings for particle simulations. -/
def ParticlesOptions.decode (j : Json) : Decoding ParticlesOptions := do
  let fs ← Decode.fields ["channels_per_texture", "texture_prefix"] j
  let base : ParticlesOptions := {}
  let channels ←
    fs.getD "channels_per_texture" (Decode.natural 255) base.channelsPerTexture.toNat
  return {
    channelsPerTexture := UInt8.ofNat channels
    texturePrefix := ← fs.getD "texture_prefix" Decode.text base.texturePrefix }

/-- Decodes settings for point builders. -/
def PointOptions.decode (j : Json) : Decoding PointOptions := do
  let fs ← Decode.fields ["function_name", "point_variable"] j
  let base : PointOptions := {}
  return {
    functionName := ← fs.getD "function_name" Decode.text base.functionName
    pointVariable := ← fs.getD "point_variable" Decode.text base.pointVariable }

/-- Decodes settings. -/
def Config.decode (j : Json) : Decoding Config := do
  let fs ← Decode.fields ["formatting", "material", "particles", "points"] j
  return {
    formatting := ← fs.getD "formatting" Formatting.decode {}
    material := ← fs.getD "material" MaterialOptions.decode {}
    particles := ← fs.getD "particles" ParticlesOptions.decode {}
    points := ← fs.getD "points" PointOptions.decode {} }

/-- Decodes a function for the library. -/
def ShaderFunction.decode (j : Json) : Decoding ShaderFunction := do
  let fs ← Decode.fields ["name", "description", "inputs", "output", "source"] j
  return {
    name := ← fs.get "name" Decode.text
    description := ← fs.get "description" Decode.text
    inputs := ← fs.get "inputs" (Decode.list PortSpec.decode)
    output := ← fs.get "output" PortType.decode
    source := ← fs.get "source" Decode.text }

end ShaderFlow
