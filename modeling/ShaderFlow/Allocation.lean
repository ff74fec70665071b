/-
  ShaderFlow.Allocation — where the attributes of particles are stored.

  Each attribute of a particle system lives in channels of a state texture that lasts from
  frame to frame.  The table of places is rebuilt only when the set of attributes, their
  types or the way of packing changes: an attribute that moved would lose its value.

  Main definitions:
    * `Allocations` — the table;
    * `Allocations.update` — brings it in line with what a graph asks for;
    * `AttributeAllocation.swizzle` — the channels of an attribute.
-/

import ShaderFlow.Compile.Error
import ShaderFlow.Table

namespace ShaderFlow

/-! ## §1. The table -/

/-- An attribute that a node reads or writes. -/
structure AttributeRequest where
  name : String
  type : PortType
  node : NodeRef
deriving Repr, DecidableEq

/-- Where an attribute is stored. -/
structure AttributeAllocation where
  name : String
  /-- The widest type asked for. -/
  type : PortType
  /-- The index of the state texture, and of the stage that computes it. -/
  texture : Nat
  /-- The first channel. -/
  offset : Nat
deriving Repr, DecidableEq

/-- A texture that keeps attributes from frame to frame. -/
structure StateTexture where
  index : Nat
  /-- The name of its sampler. -/
  name : String
  /-- The attributes stored in it, in channel order. -/
  attributes : List String
  /-- How many channels are in use. -/
  used : Nat
deriving Repr, DecidableEq

/-- How attributes are packed. -/
structure Packing where
  channels : Nat
  texturePrefix : String
deriving Repr, DecidableEq

/-- The places of all attributes. -/
structure Allocations where
  /-- How often the table was rebuilt. -/
  generation : Nat := 0
  attributes : Table String AttributeAllocation := []
  textures : List StateTexture := []
  /-- The attributes that the table was built for. -/
  signature : Table String PortType := []
  /-- The packing that the table was built with. -/
  packing : Option Packing := none
deriving Repr, DecidableEq

/-- The attribute that every particle system stores, in the first channels. -/
def positionName : String := "position"

/-- The channels that hold the first components of an attribute, as they are named in code;
    no name if they do not fit. -/
def AttributeAllocation.swizzle (a : AttributeAllocation) (components : Nat) : String :=
  let count := min components a.type.components
  if a.offset + count ≤ 4 then String.ofList ((['x', 'y', 'z', 'w'].drop a.offset).take count)
  else ""

namespace Allocations

/-- The place of an attribute. -/
def get? (t : Allocations) (name : String) : Option AttributeAllocation := t.attributes.get? name

/-- The sampler of a texture; without the texture it has no name. -/
def textureName (t : Allocations) (index : Nat) : String :=
  (t.textures[index]?.map (·.name)).getD ""

/-! ## §2. What has to be stored -/

/-- Takes one more request into account: the widest type of each attribute counts. -/
def merge (channels : Nat) (merged : Table String PortType) (r : AttributeRequest) :
    Except CompileError (Table String PortType) :=
  let components := r.type.components
  if components == 0 || components > channels then
    .error (.unsupportedAttributeType r.node r.name r.type)
  else
    .ok (merged.change r.name r.type fun type =>
      if components > type.components then r.type else type)

/-- The attributes to be stored with their types: the position first, then the others as
    they were first asked for. -/
def signatureOf (requests : List AttributeRequest) (channels : Nat) :
    Except CompileError (Table String PortType) :=
  if PortType.vector3.components > channels then
    .error (.invalidConfig (.positionWidth channels))
  else requests.foldlM (merge channels) [(positionName, .vector3)]

/-! ## §3. Packing -/

/-- The greatest index that a texture can have. -/
def lastIndex : Nat := 255

/-- Puts an attribute into the first texture with enough channels left, or into a new one. -/
def place (channels : Nat)
    (state : Table String AttributeAllocation × List StateTexture) (stored : String × PortType) :
    Table String AttributeAllocation × List StateTexture :=
  let (attributes, textures) := state
  let (name, type) := stored
  let components := type.components
  let fits (t : StateTexture) : Bool := t.used + components ≤ channels
  let textures :=
    if textures.any fits then textures
    else
      let index := min textures.length lastIndex
      textures ++ [{ index, name := "", attributes := [], used := 0 }]
  let slot := (textures.findIdx? fits).getD (textures.length - 1)
  match textures[slot]? with
  | none => (attributes, textures)
  | some t =>
    let allocation : AttributeAllocation := { name, type, texture := t.index, offset := t.used }
    let filled := { t with used := t.used + components, attributes := t.attributes ++ [name] }
    (attributes.put name allocation, textures.set slot filled)

/-- The name of the sampler of a texture: the prefix and the attributes stored in it. -/
def nameTexture (texturePrefix : String) (t : StateTexture) : StateTexture :=
  { t with name := texturePrefix ++ String.intercalate "_" t.attributes }

/-- Brings the table in line with what is asked for, and says whether it was rebuilt.  The
    same attributes packed in the same way stay where they are. -/
def update (t : Allocations) (requests : List AttributeRequest) (options : ParticlesOptions) :
    Except CompileError (Bool × Allocations) := do
  options.check.mapError .invalidConfig
  let channels := options.channelsPerTexture.toNat
  let signature ← signatureOf requests channels
  let packing : Packing := { channels, texturePrefix := options.texturePrefix }
  if signature == t.signature && some packing == t.packing && !t.textures.isEmpty then
    pure (false, t)
  else
    let (attributes, textures) := signature.foldl (place channels) ([], [])
    pure (true, {
      generation := t.generation + 1
      attributes
      textures := textures.map (nameTexture options.texturePrefix)
      signature
      packing := some packing })

end Allocations

end ShaderFlow
