import ShaderFlow.Allocation
import ShaderFlow.Artifact
import ShaderFlow.Backend.Basic
import ShaderFlow.Backend.Globals
import ShaderFlow.Backend.Material
import ShaderFlow.Backend.Particles
import ShaderFlow.Backend.Points
import ShaderFlow.Code.Definition
import ShaderFlow.Code.Listing
import ShaderFlow.Code.Stage
import ShaderFlow.Code.Statement
import ShaderFlow.Code.Template
import ShaderFlow.Compile.Emission
import ShaderFlow.Compile.Error
import ShaderFlow.Compile.Needs
import ShaderFlow.Compile.Pass
import ShaderFlow.Compile.Scope
import ShaderFlow.Compile.SideRoots
import ShaderFlow.Compile.Site
import ShaderFlow.Compile.Traversal
import ShaderFlow.Config.Basic
import ShaderFlow.Config.Json
import ShaderFlow.Config.Text
import ShaderFlow.Delivery.Bundle
import ShaderFlow.Delivery.Command
import ShaderFlow.Delivery.Disk
import ShaderFlow.Document.Basic
import ShaderFlow.Document.Json
import ShaderFlow.Document.Text
import ShaderFlow.Graph.Basic
import ShaderFlow.Graph.Content
import ShaderFlow.Graph.Edit
import ShaderFlow.Graph.Marks
import ShaderFlow.Graph.MathOp
import ShaderFlow.Json.Basic
import ShaderFlow.Json.Decode
import ShaderFlow.Json.Reader
import ShaderFlow.Library
import ShaderFlow.Main
import ShaderFlow.Markup.Ignored
import ShaderFlow.Markup.Parts
import ShaderFlow.Markup.Reader
import ShaderFlow.Markup.Scalars
import ShaderFlow.Markup.Structure
import ShaderFlow.Markup.Texts
import ShaderFlow.Markup.Writer
import ShaderFlow.Number.Binary
import ShaderFlow.Number.Binary32
import ShaderFlow.Number.Layout
import ShaderFlow.Number.Shortest
import ShaderFlow.Port.Basic
import ShaderFlow.Port.Type
import ShaderFlow.Port.Value
import ShaderFlow.Program
import ShaderFlow.Table
import ShaderFlow.Text.CodePoints
import ShaderFlow.Text.Identifier
import ShaderFlow.Text.Lines
import ShaderFlow.Text.Quoted
import ShaderFlow.Text.Visible
import ShaderFlow.Proofs.DependencyOrder
import ShaderFlow.Proofs.Basic
import ShaderFlow.Proofs.Names
import ShaderFlow.Proofs.Variables
import ShaderFlow.Proofs.Shapes
import ShaderFlow.Proofs.Leaves
import ShaderFlow.Proofs.Emission
import ShaderFlow.Proofs.Declarations
import ShaderFlow.Proofs.Wiring
import ShaderFlow.Proofs.Scoping
import ShaderFlow.Proofs.Meaning
import ShaderFlow.Proofs.Running
import ShaderFlow.Proofs.Evaluation
import ShaderFlow.Proofs.Subnets
import ShaderFlow.Proofs.Results
import ShaderFlow.Proofs.Editing
import ShaderFlow.Proofs.Preservation
import ShaderFlow.Proofs.Requests
import ShaderFlow.Proofs.Packing
import ShaderFlow.Proofs.Storage
import ShaderFlow.Proofs.Sites
import ShaderFlow.Proofs.Collection
import ShaderFlow.Proofs.Coverage
import ShaderFlow.Proofs.Histories
import ShaderFlow.Proofs.Attempts
import ShaderFlow.Proofs.Lines
import ShaderFlow.Proofs.Templates
import ShaderFlow.Proofs.Definitions
import ShaderFlow.Proofs.Parameters
import ShaderFlow.Proofs.Writers
import ShaderFlow.Proofs.Writes
import ShaderFlow.Proofs.Agreement
import ShaderFlow.Proofs.Interface
import ShaderFlow.Proofs.Varyings
import ShaderFlow.Proofs.Relays
import ShaderFlow.Proofs.Cycles
import ShaderFlow.Proofs.FreeNames
import ShaderFlow.Proofs.Edits
import ShaderFlow.Proofs.WellFormed
import ShaderFlow.Proofs.Retyping
import ShaderFlow.Proofs.Marks
import ShaderFlow.Proofs.Staleness
import ShaderFlow.Proofs.Origins
import ShaderFlow.Proofs.Upkeep
import ShaderFlow.Proofs.Screening
import ShaderFlow.Proofs.Copies
import ShaderFlow.Proofs.Counterparts
import ShaderFlow.Proofs.Simulation
import ShaderFlow.Proofs.Renaming
import ShaderFlow.Proofs.Pruning
import ShaderFlow.Proofs.Endpoints
import ShaderFlow.Proofs.Loading
import ShaderFlow.Proofs.Saving
import ShaderFlow.Proofs.Recovery
import ShaderFlow.Proofs.Crossings
import ShaderFlow.Proofs.Connecting
import ShaderFlow.Proofs.Splices
import ShaderFlow.Proofs.Nesting
import ShaderFlow.Proofs.Listings
import ShaderFlow.Proofs.Visits
import ShaderFlow.Proofs.Fields
import ShaderFlow.Proofs.HostNeeds
import ShaderFlow.Proofs.Modes
import ShaderFlow.Proofs.FileNames
import ShaderFlow.Proofs.Quoting
import ShaderFlow.Proofs.Reading
import ShaderFlow.Proofs.Rounding
import ShaderFlow.Proofs.Numerals
import ShaderFlow.Proofs.JsonTokens
import ShaderFlow.Proofs.JsonTexts
import ShaderFlow.Proofs.Manifests
import ShaderFlow.Proofs.Settings
import ShaderFlow.Proofs.Documents
