import SceneMarkup.CommandLine.Arguments
import SceneMarkup.CommandLine.Footprint
import SceneMarkup.CommandLine.Reading
import SceneMarkup.CommandLine.Run
import SceneMarkup.Component.Conversion
import SceneMarkup.Component.Header
import SceneMarkup.Component.Module
import SceneMarkup.Component.Outline
import SceneMarkup.Component.ResultType
import SceneMarkup.Decimal.Binary
import SceneMarkup.Decimal.Notation
import SceneMarkup.Decimal.Rounding
import SceneMarkup.Decimal.Shortest
import SceneMarkup.Files.FileTree
import SceneMarkup.Files.OsError
import SceneMarkup.Files.Path
import SceneMarkup.Filters.Concatenate
import SceneMarkup.Filters.Count
import SceneMarkup.Filters.Edit
import SceneMarkup.Filters.Edit.Editor
import SceneMarkup.Filters.Edit.Escape
import SceneMarkup.Filters.Edit.Fault
import SceneMarkup.Filters.Edit.Instruction
import SceneMarkup.Filters.Edit.Reader
import SceneMarkup.Filters.Edit.Replacement
import SceneMarkup.Filters.Edit.Run
import SceneMarkup.Filters.Edit.Scan
import SceneMarkup.Filters.Edit.Script
import SceneMarkup.Filters.Filter
import SceneMarkup.Filters.OctetClass
import SceneMarkup.Filters.OctetList
import SceneMarkup.Filters.Octets
import SceneMarkup.Filters.Pattern.Basic
import SceneMarkup.Filters.Pattern.Reader
import SceneMarkup.Filters.Pattern.Token
import SceneMarkup.Filters.Select
import SceneMarkup.Filters.Standard
import SceneMarkup.Filters.Switches
import SceneMarkup.Filters.Translate
import SceneMarkup.Gltf.Accessor
import SceneMarkup.Gltf.Animation
import SceneMarkup.Gltf.Container
import SceneMarkup.Gltf.Contents
import SceneMarkup.Gltf.Document
import SceneMarkup.Gltf.Extensions
import SceneMarkup.Gltf.Material
import SceneMarkup.Gltf.Mesh
import SceneMarkup.Gltf.Node
import SceneMarkup.Gltf.Optics
import SceneMarkup.Gltf.Scalar
import SceneMarkup.Gltf.Validity
import SceneMarkup.Job.Batch
import SceneMarkup.Job.BatchConfig
import SceneMarkup.Job.ByteSize
import SceneMarkup.Job.Convert
import SceneMarkup.Job.Failure
import SceneMarkup.Job.Formatting
import SceneMarkup.Job.Work
import SceneMarkup.Json.Literal
import SceneMarkup.Json.Record
import SceneMarkup.Json.Token
import SceneMarkup.Json.Tree
import SceneMarkup.Json.Value
import SceneMarkup.Json.Writer
import SceneMarkup.Loading.Assembly
import SceneMarkup.Loading.Blueprint
import SceneMarkup.Loading.Fingerprints
import SceneMarkup.Loading.Load
import SceneMarkup.Loading.Objects
import SceneMarkup.Loading.Registry
import SceneMarkup.Loading.Rotation
import SceneMarkup.Main
import SceneMarkup.Markup.Angle
import SceneMarkup.Markup.Attribute
import SceneMarkup.Markup.Element
import SceneMarkup.Markup.Emission
import SceneMarkup.Markup.NodeAttributes
import SceneMarkup.Options.Basic
import SceneMarkup.Options.Fields
import SceneMarkup.Proofs.Accesses
import SceneMarkup.Proofs.Accounting
import SceneMarkup.Proofs.AggressiveRuns
import SceneMarkup.Proofs.Angles
import SceneMarkup.Proofs.Arithmetic
import SceneMarkup.Proofs.Balance
import SceneMarkup.Proofs.Batches
import SceneMarkup.Proofs.Bindings
import SceneMarkup.Proofs.Blocks
import SceneMarkup.Proofs.BlueprintPlacing
import SceneMarkup.Proofs.Bones
import SceneMarkup.Proofs.Building
import SceneMarkup.Proofs.Cancelling
import SceneMarkup.Proofs.Commit
import SceneMarkup.Proofs.Constants
import SceneMarkup.Proofs.Construction
import SceneMarkup.Proofs.Contents
import SceneMarkup.Proofs.Conversions
import SceneMarkup.Proofs.Declarations
import SceneMarkup.Proofs.DefinedOnce
import SceneMarkup.Proofs.Delivery
import SceneMarkup.Proofs.Descent
import SceneMarkup.Proofs.DoubleValues
import SceneMarkup.Proofs.Doubles
import SceneMarkup.Proofs.Drawings
import SceneMarkup.Proofs.DrivenNames
import SceneMarkup.Proofs.EntryExpressions
import SceneMarkup.Proofs.Erasure
import SceneMarkup.Proofs.Exposure
import SceneMarkup.Proofs.Faults
import SceneMarkup.Proofs.FirstMeshes
import SceneMarkup.Proofs.FixedPoint
import SceneMarkup.Proofs.Folds
import SceneMarkup.Proofs.Foresight
import SceneMarkup.Proofs.FreshNames
import SceneMarkup.Proofs.Functions
import SceneMarkup.Proofs.Growth
import SceneMarkup.Proofs.Guards
import SceneMarkup.Proofs.Hooks
import SceneMarkup.Proofs.Imports
import SceneMarkup.Proofs.Indifference
import SceneMarkup.Proofs.Ingredients
import SceneMarkup.Proofs.Instances
import SceneMarkup.Proofs.KeyOrder
import SceneMarkup.Proofs.Layout
import SceneMarkup.Proofs.LeadingComment
import SceneMarkup.Proofs.Legible
import SceneMarkup.Proofs.Lengths
import SceneMarkup.Proofs.LineReader
import SceneMarkup.Proofs.Literals
import SceneMarkup.Proofs.LoopSteps
import SceneMarkup.Proofs.Members
import SceneMarkup.Proofs.Mentions
import SceneMarkup.Proofs.MergedDrawings
import SceneMarkup.Proofs.MergedMaterials
import SceneMarkup.Proofs.Mirroring
import SceneMarkup.Proofs.NameAttributes
import SceneMarkup.Proofs.Naming
import SceneMarkup.Proofs.Nearest
import SceneMarkup.Proofs.Operations
import SceneMarkup.Proofs.Overlay
import SceneMarkup.Proofs.Pairs
import SceneMarkup.Proofs.Passages
import SceneMarkup.Proofs.PathDestinations
import SceneMarkup.Proofs.PlainRuns
import SceneMarkup.Proofs.Planning
import SceneMarkup.Proofs.Powers
import SceneMarkup.Proofs.Preparing
import SceneMarkup.Proofs.Presence
import SceneMarkup.Proofs.Preservation
import SceneMarkup.Proofs.PrintedNumbers
import SceneMarkup.Proofs.PruningMarks
import SceneMarkup.Proofs.ReadBack
import SceneMarkup.Proofs.Reader
import SceneMarkup.Proofs.Readings
import SceneMarkup.Proofs.Redrawn
import SceneMarkup.Proofs.Registering
import SceneMarkup.Proofs.Representatives
import SceneMarkup.Proofs.Rewriting
import SceneMarkup.Proofs.RoundedPlaces
import SceneMarkup.Proofs.Routes
import SceneMarkup.Proofs.Scopes
import SceneMarkup.Proofs.Served
import SceneMarkup.Proofs.Settings
import SceneMarkup.Proofs.SharedObjects
import SceneMarkup.Proofs.Sharing
import SceneMarkup.Proofs.ShortestDigits
import SceneMarkup.Proofs.Significands
import SceneMarkup.Proofs.SoundDecisions
import SceneMarkup.Proofs.Soundness
import SceneMarkup.Proofs.Splicing
import SceneMarkup.Proofs.Standing
import SceneMarkup.Proofs.Stillness
import SceneMarkup.Proofs.Trails
import SceneMarkup.Proofs.Traversals
import SceneMarkup.Proofs.Tree
import SceneMarkup.Proofs.Unrolling
import SceneMarkup.Proofs.Usage
import SceneMarkup.Proofs.Verdicts
import SceneMarkup.Proofs.WorkOutcomes
import SceneMarkup.Proofs.WorldPlacement
import SceneMarkup.Proofs.Written
import SceneMarkup.Proofs.WrittenOnce
import SceneMarkup.Pruning.Plan
import SceneMarkup.Pruning.Rewrite
import SceneMarkup.Pruning.State
import SceneMarkup.Report
import SceneMarkup.Scene.Graph
import SceneMarkup.Scene.Instancing
import SceneMarkup.Scene.Labels
import SceneMarkup.Scene.Merging
import SceneMarkup.Scene.Node
import SceneMarkup.Scene.Vector
import SceneMarkup.Text.Address
import SceneMarkup.Text.Blank
import SceneMarkup.Text.Capital
import SceneMarkup.Text.Decoding
import SceneMarkup.Text.Names
