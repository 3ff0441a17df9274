import ArrayBridge.Arguments
import ArrayBridge.Bridge.Call
import ArrayBridge.Bridge.CallSite
import ArrayBridge.Bridge.Diagnostic
import ArrayBridge.Bridge.Fault
import ArrayBridge.Bridge.Handle
import ArrayBridge.Bridge.HostValue
import ArrayBridge.Bridge.Indexing
import ArrayBridge.Bridge.Interpreter
import ArrayBridge.Bridge.Iteration
import ArrayBridge.Bridge.Marshal
import ArrayBridge.Bridge.Result
import ArrayBridge.Bridge.Session
import ArrayBridge.Buffer
import ArrayBridge.Choice
import ArrayBridge.Configuration
import ArrayBridge.Configuration.Fault
import ArrayBridge.Configuration.Notation
import ArrayBridge.Configuration.Settings
import ArrayBridge.Contents
import ArrayBridge.Element
import ArrayBridge.Engine.Nest
import ArrayBridge.Engine.Numeric
import ArrayBridge.Engine.Protocol
import ArrayBridge.Engine.Sampling
import ArrayBridge.Engine.Start
import ArrayBridge.Engine.State
import ArrayBridge.Euclid
import ArrayBridge.Exception
import ArrayBridge.FileSystem
import ArrayBridge.ForeignRuntime
import ArrayBridge.Generator
import ArrayBridge.Heap
import ArrayBridge.Installation
import ArrayBridge.Lifecycle
import ArrayBridge.Lifecycle.Threads
import ArrayBridge.Native
import ArrayBridge.NdArray
import ArrayBridge.NdArray.Reshape
import ArrayBridge.NdArray.Select
import ArrayBridge.Object
import ArrayBridge.ObjectId
import ArrayBridge.Proofs.AccessFaults
import ArrayBridge.Proofs.AccessOutcome
import ArrayBridge.Proofs.Addressing
import ArrayBridge.Proofs.AdvancedIndexing
import ArrayBridge.Proofs.ArgumentBinding
import ArrayBridge.Proofs.Assignment
import ArrayBridge.Proofs.Atomicity
import ArrayBridge.Proofs.AxisSums
import ArrayBridge.Proofs.Balance
import ArrayBridge.Proofs.BasicIndexing
import ArrayBridge.Proofs.BridgeConservation
import ArrayBridge.Proofs.BroadcastLaws
import ArrayBridge.Proofs.Broadcasting
import ArrayBridge.Proofs.Building
import ArrayBridge.Proofs.CallAnswers
import ArrayBridge.Proofs.CallPreparation
import ArrayBridge.Proofs.CallReplies
import ArrayBridge.Proofs.CallSpelling
import ArrayBridge.Proofs.CheckedSizes
import ArrayBridge.Proofs.Choices
import ArrayBridge.Proofs.Collection
import ArrayBridge.Proofs.Commitment
import ArrayBridge.Proofs.Conservation
import ArrayBridge.Proofs.Creation
import ArrayBridge.Proofs.CursorLedger
import ArrayBridge.Proofs.Divisors
import ArrayBridge.Proofs.Draws
import ArrayBridge.Proofs.Effects
import ArrayBridge.Proofs.ElementCounts
import ArrayBridge.Proofs.ElementResults
import ArrayBridge.Proofs.Elementwise
import ArrayBridge.Proofs.EngineConservation
import ArrayBridge.Proofs.EngineLedger
import ArrayBridge.Proofs.FloatNumbers
import ArrayBridge.Proofs.Footprint
import ArrayBridge.Proofs.Growth
import ArrayBridge.Proofs.Guarding
import ArrayBridge.Proofs.HandleHistory
import ArrayBridge.Proofs.HandleLedger
import ArrayBridge.Proofs.HandleObjects
import ArrayBridge.Proofs.HandleProtocol
import ArrayBridge.Proofs.HeapContents
import ArrayBridge.Proofs.IndexKeys
import ArrayBridge.Proofs.IndexOrder
import ArrayBridge.Proofs.IntegerRanges
import ArrayBridge.Proofs.IntegerSamplers
import ArrayBridge.Proofs.IterationProtocol
import ArrayBridge.Proofs.KeyReading
import ArrayBridge.Proofs.KnownNames
import ArrayBridge.Proofs.Lasting
import ArrayBridge.Proofs.Layout
import ArrayBridge.Proofs.LocationFaults
import ArrayBridge.Proofs.Lookalikes
import ArrayBridge.Proofs.Marshalling
import ArrayBridge.Proofs.NameHistory
import ArrayBridge.Proofs.NestedIndexing
import ArrayBridge.Proofs.Nesting
import ArrayBridge.Proofs.Nests
import ArrayBridge.Proofs.Odometer
import ArrayBridge.Proofs.Outcome
import ArrayBridge.Proofs.PathResolution
import ArrayBridge.Proofs.Picks
import ArrayBridge.Proofs.Reading
import ArrayBridge.Proofs.ReadingOut
import ArrayBridge.Proofs.ReferenceCounts
import ArrayBridge.Proofs.References
import ArrayBridge.Proofs.RepeatedDraws
import ArrayBridge.Proofs.ReshapedElements
import ArrayBridge.Proofs.Reshaping
import ArrayBridge.Proofs.RowDelivery
import ArrayBridge.Proofs.RowOrders
import ArrayBridge.Proofs.SameAnswers
import ArrayBridge.Proofs.SampledResults
import ArrayBridge.Proofs.SamplerArguments
import ArrayBridge.Proofs.Selection
import ArrayBridge.Proofs.SelectionChains
import ArrayBridge.Proofs.ShapeArguments
import ArrayBridge.Proofs.SharedLifecycle
import ArrayBridge.Proofs.SlicePositions
import ArrayBridge.Proofs.Slicing
import ArrayBridge.Proofs.Startup
import ArrayBridge.Proofs.StatusCalls
import ArrayBridge.Proofs.StorageSharing
import ArrayBridge.Proofs.StrideProducts
import ArrayBridge.Proofs.Transposition
import ArrayBridge.Proofs.Traversal
import ArrayBridge.Proofs.TypedSequences
import ArrayBridge.Proofs.UnqualifiedNames
import ArrayBridge.Proofs.WeightedPicks
import ArrayBridge.Proofs.WordAddressing
import ArrayBridge.Proofs.Workspace
import ArrayBridge.Scripted
import ArrayBridge.Shape.Basic
import ArrayBridge.Shape.Broadcast
import ArrayBridge.Shape.Limits
import ArrayBridge.Slice
import ArrayBridge.StatusInterface
import ArrayBridge.Text.Blank
import ArrayBridge.Text.Decimal
import ArrayBridge.Text.Hexadecimal
import ArrayBridge.Text.Natural
import ArrayBridge.Text.Place
import ArrayBridge.Text.Quoted
import ArrayBridge.Text.Unprintable
import ArrayBridge.Word
