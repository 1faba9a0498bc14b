import LateBind.Binary64
import LateBind.BindError
import LateBind.Binding
import LateBind.Blittable
import LateBind.Bytes
import LateBind.Command
import LateBind.Config
import LateBind.Decimal.Shortest
import LateBind.Digest.Sha256
import LateBind.Emitter
import LateBind.Files
import LateBind.Framework
import LateBind.Helper.Loader
import LateBind.Helper.Members
import LateBind.Helper.Strings
import LateBind.Image
import LateBind.ImportTable
import LateBind.Instr
import LateBind.Json.Parser
import LateBind.Json.Printer
import LateBind.Json.Value
import LateBind.Layout
import LateBind.Machine.Format
import LateBind.Machine.NativeCall
import LateBind.Machine.Pins
import LateBind.Machine.Run
import LateBind.Machine.RuntimeMember
import LateBind.Machine.State
import LateBind.Machine.Step
import LateBind.MachineError
import LateBind.Main
import LateBind.Module
import LateBind.Module.Construction
import LateBind.Module.Format
import LateBind.Native.Block
import LateBind.Native.Format
import LateBind.Native.Heap
import LateBind.Native.Platform
import LateBind.Native.Script
import LateBind.Native.State
import LateBind.Native.System
import LateBind.Native.World
import LateBind.Overview
import LateBind.Primitive
import LateBind.Proofs.AbstractMemory
import LateBind.Proofs.Agreement
import LateBind.Proofs.AnsiText
import LateBind.Proofs.ArgumentCode
import LateBind.Proofs.Binding
import LateBind.Proofs.Blittability
import LateBind.Proofs.BlittableLayouts
import LateBind.Proofs.BoundModule
import LateBind.Proofs.CallBlocks
import LateBind.Proofs.CommandRuns
import LateBind.Proofs.Computations
import LateBind.Proofs.DeclaredFunctions
import LateBind.Proofs.Detection
import LateBind.Proofs.Effects
import LateBind.Proofs.Eligibility
import LateBind.Proofs.Emission
import LateBind.Proofs.EmittedHeights
import LateBind.Proofs.EmitterFaults
import LateBind.Proofs.Execution
import LateBind.Proofs.Exits
import LateBind.Proofs.Extent
import LateBind.Proofs.FileTrees
import LateBind.Proofs.Flows
import LateBind.Proofs.FreshNames
import LateBind.Proofs.GeneratedCode
import LateBind.Proofs.Handlers
import LateBind.Proofs.HeapCopies
import LateBind.Proofs.HeapRefinement
import LateBind.Proofs.HelperType
import LateBind.Proofs.ImageFile
import LateBind.Proofs.ImageFlags
import LateBind.Proofs.ImportCalls
import LateBind.Proofs.ImportGroups
import LateBind.Proofs.ImportTable
import LateBind.Proofs.Initialisers
import LateBind.Proofs.Installation
import LateBind.Proofs.Instructions
import LateBind.Proofs.JsonSize
import LateBind.Proofs.JsonText
import LateBind.Proofs.LaidCode
import LateBind.Proofs.LateLinks
import LateBind.Proofs.Layouts
import LateBind.Proofs.LoaderCalls
import LateBind.Proofs.LoaderImports
import LateBind.Proofs.LoaderMethods
import LateBind.Proofs.LoaderSequences
import LateBind.Proofs.Loops
import LateBind.Proofs.Memory
import LateBind.Proofs.ModuleFormat
import LateBind.Proofs.Naming
import LateBind.Proofs.Narrowing
import LateBind.Proofs.NativeBlocks
import LateBind.Proofs.NativeCalls
import LateBind.Proofs.NativeWorld
import LateBind.Proofs.Operands
import LateBind.Proofs.OverlappingPins
import LateBind.Proofs.PinnedData
import LateBind.Proofs.Places
import LateBind.Proofs.Planning
import LateBind.Proofs.References
import LateBind.Proofs.Regions
import LateBind.Proofs.Reports
import LateBind.Proofs.RunAgreement
import LateBind.Proofs.RuntimeCalls
import LateBind.Proofs.Sessions
import LateBind.Proofs.StackHeights
import LateBind.Proofs.Startup
import LateBind.Proofs.Statics
import LateBind.Proofs.StepAgreement
import LateBind.Proofs.StoredModules
import LateBind.Proofs.StringArrays
import LateBind.Proofs.StringHelpers
import LateBind.Proofs.StubArguments
import LateBind.Proofs.StubCalls
import LateBind.Proofs.StubChecks
import LateBind.Proofs.StubEmission
import LateBind.Proofs.StubWrites
import LateBind.Proofs.Texts
import LateBind.Proofs.UnfinishedRuns
import LateBind.Proofs.Unwinding
import LateBind.Proofs.ValueRoundTrips
import LateBind.Proofs.Values
import LateBind.Proofs.VerifiedBodies
import LateBind.Proofs.VerifiedCode
import LateBind.Proofs.WatchedRuns
import LateBind.Proofs.Widening
import LateBind.Report
import LateBind.Scaffold
import LateBind.Slot
import LateBind.StubBody
import LateBind.Text.CharClass
import LateBind.Text.Hex
import LateBind.Text.Latin1
import LateBind.Text.Quoted
import LateBind.Text.Units
import LateBind.Text.Utf8
import LateBind.Toml.Number
import LateBind.Toml.Parser
import LateBind.Toml.Table
import LateBind.Toml.Text
import LateBind.TypeName
import LateBind.TypeRef
import LateBind.Uuid
import LateBind.Value
import LateBind.Value.Format
