import HybridQuantum.Cast.Cast
import HybridQuantum.Cast.Config
import HybridQuantum.Cast.Conversion
import HybridQuantum.Cast.Error
import HybridQuantum.Cast.QuantumProgram
import HybridQuantum.Cast.Resolver
import HybridQuantum.Cast.Spec
import HybridQuantum.Circuit.Amplitude
import HybridQuantum.Circuit.Builder
import HybridQuantum.Circuit.Cursor
import HybridQuantum.Circuit.Error
import HybridQuantum.Circuit.Expr
import HybridQuantum.Circuit.Expression
import HybridQuantum.Circuit.Gate
import HybridQuantum.Circuit.Parse
import HybridQuantum.Circuit.Random
import HybridQuantum.Circuit.Scanner
import HybridQuantum.Circuit.Simulator
import HybridQuantum.Circuit.StateVector
import HybridQuantum.Circuit.Token
import HybridQuantum.Exchange.Config
import HybridQuantum.Exchange.Datum
import HybridQuantum.Exchange.Execution
import HybridQuantum.Exchange.Fields
import HybridQuantum.Exchange.Json
import HybridQuantum.Exchange.Numeral
import HybridQuantum.Exchange.Plain
import HybridQuantum.Exchange.Program
import HybridQuantum.Exchange.Stored
import HybridQuantum.Exchange.Types
import HybridQuantum.Exchange.Yaml.Cursor
import HybridQuantum.Exchange.Yaml.Document
import HybridQuantum.Exchange.Yaml.Layout
import HybridQuantum.Exchange.Yaml.Node
import HybridQuantum.Exchange.Yaml.Scalar.Block
import HybridQuantum.Exchange.Yaml.Scalar.Gap
import HybridQuantum.Exchange.Yaml.Scalar.Plain
import HybridQuantum.Exchange.Yaml.Scalar.Quoted
import HybridQuantum.Exchange.Yaml.Token
import HybridQuantum.Execution.Backend
import HybridQuantum.Execution.Counts
import HybridQuantum.Execution.Error
import HybridQuantum.Execution.Handle
import HybridQuantum.Execution.Info
import HybridQuantum.Execution.Job
import HybridQuantum.Execution.Registry
import HybridQuantum.Execution.Script
import HybridQuantum.Execution.Shots
import HybridQuantum.Fault
import HybridQuantum.FiniteMap
import HybridQuantum.Lowering.Catalog
import HybridQuantum.Lowering.Error
import HybridQuantum.Lowering.Evaluator
import HybridQuantum.Lowering.Lowering
import HybridQuantum.Lowering.Status
import HybridQuantum.Memory.Error
import HybridQuantum.Memory.Heap
import HybridQuantum.Memory.IndexPool
import HybridQuantum.Memory.Scope
import HybridQuantum.Memory.Stack
import HybridQuantum.Memory.Variable
import HybridQuantum.Name
import HybridQuantum.Numeric.Classify
import HybridQuantum.Numeric.Decimal
import HybridQuantum.Numeric.Reading
import HybridQuantum.Program.Block
import HybridQuantum.Program.Function
import HybridQuantum.Program.Literal
import HybridQuantum.Program.Value
import HybridQuantum.Text.Blank
import HybridQuantum.Text.Printable
import HybridQuantum.Text.Quoted
import HybridQuantum.Types.Builtin
import HybridQuantum.Types.Cycle
import HybridQuantum.Types.DataType
import HybridQuantum.Types.Error
import HybridQuantum.Types.Resolution
import HybridQuantum.Types.Size
import HybridQuantum.Types.Table
import HybridQuantum.Word
import HybridQuantum.Proofs.Circuit.BasisState
import HybridQuantum.Proofs.Circuit.Reading
import HybridQuantum.Proofs.Circuit.Scanning
import HybridQuantum.Proofs.Circuit.Submission
import HybridQuantum.Proofs.Lowering.BasisCode
import HybridQuantum.Proofs.Lowering.BasisProgram
import HybridQuantum.Proofs.Memory.PoolConservation
import HybridQuantum.Proofs.Types.History
import HybridQuantum.Proofs.Types.Cycles
import HybridQuantum.Proofs.Types.CycleReports
import HybridQuantum.Proofs.Execution.Histogram
import HybridQuantum.Proofs.Memory.Coherence
import HybridQuantum.Proofs.Cast.RunCounts
import HybridQuantum.Proofs.Cast.SimulatorRun
import HybridQuantum.Proofs.Cast.TypeSoundness
import HybridQuantum.Proofs.Cast.DirectRoute
import HybridQuantum.Proofs.Cast.GrantedWidth
import HybridQuantum.Proofs.Circuit.Grammar
import HybridQuantum.Proofs.Circuit.ExpressionLanguage
import HybridQuantum.Proofs.Circuit.ExpressionValues
import HybridQuantum.Proofs.Circuit.RegisterLayout
import HybridQuantum.Proofs.Circuit.Language
import HybridQuantum.Proofs.Circuit.SimulatedCounts
import HybridQuantum.Proofs.Execution.Lifecycle
import HybridQuantum.Proofs.Circuit.SharedStore
import HybridQuantum.Proofs.Circuit.Tally
import HybridQuantum.Proofs.Circuit.SimulatedResult
import HybridQuantum.Proofs.Circuit.CheckedRun
import HybridQuantum.Proofs.Circuit.Bounds
import HybridQuantum.Proofs.Cast.ConfiguredShots
import HybridQuantum.Proofs.Exchange.Reordering
import HybridQuantum.Proofs.Exchange.RoundTrip
import HybridQuantum.Proofs.Cast.ClassicalTrip
import HybridQuantum.Proofs.Lowering.Flattening
import HybridQuantum.Proofs.Numeric.Binary64
import HybridQuantum.Proofs.Numeric.Rounding
import HybridQuantum.Proofs.Circuit.GateMaps
import HybridQuantum.Proofs.Circuit.Reset
import HybridQuantum.Proofs.Circuit.Sampling
import HybridQuantum.Proofs.Circuit.Broadcasting
import HybridQuantum.Proofs.Circuit.Precedence
import HybridQuantum.Proofs.Circuit.PrintedTokens
import HybridQuantum.Proofs.Cast.IntegerConversion
import HybridQuantum.Proofs.Execution.Waiting
import HybridQuantum.Proofs.Text.ByteOrder
import HybridQuantum.Proofs.Execution.ArrivalOrder
import HybridQuantum.Proofs.Types.Members
import HybridQuantum.Proofs.Memory.Slots
import HybridQuantum.Proofs.Memory.WellTyped
import HybridQuantum.Proofs.Memory.NamedAssignment
import HybridQuantum.Proofs.Memory.NameHistory
import HybridQuantum.Proofs.Memory.GrantOrder
import HybridQuantum.Proofs.Types.Sums
import HybridQuantum.Proofs.Types.Containment
import HybridQuantum.Proofs.Types.Derivations
import HybridQuantum.Proofs.Types.Completion
import HybridQuantum.Proofs.Program.Validation
import HybridQuantum.Proofs.Types.Rearrangement
import HybridQuantum.Proofs.Circuit.Readout
import HybridQuantum.Proofs.Memory.PoolCheck
