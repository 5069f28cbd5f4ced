import Parley.Json.Decoder
import Parley.Trigger
import Parley.Flow.Format
import Parley.Flow.Shape
import Parley.Condition
import Parley.Expr.Param
import Parley.Run.Report
import Parley.Identifier
import Parley.Sort
import Parley.Bus
import Parley.Wait.Record
import Parley.Wait.Timeout
import Parley.Wait.Store
import Parley.Catalog.Folder
import Parley.Run.World
import Parley.Run.Walk
import Parley.Runner.Builtin
import Parley.Engine.Dispatch
import Parley.Engine.Reaper
import Parley.Simulation.Probe
import Parley.Simulation.Script
import Parley.Engine.Routine
import Parley.Location
import Parley.Toml.Reader
import Parley.Toml.Printer
import Parley.Config.Reader
import Parley.Config.Printer
import Parley.Cli.Program
import Parley.Simulation.Clock
import Parley.Simulation.Disk
import Parley.Wait.Archive
import Parley.Main
import Parley.Proofs.Engine.AtMostOnce
import Parley.Proofs.Engine.Closure
import Parley.Proofs.Engine.ReadBack
import Parley.Proofs.Engine.Continuation
import Parley.Proofs.Wait.Reference
import Parley.Proofs.Engine.Removal
import Parley.Proofs.Engine.Isolation
import Parley.Proofs.Engine.Lifecycle
import Parley.Proofs.Engine.Failures
import Parley.Proofs.Engine.Reaping
import Parley.Proofs.Engine.Limits
import Parley.Proofs.Catalog.Latest
import Parley.Proofs.Engine.Routine
import Parley.Proofs.Engine.Answering
import Parley.Proofs.Engine.Agreement
import Parley.Proofs.Expr.Scan
import Parley.Proofs.Expr.Param
import Parley.Proofs.Runner.Trigger
import Parley.Proofs.Engine.Extent
import Parley.Proofs.Engine.Branching
import Parley.Proofs.Engine.Frame
import Parley.Proofs.Condition.Integers
import Parley.Proofs.Engine.Conditional
import Parley.Proofs.Engine.Calling
import Parley.Proofs.Runner.Timeout
import Parley.Proofs.Config.Variables
import Parley.Proofs.Flow.Format
