import GcnPort.Foundation.Loop
import GcnPort.Foundation.Machine
import GcnPort.Foundation.Log
import GcnPort.Foundation.PartialMap
import GcnPort.Foundation.Ownership
import GcnPort.Foundation.Pattern
import GcnPort.Foundation.Scan
import GcnPort.Foundation.LineScan
import GcnPort.Foundation.Section
import GcnPort.Foundation.Threads
import GcnPort.Foundation.Linearizable
import GcnPort.Foundation.Progress
import GcnPort.Foundation.RealTime
import GcnPort.Foundation.Program
import GcnPort.Foundation.Script
import GcnPort.Execution.Types
import GcnPort.Execution.FallbackLedger
import GcnPort.Execution.Session
import GcnPort.Execution.Dispatch
import GcnPort.Execution.History
import GcnPort.Execution.RunEnd
import GcnPort.Execution.Budget
import GcnPort.Execution.Entries
import GcnPort.Execution.Accounting
import GcnPort.Execution.Protocol
import GcnPort.Execution.Audit
import GcnPort.Execution.Resume
import GcnPort.Execution.StopReasons
import GcnPort.Execution.Limit
import GcnPort.Execution.RaisedBudget
import GcnPort.Execution.Policy
import GcnPort.Execution.Throwing
import GcnPort.Execution.ExceptionSafety
import GcnPort.Hooks.Key
import GcnPort.Hooks.Registry
import GcnPort.Hooks.Refinement
import GcnPort.Hooks.Coherence
import GcnPort.Calls.Coordinator
import GcnPort.Calls.Lifecycle
import GcnPort.Calls.Truthful
import GcnPort.Calls.Tracks
import GcnPort.Calls.Tickets
import GcnPort.Calls.Effects
import GcnPort.Calls.Brackets
import GcnPort.Concurrent.Methods
import GcnPort.Concurrent.Promises
import GcnPort.Concurrent.Tickets
import GcnPort.Concurrent.Hooks
import GcnPort.Adapter.Dolphin
import GcnPort.Adapter.RuntimeAdapter
import GcnPort.Adapter.Ownership
import GcnPort.Adapter.Destruction
import GcnPort.Adapter.Lifetime
import GcnPort.Adapter.Parity
import GcnPort.Adapter.AllOrNothing
import GcnPort.Adapter.GuestContext
import GcnPort.Adapter.Confinement
import GcnPort.Adapter.EntryCalls
import GcnPort.Adapter.Backend
import GcnPort.Adapter.Stack
import GcnPort.Tools.Text
import GcnPort.Tools.Pathlib
import GcnPort.Tools.ProjectVerifier
import GcnPort.Tools.Regex
import GcnPort.Tools.DolphinTests
import GcnPort.Tools.PassingLog
import GcnPort.Tools.TestListing
import GcnPort.Tools.CiContract
import GcnPort.Tools.Runner
import GcnPort.Tools.Host
import GcnPort.Tools.RuntimeGate
import GcnPort.Tools.LandingGate
import GcnPort.Adapter.GuestCells
