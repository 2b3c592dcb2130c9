/-
# The execution session

`include/gcnport/runtime_backend.h`, `include/gcnport/diagnostics.h`,
`include/gcnport/execution_session.h` and `src/execution_session.cpp`.

A backend is any object that answers the three calls of `RuntimeBackend`: its
state is a type of its own, and nothing is assumed of its answers.  The session
keeps, besides its own members, the state of the backend it refers to and a
`log` of what crosses its boundary, in order: every call to the backend with
its answer, every event delivered to the `DiagnosticsSink` with its snapshot,
and every result handed to the caller of `run`.  A call is logged with the
statistics at the moment it is made.  The log is written and never read by the
session.  Here a backend and a sink always answer; `Execution.Throwing` is the
session whose collaborators may throw at any call, and is this one where they do not.
-/

import GcnPort.Execution.FallbackLedger
import GcnPort.Foundation.Loop
import GcnPort.Foundation.Machine

namespace GcnPort
namespace Execution

open Foundation

/-- `RuntimeBackend`: what an object with state `β` answers to each call, and
its state afterwards. -/
structure RuntimeBackend (β : Type*) where
  executeJitBlock : β → JitStep × β
  executeRefusedBlock : JitRefusal → UInt32 → β → InterpretedBlock × β
  executeDiagnosticInterpreterBlock : UInt32 → β → InterpretedBlock × β

/-- A backend that refuses every block, at one address, and then reports
`count` interpreted instructions there. -/
def RuntimeBackend.refusing (count : UInt32) : RuntimeBackend Unit where
  executeJitBlock _ := (.refusal ⟨0x80004000, .unsafeInstructionFetch⟩, ())
  executeRefusedBlock refusal _ _ := (⟨refusal.guestPc, count⟩, ())
  executeDiagnosticInterpreterBlock _ _ := (⟨0x80004000, count⟩, ())

/-- One thing that crosses the boundary of a session. -/
inductive Interaction where
  | executeJitBlock (statistics : ExecutionStatistics) (answer : JitStep)
  | executeRefusedBlock (statistics : ExecutionStatistics) (refusal : JitRefusal)
      (limit : UInt32) (answer : InterpretedBlock)
  | executeDiagnosticInterpreterBlock (statistics : ExecutionStatistics) (limit : UInt32)
      (answer : InterpretedBlock)
  | onJitExecution (execution : JitExecution) (statistics : ExecutionStatistics)
  | onFallback (refusal : JitRefusal) (execution : InterpretedBlock)
      (statistics : ExecutionStatistics)
  | onDiagnosticInterpreter (execution : InterpretedBlock) (statistics : ExecutionStatistics)
  | runReturned (result : RunResult)
deriving DecidableEq, Repr

/-- `ExecutionSession` over a backend with state `β`, with what its constructor
checked. -/
structure Session (β : Type*) where
  configuration : RuntimeConfiguration
  backend : β
  fallbackLedger : FallbackLedger
  statistics : ExecutionStatistics
  log : List Interaction
  ledger_budget : fallbackLedger.budget = configuration.fallback
  diagnostic_ne : configuration.diagnosticInstructionsPerDispatch ≠ 0

namespace Session

variable {β : Type*}

/-- The constructor `ExecutionSession(configuration, backend, diagnostics)`. -/
def new (configuration : RuntimeConfiguration) (backend : β) : Except Exception (Session β) :=
  match h : FallbackLedger.new configuration.fallback with
  | .error e => .error e
  | .ok ledger =>
    if hd : configuration.diagnosticInstructionsPerDispatch = 0 then
      .error (.invalidArgument "diagnostic interpreter dispatch limit must be nonzero")
    else
      .ok {
        configuration := configuration
        backend := backend
        fallbackLedger := ledger
        statistics := {}
        log := []
        ledger_budget := FallbackLedger.budget_of_new h
        diagnostic_ne := hd }

/-- The log grows by one entry. -/
def observe (s : Session β) (i : Interaction) : Session β :=
  { s with log := s.log ++ [i] }

/-- `backend_.execute_jit_block()`. -/
def executeJitBlock (B : RuntimeBackend β) (s : Session β) : JitStep × Session β :=
  let (answer, backend) := B.executeJitBlock s.backend
  (answer, { s with backend }.observe (.executeJitBlock s.statistics answer))

/-- `backend_.execute_refused_block(refusal, limit)`. -/
def executeRefusedBlock (B : RuntimeBackend β) (refusal : JitRefusal) (limit : UInt32)
    (s : Session β) : InterpretedBlock × Session β :=
  let (answer, backend) := B.executeRefusedBlock refusal limit s.backend
  (answer, { s with backend }.observe (.executeRefusedBlock s.statistics refusal limit answer))

/-- `backend_.execute_diagnostic_interpreter_block(limit)`. -/
def executeDiagnosticInterpreterBlock (B : RuntimeBackend β) (limit : UInt32)
    (s : Session β) : InterpretedBlock × Session β :=
  let (answer, backend) := B.executeDiagnosticInterpreterBlock limit s.backend
  (answer,
    { s with backend }.observe (.executeDiagnosticInterpreterBlock s.statistics limit answer))

/-- `ExecutionSession::stopped`. -/
def stopped (s : Session β) (reason : RunStopReason) (guestPc : GuestAddress)
    (detail : String) : RunResult where
  reason := reason
  guestPc := guestPc
  detail := detail
  statistics := s.statistics

end Session

/-- `++statistics_.jit_dispatches`. -/
def ExecutionStatistics.countDispatch (statistics : ExecutionStatistics) : ExecutionStatistics :=
  { statistics with jitDispatches := statistics.jitDispatches + 1 }

/-- The counters after a JIT block of a nonzero number of instructions. -/
def ExecutionStatistics.countExecution (statistics : ExecutionStatistics)
    (execution : JitExecution) : ExecutionStatistics :=
  { statistics with
    jitBlocksExecuted := statistics.jitBlocksExecuted + 1
    jitInstructionsExecuted :=
      statistics.jitInstructionsExecuted + execution.instructionCount.toUInt64
    jitBlocksCompiled :=
      if execution.compiled then statistics.jitBlocksCompiled + 1
      else statistics.jitBlocksCompiled }

/-- The counters after a diagnostic interpreter block. -/
def ExecutionStatistics.countDiagnostic (statistics : ExecutionStatistics)
    (execution : InterpretedBlock) : ExecutionStatistics :=
  { statistics with
    diagnosticInterpreterBlocks := statistics.diagnosticInterpreterBlocks + 1
    diagnosticInterpreterInstructions :=
      statistics.diagnosticInterpreterInstructions + execution.instructionCount.toUInt64 }

namespace Session

variable {β : Type*}

/-- `ExecutionSession::run_jit_dispatch`. -/
def runJitDispatch (B : RuntimeBackend β) (s : Session β) : Option RunResult × Session β :=
  let s := { s with statistics := s.statistics.countDispatch }
  let (step, s) := s.executeJitBlock B
  match step with
  | .execution execution =>
    if execution.instructionCount = 0 then
      (some (s.stopped .invalidBackendResult execution.guestPc
        "JIT reported an executed block with zero instructions"), s)
    else
      let s := { s with statistics := s.statistics.countExecution execution }
      (none, s.observe (.onJitExecution execution s.statistics))
  | .refusal refusal =>
    match s.fallbackLedger.canEnter refusal s.statistics with
    | some error => (some (s.stopped .fallbackBudgetExceeded refusal.guestPc error), s)
    | none =>
      let (execution, s) :=
        s.executeRefusedBlock B refusal (s.fallbackLedger.instructionLimit s.statistics)
      let (error, statistics) := s.fallbackLedger.record refusal execution s.statistics
      let s := { s with statistics }
      match error with
      | some error => (some (s.stopped .fallbackBudgetExceeded refusal.guestPc error), s)
      | none => (none, s.observe (.onFallback refusal execution s.statistics))
  | .exit exit => (some (s.stopped .backendExit 0 exit.detail), s)
  | .fault fault => (some (s.stopped .backendFault fault.guestPc fault.detail), s)

/-- `ExecutionSession::run_diagnostic_dispatch`. -/
def runDiagnosticDispatch (B : RuntimeBackend β) (s : Session β) :
    Option RunResult × Session β :=
  let (execution, s) :=
    s.executeDiagnosticInterpreterBlock B s.configuration.diagnosticInstructionsPerDispatch
  if execution.instructionCount = 0 ∨
      execution.instructionCount > s.configuration.diagnosticInstructionsPerDispatch then
    (some (s.stopped .invalidBackendResult execution.guestPc
      "diagnostic interpreter returned an invalid instruction count"), s)
  else
    let s := { s with statistics := s.statistics.countDiagnostic execution }
    (none, s.observe (.onDiagnosticInterpreter execution s.statistics))

/-- The body of the loop in `ExecutionSession::run`. -/
def dispatch (B : RuntimeBackend β) (s : Session β) : Option RunResult × Session β :=
  if s.configuration.mode = .jit then s.runJitDispatch B else s.runDiagnosticDispatch B

/-- What `run` returns after its loop. -/
def exhausted (maximumDispatches : UInt64) (s : Session β) : RunResult :=
  s.stopped .dispatchBudgetExhausted 0
    ("dispatch budget exhausted after " ++ toString maximumDispatches ++ " dispatches")

/-- `ExecutionSession::run`.  The counter of the loop goes from zero to
`maximum_dispatches` and cannot wrap, so the loop is `iterate`; what is
returned is logged. -/
def run (B : RuntimeBackend β) (maximumDispatches : UInt64) (s : Session β) :
    RunResult × Session β :=
  match iterate (dispatch B) maximumDispatches.toNat s with
  | (some result, s) => (result, s.observe (.runReturned result))
  | (none, s) =>
    let result := s.exhausted maximumDispatches
    (result, s.observe (.runReturned result))

/-- Any sequence of `run` calls: their results and the session after them. -/
def runs (B : RuntimeBackend β) : List UInt64 → Session β → List RunResult × Session β :=
  runAll (run B)

end Session
end Execution
end GcnPort
