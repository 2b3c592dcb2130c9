/-
# Sessions whose collaborators throw

No function of `RuntimeBackend` or `DiagnosticsSink` is `noexcept`, and
`src/execution_session.cpp` catches nothing.  Here every call that a session makes may
throw: to its backend, and to its sink, which may share state.  `ThrowingSession` is the
session of `src/execution_session.cpp` over such collaborators, and its log has the
exceptions too.

An exception leaves the session as it was when it was thrown, and the caller of `run`
may catch it and run again.  Over collaborators that never throw this is the session of
`Session` (`run_ofSession`).
-/

import GcnPort.Execution.Session

namespace GcnPort
namespace Execution

open Foundation

/-- `RuntimeBackend` and `DiagnosticsSink`: what the objects behind them, with the state
`ε` between them, return or throw. -/
structure Collaborators (ε : Type*) where
  executeJitBlock : ε → Except Exception JitStep × ε
  executeRefusedBlock : JitRefusal → UInt32 → ε → Except Exception InterpretedBlock × ε
  executeDiagnosticInterpreterBlock : UInt32 → ε → Except Exception InterpretedBlock × ε
  onJitExecution : JitExecution → ExecutionStatistics → ε → Except Exception Unit × ε
  onFallback : JitRefusal → InterpretedBlock → ExecutionStatistics → ε →
    Except Exception Unit × ε
  onDiagnosticInterpreter : InterpretedBlock → ExecutionStatistics → ε →
    Except Exception Unit × ε

/-- A backend that never throws, and a sink that never does either. -/
def RuntimeBackend.collaborators {β : Type*} (B : RuntimeBackend β) : Collaborators β where
  executeJitBlock b := (.ok (B.executeJitBlock b).1, (B.executeJitBlock b).2)
  executeRefusedBlock refusal limit b :=
    (.ok (B.executeRefusedBlock refusal limit b).1, (B.executeRefusedBlock refusal limit b).2)
  executeDiagnosticInterpreterBlock limit b :=
    (.ok (B.executeDiagnosticInterpreterBlock limit b).1,
      (B.executeDiagnosticInterpreterBlock limit b).2)
  onJitExecution _ _ b := (.ok (), b)
  onFallback _ _ _ b := (.ok (), b)
  onDiagnosticInterpreter _ _ b := (.ok (), b)

/-- One thing that crosses the boundary of a session, with what was returned or thrown. -/
inductive Crossing where
  | executeJitBlock (statistics : ExecutionStatistics) (answer : Except Exception JitStep)
  | executeRefusedBlock (statistics : ExecutionStatistics) (refusal : JitRefusal)
      (limit : UInt32) (answer : Except Exception InterpretedBlock)
  | executeDiagnosticInterpreterBlock (statistics : ExecutionStatistics) (limit : UInt32)
      (answer : Except Exception InterpretedBlock)
  | onJitExecution (execution : JitExecution) (statistics : ExecutionStatistics)
      (answer : Except Exception Unit)
  | onFallback (refusal : JitRefusal) (execution : InterpretedBlock)
      (statistics : ExecutionStatistics) (answer : Except Exception Unit)
  | onDiagnosticInterpreter (execution : InterpretedBlock) (statistics : ExecutionStatistics)
      (answer : Except Exception Unit)
  | runEnded (answer : Except Exception RunResult)

/-- The crossing that nothing was thrown in. -/
def Interaction.crossing : Interaction → Crossing
  | .executeJitBlock st answer => .executeJitBlock st (.ok answer)
  | .executeRefusedBlock st refusal limit answer =>
    .executeRefusedBlock st refusal limit (.ok answer)
  | .executeDiagnosticInterpreterBlock st limit answer =>
    .executeDiagnosticInterpreterBlock st limit (.ok answer)
  | .onJitExecution execution st => .onJitExecution execution st (.ok ())
  | .onFallback refusal execution st => .onFallback refusal execution st (.ok ())
  | .onDiagnosticInterpreter execution st => .onDiagnosticInterpreter execution st (.ok ())
  | .runReturned result => .runEnded (.ok result)

/-- `ExecutionSession` over collaborators with state `ε`. -/
structure ThrowingSession (ε : Type*) where
  configuration : RuntimeConfiguration
  collaborators : ε
  fallbackLedger : FallbackLedger
  statistics : ExecutionStatistics
  log : List Crossing
  ledger_budget : fallbackLedger.budget = configuration.fallback
  diagnostic_ne : configuration.diagnosticInstructionsPerDispatch ≠ 0

namespace ThrowingSession

variable {ε : Type*}

/-- The session that nothing was thrown in. -/
def ofSession (s : Session ε) : ThrowingSession ε where
  configuration := s.configuration
  collaborators := s.backend
  fallbackLedger := s.fallbackLedger
  statistics := s.statistics
  log := s.log.map Interaction.crossing
  ledger_budget := s.ledger_budget
  diagnostic_ne := s.diagnostic_ne

/-- The constructor `ExecutionSession(configuration, backend, diagnostics)`. -/
def new (configuration : RuntimeConfiguration) (collaborators : ε) :
    Except Exception (ThrowingSession ε) :=
  (Session.new configuration collaborators).map ofSession

/-- The log grows by one entry. -/
def observe (s : ThrowingSession ε) (x : Crossing) : ThrowingSession ε :=
  { s with log := s.log ++ [x] }

/-- `backend_.execute_jit_block()`. -/
def executeJitBlock (C : Collaborators ε) (s : ThrowingSession ε) :
    Except Exception JitStep × ThrowingSession ε :=
  let (answer, collaborators) := C.executeJitBlock s.collaborators
  (answer, { s with collaborators }.observe (.executeJitBlock s.statistics answer))

/-- `backend_.execute_refused_block(refusal, limit)`. -/
def executeRefusedBlock (C : Collaborators ε) (refusal : JitRefusal) (limit : UInt32)
    (s : ThrowingSession ε) : Except Exception InterpretedBlock × ThrowingSession ε :=
  let (answer, collaborators) := C.executeRefusedBlock refusal limit s.collaborators
  (answer,
    { s with collaborators }.observe (.executeRefusedBlock s.statistics refusal limit answer))

/-- `backend_.execute_diagnostic_interpreter_block(limit)`. -/
def executeDiagnosticInterpreterBlock (C : Collaborators ε) (limit : UInt32)
    (s : ThrowingSession ε) : Except Exception InterpretedBlock × ThrowingSession ε :=
  let (answer, collaborators) := C.executeDiagnosticInterpreterBlock limit s.collaborators
  (answer,
    { s with collaborators }.observe
      (.executeDiagnosticInterpreterBlock s.statistics limit answer))

/-- `diagnostics_.on_jit_execution(execution, statistics_)`. -/
def onJitExecution (C : Collaborators ε) (execution : JitExecution) (s : ThrowingSession ε) :
    Except Exception Unit × ThrowingSession ε :=
  let (answer, collaborators) := C.onJitExecution execution s.statistics s.collaborators
  (answer, { s with collaborators }.observe (.onJitExecution execution s.statistics answer))

/-- `diagnostics_.on_fallback(refusal, execution, statistics_)`. -/
def onFallback (C : Collaborators ε) (refusal : JitRefusal) (execution : InterpretedBlock)
    (s : ThrowingSession ε) : Except Exception Unit × ThrowingSession ε :=
  let (answer, collaborators) := C.onFallback refusal execution s.statistics s.collaborators
  (answer, { s with collaborators }.observe (.onFallback refusal execution s.statistics answer))

/-- `diagnostics_.on_diagnostic_interpreter(execution, statistics_)`. -/
def onDiagnosticInterpreter (C : Collaborators ε) (execution : InterpretedBlock)
    (s : ThrowingSession ε) : Except Exception Unit × ThrowingSession ε :=
  let (answer, collaborators) := C.onDiagnosticInterpreter execution s.statistics s.collaborators
  (answer,
    { s with collaborators }.observe (.onDiagnosticInterpreter execution s.statistics answer))

/-- `ExecutionSession::stopped`. -/
def stopped (s : ThrowingSession ε) (reason : RunStopReason) (guestPc : GuestAddress)
    (detail : String) : RunResult where
  reason := reason
  guestPc := guestPc
  detail := detail
  statistics := s.statistics

/-- What a dispatch comes to: it goes on, stops its run, or throws. -/
abbrev Outcome := Option (Except Exception RunResult)

/-- After the event a dispatch ends with. -/
def reported : Except Exception Unit × ThrowingSession ε → Outcome × ThrowingSession ε
  | (.error e, s) => (some (.error e), s)
  | (.ok (), s) => (none, s)

/-- `ExecutionSession::run_jit_dispatch`. -/
def runJitDispatch (C : Collaborators ε) (s : ThrowingSession ε) : Outcome × ThrowingSession ε :=
  let s := { s with statistics := s.statistics.countDispatch }
  match s.executeJitBlock C with
  | (.error e, s) => (some (.error e), s)
  | (.ok (.execution execution), s) =>
    if execution.instructionCount = 0 then
      (some (.ok (s.stopped .invalidBackendResult execution.guestPc
        "JIT reported an executed block with zero instructions")), s)
    else
      let s := { s with statistics := s.statistics.countExecution execution }
      reported (s.onJitExecution C execution)
  | (.ok (.refusal refusal), s) =>
    match s.fallbackLedger.canEnter refusal s.statistics with
    | some error => (some (.ok (s.stopped .fallbackBudgetExceeded refusal.guestPc error)), s)
    | none =>
      match s.executeRefusedBlock C refusal (s.fallbackLedger.instructionLimit s.statistics) with
      | (.error e, s) => (some (.error e), s)
      | (.ok execution, s) =>
        let (error, statistics) := s.fallbackLedger.record refusal execution s.statistics
        let s := { s with statistics }
        match error with
        | some error => (some (.ok (s.stopped .fallbackBudgetExceeded refusal.guestPc error)), s)
        | none => reported (s.onFallback C refusal execution)
  | (.ok (.exit exit), s) => (some (.ok (s.stopped .backendExit 0 exit.detail)), s)
  | (.ok (.fault fault), s) =>
    (some (.ok (s.stopped .backendFault fault.guestPc fault.detail)), s)

/-- `ExecutionSession::run_diagnostic_dispatch`. -/
def runDiagnosticDispatch (C : Collaborators ε) (s : ThrowingSession ε) :
    Outcome × ThrowingSession ε :=
  match s.executeDiagnosticInterpreterBlock C
    s.configuration.diagnosticInstructionsPerDispatch with
  | (.error e, s) => (some (.error e), s)
  | (.ok execution, s) =>
    if execution.instructionCount = 0 ∨
        execution.instructionCount > s.configuration.diagnosticInstructionsPerDispatch then
      (some (.ok (s.stopped .invalidBackendResult execution.guestPc
        "diagnostic interpreter returned an invalid instruction count")), s)
    else
      let s := { s with statistics := s.statistics.countDiagnostic execution }
      reported (s.onDiagnosticInterpreter C execution)

/-- The body of the loop in `ExecutionSession::run`. -/
def dispatch (C : Collaborators ε) (s : ThrowingSession ε) : Outcome × ThrowingSession ε :=
  if s.configuration.mode = .jit then s.runJitDispatch C else s.runDiagnosticDispatch C

/-- What `run` returns after its loop. -/
def exhausted (maximumDispatches : UInt64) (s : ThrowingSession ε) : RunResult :=
  s.stopped .dispatchBudgetExhausted 0
    ("dispatch budget exhausted after " ++ toString maximumDispatches ++ " dispatches")

/-- `ExecutionSession::run`, with what it returns or throws. -/
def run (C : Collaborators ε) (maximumDispatches : UInt64) (s : ThrowingSession ε) :
    Except Exception RunResult × ThrowingSession ε :=
  match iterate (dispatch C) maximumDispatches.toNat s with
  | (some answer, s) => (answer, s.observe (.runEnded answer))
  | (none, s) =>
    let answer := .ok (s.exhausted maximumDispatches)
    (answer, s.observe (.runEnded answer))

/-- Any sequence of `run` calls by a caller that catches what they throw. -/
def runs (C : Collaborators ε) : List UInt64 → ThrowingSession ε →
    List (Except Exception RunResult) × ThrowingSession ε :=
  runAll (run C)

end ThrowingSession

namespace ThrowingSession

section

variable {β : Type*} (B : RuntimeBackend β) (s : Session β)

/-- An observation, in the session over collaborators. -/
theorem ofSession_observe (i : Interaction) :
    ofSession (s.observe i) = (ofSession s).observe i.crossing := by
  simp only [ofSession, Session.observe, observe, List.map_append, List.map_cons, List.map_nil]

/-- The call of the JIT, over collaborators that never throw. -/
theorem executeJitBlock_ofSession : (ofSession s).executeJitBlock B.collaborators =
    (.ok (s.executeJitBlock B).1, ofSession (s.executeJitBlock B).2) := by
  simp only [Session.executeJitBlock, ofSession_observe]
  rfl

/-- The call of the interpreter, over collaborators that never throw. -/
theorem executeRefusedBlock_ofSession (refusal : JitRefusal) (limit : UInt32) :
    (ofSession s).executeRefusedBlock B.collaborators refusal limit =
      (.ok (s.executeRefusedBlock B refusal limit).1,
        ofSession (s.executeRefusedBlock B refusal limit).2) := by
  simp only [Session.executeRefusedBlock, ofSession_observe]
  rfl

/-- The call of the diagnostic interpreter, over collaborators that never throw. -/
theorem executeDiagnosticInterpreterBlock_ofSession (limit : UInt32) :
    (ofSession s).executeDiagnosticInterpreterBlock B.collaborators limit =
      (.ok (s.executeDiagnosticInterpreterBlock B limit).1,
        ofSession (s.executeDiagnosticInterpreterBlock B limit).2) := by
  simp only [Session.executeDiagnosticInterpreterBlock, ofSession_observe]
  rfl

/-- An execution is reported to a sink that never throws. -/
theorem reported_onJitExecution_ofSession (execution : JitExecution) :
    reported ((ofSession s).onJitExecution B.collaborators execution) =
      (none, ofSession (s.observe (.onJitExecution execution s.statistics))) := by
  rw [ofSession_observe]
  rfl

/-- A fallback is reported to a sink that never throws. -/
theorem reported_onFallback_ofSession (refusal : JitRefusal) (execution : InterpretedBlock) :
    reported ((ofSession s).onFallback B.collaborators refusal execution) =
      (none, ofSession (s.observe (.onFallback refusal execution s.statistics))) := by
  rw [ofSession_observe]
  rfl

/-- A diagnostic block is reported to a sink that never throws. -/
theorem reported_onDiagnosticInterpreter_ofSession (execution : InterpretedBlock) :
    reported ((ofSession s).onDiagnosticInterpreter B.collaborators execution) =
      (none, ofSession (s.observe (.onDiagnosticInterpreter execution s.statistics))) := by
  rw [ofSession_observe]
  rfl

/-- A JIT dispatch, over collaborators that never throw. -/
theorem runJitDispatch_ofSession : (ofSession s).runJitDispatch B.collaborators =
    ((s.runJitDispatch B).1.map .ok, ofSession (s.runJitDispatch B).2) := by
  rcases h : Session.executeJitBlock B { s with statistics := s.statistics.countDispatch } with
    ⟨step, t⟩
  have hcall : executeJitBlock B.collaborators
      { ofSession s with statistics := (ofSession s).statistics.countDispatch } =
        (.ok step, ofSession t) := by
    have := executeJitBlock_ofSession B { s with statistics := s.statistics.countDispatch }
    rwa [h] at this
  simp only [runJitDispatch, Session.runJitDispatch, h, hcall]
  cases step with
  | execution execution =>
    simp only
    split_ifs with hz
    · rfl
    · exact reported_onJitExecution_ofSession B { t with statistics := _ } execution
  | refusal refusal =>
    have hgate : (ofSession t).fallbackLedger.canEnter refusal (ofSession t).statistics =
      t.fallbackLedger.canEnter refusal t.statistics := rfl
    simp only [hgate]
    cases t.fallbackLedger.canEnter refusal t.statistics with
    | some error => rfl
    | none =>
      obtain ⟨block, u, he⟩ : ∃ block u, Session.executeRefusedBlock B refusal
          (t.fallbackLedger.instructionLimit t.statistics) t = (block, u) := ⟨_, _, rfl⟩
      have hentry : executeRefusedBlock B.collaborators refusal
          ((ofSession t).fallbackLedger.instructionLimit (ofSession t).statistics) (ofSession t) =
            (.ok block, ofSession u) := by
        have := executeRefusedBlock_ofSession B t refusal
          (t.fallbackLedger.instructionLimit t.statistics)
        rwa [he] at this
      simp only [he, hentry]
      have hrecord : (ofSession u).fallbackLedger.record refusal block (ofSession u).statistics =
        u.fallbackLedger.record refusal block u.statistics := rfl
      simp only [hrecord]
      cases (u.fallbackLedger.record refusal block u.statistics).1 with
      | some error => rfl
      | none => exact reported_onFallback_ofSession B { u with statistics := _ } refusal block
  | exit exit => rfl
  | fault fault => rfl

/-- A diagnostic dispatch, over collaborators that never throw. -/
theorem runDiagnosticDispatch_ofSession : (ofSession s).runDiagnosticDispatch B.collaborators =
    ((s.runDiagnosticDispatch B).1.map .ok, ofSession (s.runDiagnosticDispatch B).2) := by
  obtain ⟨block, t, h⟩ : ∃ block t, s.executeDiagnosticInterpreterBlock B
      s.configuration.diagnosticInstructionsPerDispatch = (block, t) := ⟨_, _, rfl⟩
  have hcall : (ofSession s).executeDiagnosticInterpreterBlock B.collaborators
      (ofSession s).configuration.diagnosticInstructionsPerDispatch = (.ok block, ofSession t) := by
    have := executeDiagnosticInterpreterBlock_ofSession B s
      s.configuration.diagnosticInstructionsPerDispatch
    rwa [h] at this
  have hconfiguration : (ofSession t).configuration = t.configuration := rfl
  simp only [runDiagnosticDispatch, Session.runDiagnosticDispatch, h, hcall, hconfiguration]
  split_ifs with hz
  · rfl
  · exact reported_onDiagnosticInterpreter_ofSession B
      { t with statistics := t.statistics.countDiagnostic block } block

/-- A dispatch, over collaborators that never throw. -/
theorem dispatch_ofSession : (ofSession s).dispatch B.collaborators =
    ((s.dispatch B).1.map .ok, ofSession (s.dispatch B).2) := by
  have hconfiguration : (ofSession s).configuration = s.configuration := rfl
  rw [dispatch, Session.dispatch, hconfiguration]
  split_ifs with hmode
  · exact runJitDispatch_ofSession B s
  · exact runDiagnosticDispatch_ofSession B s

/-- **Over collaborators that never throw** a run is a run of `Session`. -/
theorem run_ofSession (maximumDispatches : UInt64) :
    (ofSession s).run B.collaborators maximumDispatches =
      (.ok (s.run B maximumDispatches).1, ofSession (s.run B maximumDispatches).2) := by
  have hloop := iterate_map (f := ofSession) (g := Except.ok) (dispatch_ofSession B)
    maximumDispatches.toNat s
  rw [run, Session.run, hloop]
  rcases iterate (Session.dispatch B) maximumDispatches.toNat s with ⟨_ | result, t⟩
  · exact Prod.ext rfl
      (ofSession_observe t (.runReturned (t.exhausted maximumDispatches))).symm
  · exact Prod.ext rfl (ofSession_observe t (.runReturned result)).symm

end

end ThrowingSession
end Execution
end GcnPort
