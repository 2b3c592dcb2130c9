/-
# The audit trail

An auditor sees only what a session tells the outside: the events delivered to
its `DiagnosticsSink` and the results of its runs.  `audit` adds up the
counters from these alone, one event at a time.  The session does not: it
counts a dispatch before the backend answers, charges a block in the ledger,
and reports last, with exits in between.  `session_audited` says that the two
always agree, snapshot by snapshot.
-/

import GcnPort.Execution.History
import GcnPort.Execution.RunEnd
import GcnPort.Foundation.Log

namespace GcnPort
namespace Execution

open Foundation

/-- `counts` with `amount` added to the entry of `reason`, and to no other. -/
def addAt (reason : JitRefusalReason) (amount : UInt64)
    (counts : Vector UInt64 kJitRefusalReasonCount) : Vector UInt64 kJitRefusalReasonCount :=
  .ofFn fun i => counts.get i + if i.val = reasonIndex reason then amount else 0

namespace Interaction

/-- What one entry of the log adds to the counters.  A run in JIT mode that
ends for another reason than its budget has made one dispatch no event
reports. -/
def audit (mode : ExecutionMode) (st : ExecutionStatistics) : Interaction → ExecutionStatistics
  | .onJitExecution execution _ =>
    { st with
      jitDispatches := st.jitDispatches + 1
      jitBlocksExecuted := st.jitBlocksExecuted + 1
      jitInstructionsExecuted := st.jitInstructionsExecuted + execution.instructionCount.toUInt64
      jitBlocksCompiled := st.jitBlocksCompiled + if execution.compiled then 1 else 0 }
  | .onFallback refusal execution _ =>
    { st with
      jitDispatches := st.jitDispatches + 1
      fallbackBlocks := st.fallbackBlocks + 1
      fallbackInstructions := st.fallbackInstructions + execution.instructionCount.toUInt64
      fallbackBlocksByReason := addAt refusal.reason 1 st.fallbackBlocksByReason
      fallbackInstructionsByReason :=
        addAt refusal.reason execution.instructionCount.toUInt64 st.fallbackInstructionsByReason }
  | .onDiagnosticInterpreter execution _ =>
    { st with
      diagnosticInterpreterBlocks := st.diagnosticInterpreterBlocks + 1
      diagnosticInterpreterInstructions :=
        st.diagnosticInterpreterInstructions + execution.instructionCount.toUInt64 }
  | .runReturned result =>
    if mode = .jit ∧ result.reason ≠ .dispatchBudgetExhausted then
      { st with jitDispatches := st.jitDispatches + 1 }
    else
      st
  | .executeJitBlock .. | .executeRefusedBlock .. | .executeDiagnosticInterpreterBlock .. => st

/-- The statistics an event or a result shows to the outside. -/
def snapshot : Interaction → Option ExecutionStatistics
  | .onJitExecution _ st | .onFallback _ _ st | .onDiagnosticInterpreter _ st => some st
  | .runReturned result => some result.statistics
  | _ => none

/-- An event delivered to the `DiagnosticsSink`. -/
def isEvent : Interaction → Bool
  | .onJitExecution .. | .onFallback .. | .onDiagnosticInterpreter .. => true
  | _ => false

/-- The limit a call to `execute_refused_block` passes. -/
def passedLimit : Interaction → Option UInt32
  | .executeRefusedBlock _ _ limit _ => some limit
  | _ => none

/-- What `on_fallback` reports, besides its snapshot. -/
def reportedFallback : Interaction → Option (JitRefusal × InterpretedBlock)
  | .onFallback refusal execution _ => some (refusal, execution)
  | _ => none

/-- An event about a dispatch of JIT mode. -/
def isJitEvent : Interaction → Bool
  | .onJitExecution .. | .onFallback .. => true
  | _ => false

/-- The return of a run that did not use up its budget. -/
def returnsEarly : Interaction → Bool
  | .runReturned result => result.reason ≠ .dispatchBudgetExhausted
  | _ => false

end Interaction

/-- The counters that the events and results of a log add up to. -/
def audit (mode : ExecutionMode) (log : List Interaction) : ExecutionStatistics :=
  log.foldl (Interaction.audit mode) {}

/-- Every snapshot in the log is the audit of the log up to and including its
entry. -/
def SnapshotsExact (mode : ExecutionMode) (log : List Interaction) : Prop :=
  EveryPrefix (fun before i => ∀ st ∈ i.snapshot, st = audit mode (before ++ [i])) log

/-- The audit of a log goes on where that of its beginning ended. -/
theorem audit_append (mode : ExecutionMode) (log entries : List Interaction) :
    audit mode (log ++ entries) = entries.foldl (Interaction.audit mode) (audit mode log) :=
  List.foldl_append

section

variable {configuration : RuntimeConfiguration} {ledger : FallbackLedger}
  {st st' : ExecutionStatistics} {log entries : List Interaction} {r : Option RunResult}

/-- The counters after a JIT block are those its event adds up to. -/
theorem countExecution_eq_audit (mode : ExecutionMode) (execution : JitExecution)
    (st₁ : ExecutionStatistics) : st.countDispatch.countExecution execution =
      (Interaction.onJitExecution execution st₁).audit mode st := by
  simp only [ExecutionStatistics.countExecution, ExecutionStatistics.countDispatch,
    Interaction.audit]
  cases execution.compiled <;> simp

/-- The counters the ledger leaves are those the event adds up to. -/
theorem charge_eq_audit (mode : ExecutionMode) (refusal : JitRefusal)
    (execution : InterpretedBlock) (st₁ : ExecutionStatistics) :
    st.countDispatch.charge refusal.reason execution.instructionCount =
      (Interaction.onFallback refusal execution st₁).audit mode st := rfl

/-- **The step lemma of the audit.**  A dispatch, with the return of the run it
stops, adds up to the statistics it leaves, and so does each of its snapshots. -/
theorem Dispatch.audit (h : Dispatch configuration ledger st entries r st') :
    (entries ++ (r.map Interaction.runReturned).toList).foldl
        (Interaction.audit configuration.mode) st = st' ∧
      EveryPrefix (fun before i => ∀ st₁ ∈ i.snapshot,
          st₁ = (before ++ [i]).foldl (Interaction.audit configuration.mode) st)
        (entries ++ (r.map Interaction.runReturned).toList) := by
  cases h with
  | executed execution mode count =>
    rw [countExecution_eq_audit configuration.mode execution st]
    refine ⟨rfl, ?_⟩
    simp [everyPrefix_cons, everyPrefix_nil, Interaction.audit, Interaction.snapshot]
  | recorded refusal answer mode gate check =>
    rw [charge_eq_audit configuration.mode refusal answer st]
    refine ⟨rfl, ?_⟩
    simp [everyPrefix_cons, everyPrefix_nil, Interaction.audit, Interaction.snapshot]
  | diagnosed answer mode count =>
    refine ⟨rfl, ?_⟩
    simp [everyPrefix_cons, everyPrefix_nil, Interaction.audit, Interaction.snapshot,
      ExecutionStatistics.countDiagnostic]
  | diagnosticInvalid answer mode count =>
    simp [everyPrefix_cons, everyPrefix_nil, Interaction.audit, Interaction.snapshot, mode]
  | empty | refused | rejected | exited | faulted =>
    simp [everyPrefix_cons, everyPrefix_nil, Interaction.audit, Interaction.snapshot, *,
      ExecutionStatistics.countDispatch]

/-- Snapshots stay exact when the log grows by a segment whose own are. -/
theorem SnapshotsExact.append {mode : ExecutionMode} (h : SnapshotsExact mode log)
    (h' : EveryPrefix (fun before i => ∀ st₁ ∈ i.snapshot,
      st₁ = (before ++ [i]).foldl (Interaction.audit mode) (Execution.audit mode log)) entries) :
    SnapshotsExact mode (log ++ entries) := by
  refine EveryPrefix.append h ?_
  simpa only [List.append_assoc, audit_append] using h'

/-- A run that used up its budget adds nothing. -/
theorem Interaction.audit_exhausted {result : RunResult}
    (hr : result.reason = .dispatchBudgetExhausted) (mode : ExecutionMode)
    (st : ExecutionStatistics) : (Interaction.runReturned result).audit mode st = st :=
  if_neg fun hc => hc.2 hr

/-- **The statistics are the audit of the log**, in every state of the abstract
session and at every snapshot before it. -/
theorem History.audit (h : History configuration ledger st log) :
    st = Execution.audit configuration.mode log ∧ SnapshotsExact configuration.mode log := by
  induction h with
  | start => exact ⟨rfl, everyPrefix_nil⟩
  | dispatched _ hd ih =>
    obtain ⟨rfl, hs⟩ := ih
    obtain ⟨hsum, hsnap⟩ := hd.audit
    rw [Option.map_none, Option.toList_none, List.append_nil] at hsum hsnap
    exact ⟨by rw [audit_append, hsum], hs.append hsnap⟩
  | stopped _ hd ih =>
    obtain ⟨rfl, hs⟩ := ih
    obtain ⟨hsum, hsnap⟩ := hd.audit
    rw [List.append_assoc]
    exact ⟨by rw [audit_append]; exact hsum.symm, hs.append hsnap⟩
  | exhausted detail _ ih =>
    obtain ⟨rfl, hs⟩ := ih
    refine ⟨by rw [audit_append]; exact (Interaction.audit_exhausted rfl _ _).symm, hs.append ?_⟩
    simp [everyPrefix_cons, everyPrefix_nil, Interaction.audit, Interaction.snapshot]

/-- What one entry adds to the dispatches. -/
theorem Interaction.audit_jitDispatches (mode : ExecutionMode) (i : Interaction) :
    (i.audit mode st).jitDispatches = st.jitDispatches + UInt64.ofNat
      ((if i.isJitEvent then 1 else 0) + if mode = .jit ∧ i.returnsEarly then 1 else 0) := by
  cases i with
  | runReturned result =>
    simp only [Interaction.audit, isJitEvent, returnsEarly, decide_eq_true_eq]
    split_ifs <;> simp_all
  | onJitExecution | onFallback => simp [Interaction.audit, isJitEvent, returnsEarly]
  | _ => simp [Interaction.audit, isJitEvent, returnsEarly]

/-- The dispatches the audit counts: one for each event of JIT mode and one for
each run of JIT mode that returned early. -/
theorem audit_jitDispatches (mode : ExecutionMode) (log : List Interaction) :
    (Execution.audit mode log).jitDispatches =
      UInt64.ofNat (log.countP Interaction.isJitEvent +
        if mode = .jit then log.countP Interaction.returnsEarly else 0) := by
  induction log using List.reverseRecOn with
  | nil => cases mode <;> rfl
  | append_singleton log i ih =>
    rw [audit_append, List.foldl_cons, List.foldl_nil, Interaction.audit_jitDispatches, ih,
      ← UInt64.ofNat_add, List.countP_append, List.countP_append, List.countP_singleton,
      List.countP_singleton]
    congr 1
    split_ifs <;> simp_all <;> omega

/-- **One event for each dispatch that goes on, and none for one that stops.**
A dispatch that stops its run leaves every counter alone, except that JIT mode
has counted it. -/
theorem Dispatch.events (h : Dispatch configuration ledger st entries r st') :
    (r = none → entries.countP Interaction.isEvent = 1) ∧
      (r ≠ none → entries.countP Interaction.isEvent = 0 ∧
        st' = if configuration.mode = .jit then st.countDispatch else st) := by
  cases h with
  | executed | recorded | diagnosed => exact ⟨fun _ => rfl, fun hr => absurd rfl hr⟩
  | empty | refused | rejected | exited | faulted | diagnosticInvalid =>
    exact ⟨(nomatch ·), fun _ => ⟨rfl, by simp [*]⟩⟩

end

/-- The audit trail of a session: its statistics are the audit of its log, and
so was each snapshot it handed out. -/
structure Audited {β : Type*} (mode : ExecutionMode) (s : Session β) : Prop where
  statistics : s.statistics = audit mode s.log
  snapshots : SnapshotsExact mode s.log
  jitDispatches : s.statistics.jitDispatches =
    UInt64.ofNat (s.log.countP Interaction.isJitEvent +
      if mode = .jit then s.log.countP Interaction.returnsEarly else 0)

/-- **The diagnostics are a complete audit trail.**  In every reachable state
the statistics and every snapshot are what the events so far add up to, and the
next dispatch delivers one event if it goes on and none if it stops the run. -/
theorem session_audited {β : Type*} {B : RuntimeBackend β}
    {configuration : RuntimeConfiguration} {s : Session β} (h : s.Reachable B configuration) :
    Audited configuration.mode s ∧
    ∃ entries, (s.dispatch B).2.log = s.log ++ entries ∧
      ((s.dispatch B).1 = none → entries.countP Interaction.isEvent = 1) ∧
      ((s.dispatch B).1 ≠ none → entries.countP Interaction.isEvent = 0 ∧
        (s.dispatch B).2.statistics =
          if configuration.mode = .jit then s.statistics.countDispatch else s.statistics) := by
  obtain ⟨entries, hx, hd, -⟩ := Session.dispatch_spec B s
  have hh := h.lawful.history
  rw [h.configuration_eq] at hh hd
  obtain ⟨hst, hsnap⟩ := hh.audit
  refine ⟨⟨hst, hsnap, ?_⟩, entries, hx.log, hd.events⟩
  rw [hst, audit_jitDispatches]

/-- A session that was run for two dispatches and refused the second: both
were counted, and an event reports one of them. -/
theorem session_audited_refusing : ∃ s : Session Unit,
    s.statistics.jitDispatches = 2 ∧ s.log.countP Interaction.isEvent = 1 ∧ Audited .jit s := by
  refine ⟨_, ?_, ?_, (session_audited (B := .refusing 1)
    (Session.reachable_runs { fallback := ⟨1, 1, 1⟩ } () rfl [2])).1⟩ <;> rfl

end Execution
end GcnPort
