/-
# The dispatch protocol

"JIT is the default and every ordinary cold block is offered to it before
execution.  A bounded interpreter fallback is legal only after an explicit
typed JIT refusal" (`README.md`, Execution rules).

`Follows` is the protocol as a relation between consecutive entries of a log:
a stopping answer is followed by the return of its run, an admitted refusal by
the interpretation of that very refusal, an executed block by its report, and a
report or a return by the next dispatch or the next return.  Every history
keeps to it (`History.wellFormed`), and `jit_first_protocol` reads the rules
off it, separately for the two modes.
-/

import GcnPort.Execution.History
import GcnPort.Execution.RunEnd
import GcnPort.Foundation.Log

namespace GcnPort
namespace Execution

open Foundation

namespace Interaction

/-- The entry opens a segment of the log: a dispatch, or a return of `run`. -/
def opens : Interaction → Prop
  | .runReturned _ => True
  | i => i.startsDispatch

/-- The entry ends a segment of the log: a report, or a return of `run`. -/
def closes : Interaction → Prop
  | .onJitExecution .. | .onFallback .. | .onDiagnosticInterpreter .. | .runReturned _ => True
  | _ => False

/-- What the session does next after an answer that does not stop the run. -/
def goesOn (ledger : FallbackLedger) : Interaction → Interaction → Prop
  | .executeJitBlock st (.execution execution), next =>
    next = .onJitExecution execution (st.countExecution execution)
  | .executeJitBlock st (.refusal refusal), next =>
    ∃ answer, next = .executeRefusedBlock st refusal (ledger.instructionLimit st) answer
  | .executeRefusedBlock st refusal _ answer, next =>
    next = .onFallback refusal answer (st.charge refusal.reason answer.instructionCount)
  | .executeDiagnosticInterpreterBlock st _ answer, next =>
    next = .onDiagnosticInterpreter answer (st.countDiagnostic answer)
  | _, next => next.opens

/-- **The protocol**: what may come next in the log of a session. -/
def Follows (ledger : FallbackLedger) (i next : Interaction) : Prop :=
  match i.stopReason ledger with
  | some reason => ∃ result, next = .runReturned result ∧ result.reason = reason
  | none => i.goesOn ledger next

end Interaction

open Interaction

section

variable {configuration : RuntimeConfiguration} {ledger : FallbackLedger}
  {st st' : ExecutionStatistics} {log entries before after : List Interaction}
  {r : Option RunResult} {i j : Interaction}

/-- A log that keeps to the protocol. -/
abbrev Lawabiding (ledger : FallbackLedger) : List Interaction → Prop :=
  WellFormed (Follows ledger) opens closes

/-- What opens a dispatch may follow whatever closes one. -/
theorem follows_of_closes (hi : i.closes) (hj : j.opens) : Follows ledger i j := by
  cases i <;> first | exact hj | exact hi.elim

/-- **The step lemma of the protocol.**  A dispatch, with the return of the run
it stops, is a segment. -/
theorem Dispatch.wellFormed (h : Dispatch configuration ledger st entries r st') :
    Lawabiding ledger (entries ++ (r.map Interaction.runReturned).toList) := by
  have head : ∀ x ∈ (entries ++ (r.map Interaction.runReturned).toList).head?, x.opens := by
    cases h <;> simp [opens, startsDispatch]
  have last : ∀ x ∈ (entries ++ (r.map Interaction.runReturned).toList).getLast?, x.closes := by
    cases h <;> simp [closes]
  refine ⟨?_, head, last⟩
  cases h with
  | executed execution mode count => simp [Follows, stopReason, goesOn, count]
  | empty execution mode count => simp [Follows, stopReason, count]
  | refused refusal error mode gate => simp [Follows, stopReason, gate]
  | rejected refusal answer error mode gate check =>
    simp [Follows, stopReason, goesOn, gate, FallbackLedger.not_accepts_of_record check]
  | recorded refusal answer mode gate check => simp [Follows, stopReason, goesOn, gate, check]
  | exited exit mode => simp [Follows, stopReason]
  | faulted fault mode => simp [Follows, stopReason]
  | diagnosticInvalid answer mode count => simp [Follows, stopReason, count]
  | diagnosed answer mode count => simp [Follows, stopReason, goesOn, count]

/-- **Every history keeps to the protocol.** -/
theorem History.wellFormed (h : History configuration ledger st log) :
    Lawabiding ledger log := by
  induction h with
  | start => exact .nil
  | dispatched _ hd ih =>
    have := hd.wellFormed
    rw [Option.map_none, Option.toList_none, List.append_nil] at this
    exact ih.append this fun _ _ => follows_of_closes
  | stopped _ hd ih =>
    rw [List.append_assoc]
    exact ih.append hd.wellFormed fun _ _ => follows_of_closes
  | exhausted detail _ ih =>
    refine ih.append ⟨List.isChain_singleton _, ?_, ?_⟩ fun _ _ => follows_of_closes
    · simp [opens]
    · simp [closes]

/-- Only an admitted refusal is followed by an entry, and by an entry on that
very refusal. -/
theorem Interaction.Follows.entered {st₀ : ExecutionStatistics} {refusal : JitRefusal}
    {limit : UInt32} {answer : InterpretedBlock}
    (h : Follows ledger i (.executeRefusedBlock st₀ refusal limit answer)) :
    i = .executeJitBlock st₀ (.refusal refusal) ∧ ledger.canEnter refusal st₀ = none := by
  unfold Follows at h
  split at h
  · obtain ⟨result, hr, -⟩ := h
    cases hr
  · rename_i hgo
    match i with
    | .executeJitBlock st (.refusal refusal') =>
      obtain ⟨answer', ha⟩ := h
      obtain ⟨rfl, rfl, -⟩ := Interaction.executeRefusedBlock.inj ha
      refine ⟨rfl, ?_⟩
      by_contra hne
      simp [stopReason, hne] at hgo
    | .executeJitBlock st (.execution execution) => cases h
    | .executeRefusedBlock .. => cases h
    | .executeDiagnosticInterpreterBlock .. => cases h

/-- An answer that stops its run is followed by the return of that run. -/
theorem Interaction.Follows.stopped {reason : RunStopReason} (h : Follows ledger i j)
    (hi : i.stopReason ledger = some reason) :
    ∃ result, j = .runReturned result ∧ result.reason = reason := by
  unfold Follows at h
  rw [hi] at h
  exact h

/-- An answer that stops its run does not close a segment. -/
theorem not_closes_of_stopReason {reason : RunStopReason}
    (hi : i.stopReason ledger = some reason) : ¬i.closes := by
  cases i <;> first | exact id | cases hi

end

/-- The protocol of JIT mode, position by position in the log. -/
structure JitFirst (ledger : FallbackLedger) (log : List Interaction) : Prop where
  /-- An entry comes right after the refusal it is made for. -/
  entry : ∀ before st refusal limit answer after,
    log = before ++ .executeRefusedBlock st refusal limit answer :: after →
      ∃ before', before = before' ++ [.executeJitBlock st (.refusal refusal)]
  /-- An admitted refusal is followed by one entry, and not by a second. -/
  admitted : ∀ before st refusal after,
    log = before ++ .executeJitBlock st (.refusal refusal) :: after →
      ledger.canEnter refusal st = none →
        ∃ limit answer after', after = .executeRefusedBlock st refusal limit answer :: after' ∧
          ∀ i ∈ after'.head?, i.entersInterpreter = false
  /-- Nothing else is followed by an entry. -/
  others : ∀ before i after, log = before ++ i :: after →
    (∀ st refusal, i = .executeJitBlock st (.refusal refusal) →
      ledger.canEnter refusal st ≠ none) →
      ∀ j ∈ after.head?, j.entersInterpreter = false
  /-- An answer that stops a run is the last thing before the run returns. -/
  stops : ∀ before i after reason, log = before ++ i :: after →
    i.stopReason ledger = some reason →
      ∃ result after', after = .runReturned result :: after' ∧ result.reason = reason
  /-- The diagnostic interpreter is never called. -/
  diagnostic : ∀ st limit answer, .executeDiagnosticInterpreterBlock st limit answer ∉ log

/-- The protocol of the diagnostic mode: no other call is made, each has the
configured limit, and no other counter moves. -/
structure DiagnosticOnly (configuration : RuntimeConfiguration) (st : ExecutionStatistics)
    (log : List Interaction) : Prop where
  calls : ∀ i ∈ log,
    (∃ st answer, i = .executeDiagnosticInterpreterBlock st
        configuration.diagnosticInstructionsPerDispatch answer) ∨
      (∃ answer st, i = .onDiagnosticInterpreter answer st) ∨ ∃ result, i = .runReturned result
  statistics : st = {
    diagnosticInterpreterBlocks := st.diagnosticInterpreterBlocks
    diagnosticInterpreterInstructions := st.diagnosticInterpreterInstructions }

section

variable {configuration : RuntimeConfiguration} {ledger : FallbackLedger}
  {st st' : ExecutionStatistics} {log : List Interaction}

/-- A history in the JIT mode offers every block to the JIT first. -/
theorem History.jitFirst (h : History configuration ledger st log)
    (mode : configuration.mode = .jit) : JitFirst ledger log := by
  have hw := h.wellFormed
  refine ⟨fun before st₀ refusal limit answer after hlog => ?_,
    fun before st₀ refusal after hlog gate => ?_, fun before i after hlog hi j hj => ?_,
    fun before i after reason hlog hi => ?_, fun st₀ limit answer hi => ?_⟩
  · obtain ⟨y, before', rfl, hy⟩ := hw.prev hlog (by simp [opens, startsDispatch])
    exact ⟨before', by rw [hy.entered.1]⟩
  · obtain ⟨y, after', rfl, hy⟩ := hw.next hlog (by simp [closes])
    simp only [Follows, stopReason, gate, if_true] at hy
    obtain ⟨answer, rfl⟩ := hy
    refine ⟨_, answer, after', rfl, fun i hi => ?_⟩
    have hlog' : log = (before ++ [.executeJitBlock st₀ (.refusal refusal)]) ++
        .executeRefusedBlock st₀ refusal (ledger.instructionLimit st₀) answer :: after' := by
      rw [hlog, List.append_assoc]
      rfl
    have hnext := hw.next_of_mem_head hlog' hi
    cases i with
    | executeRefusedBlock => cases hnext.entered.1
    | _ => rfl
  · have hnext := hw.next_of_mem_head hlog hj
    cases j with
    | executeRefusedBlock st₀ refusal limit answer =>
      exact absurd hnext.entered.2 (hi _ _ hnext.entered.1)
    | _ => rfl
  · obtain ⟨y, after', rfl, hy⟩ := hw.next hlog (not_closes_of_stopReason hi)
    obtain ⟨result, rfl, hr⟩ := hy.stopped hi
    exact ⟨result, after', rfl, hr⟩
  · refine h.forall_mem (P := fun i => ∀ st₀ limit answer,
      i ≠ .executeDiagnosticInterpreterBlock st₀ limit answer)
      (fun st entries r st' hd i hi => ?_) (fun r => ?_) _ hi _ _ _ rfl
    · rintro st₀ limit answer rfl
      cases hd <;> simp_all
    · intro _ _ _ h
      cases h

/-- In the JIT mode the diagnostic counters stay at zero. -/
theorem History.diagnostic_counters (h : History configuration ledger st log)
    (mode : configuration.mode = .jit) :
    st.diagnosticInterpreterBlocks = 0 ∧ st.diagnosticInterpreterInstructions = 0 := by
  induction h with
  | start => exact ⟨rfl, rfl⟩
  | dispatched _ hd ih => cases hd <;> first | exact ih | simp_all
  | stopped _ hd ih => cases hd <;> exact ih
  | exhausted _ _ ih => exact ih

/-- In the diagnostic mode nothing but the diagnostic interpreter is called. -/
theorem History.diagnosticOnly (h : History configuration ledger st log)
    (mode : configuration.mode = .diagnosticInterpreter) :
    DiagnosticOnly configuration st log := by
  refine ⟨h.forall_mem (fun st entries r st' hd i hi => ?_) fun r => .inr (.inr ⟨r, rfl⟩), ?_⟩
  · cases hd <;> simp_all
    rcases hi with rfl | rfl <;> simp
  · induction h with
    | start => rfl
    | dispatched _ hd ih =>
      cases hd with
      | diagnosed answer mode count => rw [ih]; rfl
      | _ => simp_all
    | stopped _ hd ih => cases hd <;> first | exact ih | simp_all
    | exhausted _ _ ih => exact ih

end

/-- **JIT first, and no mode crosses into the other.**  In every reachable
state the log keeps to the protocol of the configured mode.  A run makes at
most as many dispatches as it was given, and returns that its budget is
exhausted exactly when it made them all and none stopped it. -/
theorem jit_first_protocol {β : Type*} {B : RuntimeBackend β}
    {configuration : RuntimeConfiguration} {s : Session β} (h : s.Reachable B configuration) :
    (configuration.mode = .jit → JitFirst s.fallbackLedger s.log ∧
      s.statistics.diagnosticInterpreterBlocks = 0 ∧
      s.statistics.diagnosticInterpreterInstructions = 0) ∧
    (configuration.mode = .diagnosticInterpreter →
      DiagnosticOnly configuration s.statistics s.log) ∧
    ∀ n, ∃ entries, (s.run B n).2.log = s.log ++ (entries ++ [.runReturned (s.run B n).1]) ∧
      entries.countP startsDispatch ≤ n.toNat ∧
      ((s.run B n).1.reason = .dispatchBudgetExhausted ↔
        entries.countP startsDispatch = n.toNat ∧
          ∀ i ∈ entries, i.stopReason s.fallbackLedger = none) := by
  have hh := h.lawful.history
  rw [h.configuration_eq] at hh
  refine ⟨fun mode => ⟨hh.jitFirst mode, hh.diagnostic_counters mode⟩, hh.diagnosticOnly,
    fun n => ?_⟩
  obtain ⟨entries, hx, hle, -, hend⟩ := Session.run_spec B n s
  refine ⟨entries, hx.log, hle, fun hreason => ?_, ?_⟩
  · obtain ⟨-, hn, hnil⟩ := hend.resolve_right fun hc => hc.1 hreason
    exact ⟨hn, List.filterMap_eq_nil_iff.1 hnil⟩
  · rintro ⟨-, hnone⟩
    rcases hend with ⟨hreason, -, -⟩ | ⟨-, hone⟩
    · exact hreason
    · rw [List.filterMap_eq_nil_iff.2 hnone] at hone
      cases hone

/-- A session with a budget of one block, run for two dispatches, keeps to the
protocol of JIT mode. -/
theorem jit_first_protocol_refusing : ∃ s : Session Unit,
    s.statistics.fallbackBlocks = 1 ∧ JitFirst s.fallbackLedger s.log := by
  refine ⟨_, ?_, ((jit_first_protocol (B := .refusing 1)
    (Session.reachable_runs { fallback := ⟨1, 1, 1⟩ } () rfl [2])).1 rfl).1⟩
  rfl

end Execution
end GcnPort
