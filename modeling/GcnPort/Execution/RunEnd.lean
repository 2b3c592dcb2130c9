/-
# How a run ends

`stopReason` says of one entry of a log whether it is the answer that stops a
run, and for which reason.  A dispatch stops exactly when it logs such an entry
(`Dispatch.stopReasons`), so the reason `run` returns can be read off the log:
`run_spec` is the whole of it, with the number of dispatches made.
-/

import GcnPort.Execution.Dispatch

namespace GcnPort
namespace Execution

open Foundation

namespace Interaction

/-- The reason for which the answer logged by an entry stops its run. -/
def stopReason (ledger : FallbackLedger) : Interaction → Option RunStopReason
  | .executeJitBlock _ (.execution execution) =>
    if execution.instructionCount = 0 then some .invalidBackendResult else none
  | .executeJitBlock st (.refusal refusal) =>
    if ledger.canEnter refusal st = none then none else some .fallbackBudgetExceeded
  | .executeJitBlock _ (.exit _) => some .backendExit
  | .executeJitBlock _ (.fault _) => some .backendFault
  | .executeRefusedBlock st refusal _ answer =>
    if ledger.Accepts refusal answer st then none else some .fallbackBudgetExceeded
  | .executeDiagnosticInterpreterBlock _ limit answer =>
    if answer.instructionCount = 0 ∨ answer.instructionCount > limit then
      some .invalidBackendResult
    else
      none
  | .onJitExecution .. | .onFallback .. | .onDiagnosticInterpreter .. | .runReturned .. => none

/-- The entry is the first call of a dispatch. -/
def startsDispatch : Interaction → Bool
  | .executeJitBlock .. | .executeDiagnosticInterpreterBlock .. => true
  | _ => false

/-- A call to `execute_refused_block`. -/
def entersInterpreter : Interaction → Bool
  | .executeRefusedBlock .. => true
  | _ => false

end Interaction

section

variable {configuration : RuntimeConfiguration} {ledger : FallbackLedger}
  {st st' : ExecutionStatistics} {entries : List Interaction} {r : Option RunResult}

/-- **A dispatch stops its run exactly when it logs a stopping answer.** -/
theorem Dispatch.stopReasons (h : Dispatch configuration ledger st entries r st') :
    entries.filterMap (Interaction.stopReason ledger) = (r.map RunResult.reason).toList := by
  cases h with
  | executed execution mode count => simp [Interaction.stopReason, count]
  | empty execution mode count => simp [Interaction.stopReason, count]
  | refused refusal error mode gate => simp [Interaction.stopReason, gate]
  | rejected refusal answer error mode gate check =>
    simp [Interaction.stopReason, gate, FallbackLedger.not_accepts_of_record check]
  | recorded refusal answer mode gate check => simp [Interaction.stopReason, gate, check]
  | exited exit mode => rfl
  | faulted fault mode => rfl
  | diagnosticInvalid answer mode count => simp [Interaction.stopReason, count]
  | diagnosed answer mode count => simp [Interaction.stopReason, count]

/-- A dispatch starts once. -/
theorem Dispatch.countP_startsDispatch (h : Dispatch configuration ledger st entries r st') :
    entries.countP Interaction.startsDispatch = 1 := by
  cases h <;> rfl

/-- A dispatch never claims that the budget of the run is used up. -/
theorem Dispatch.reason_ne {r : RunResult}
    (h : Dispatch configuration ledger st entries (some r) st') :
    r.reason ≠ .dispatchBudgetExhausted := by
  cases h <;> exact RunStopReason.noConfusion

/-- A result carries the statistics the dispatch left. -/
theorem Dispatch.result_statistics {r : RunResult}
    (h : Dispatch configuration ledger st entries (some r) st') : r.statistics = st' := by
  cases h <;> rfl

end

namespace Session

variable {β : Type*} {B : RuntimeBackend β} {s s' : Session β}

/-- `k` dispatches that go on log `k` dispatches and nothing that stops a run. -/
theorem continues_spec {k : ℕ} (hc : Continues (dispatch B) k s s') :
    ∃ entries, s.Extends s' entries ∧ entries.countP Interaction.startsDispatch = k ∧
      entries.filterMap (Interaction.stopReason s.fallbackLedger) = [] := by
  induction hc with
  | zero s => exact ⟨[], .refl s, rfl, rfl⟩
  | succ hd _ ih =>
    obtain ⟨entries', hx', hk', hs'⟩ := ih
    obtain ⟨entries, hx, hdisp, -⟩ := dispatch_spec B _
    rw [hd] at hx hdisp
    refine ⟨entries ++ entries', hx.trans hx', ?_, ?_⟩
    · rw [List.countP_append, hdisp.countP_startsDispatch, hk', Nat.add_comm]
    · rw [List.filterMap_append, hdisp.stopReasons, ← hx.fallbackLedger, hs']
      rfl

/-- **How a run ends.**  A run of `n` logs at most `n` dispatches and then its
own return.  Either it logs `n` and nothing that stops it, and returns that its
budget is exhausted, or it logs exactly one answer that stops it, and returns
the reason of that answer. -/
theorem run_spec (B : RuntimeBackend β) (n : UInt64) (s : Session β) :
    ∃ entries, s.Extends (s.run B n).2 (entries ++ [.runReturned (s.run B n).1]) ∧
      entries.countP Interaction.startsDispatch ≤ n.toNat ∧
      (s.run B n).1.statistics = (s.run B n).2.statistics ∧
      ((s.run B n).1.reason = .dispatchBudgetExhausted ∧
          entries.countP Interaction.startsDispatch = n.toNat ∧
          entries.filterMap (Interaction.stopReason s.fallbackLedger) = [] ∨
        (s.run B n).1.reason ≠ .dispatchBudgetExhausted ∧
          entries.filterMap (Interaction.stopReason s.fallbackLedger) =
            [(s.run B n).1.reason]) := by
  rcases run_cases B n s with ⟨s', hc, hr⟩ | ⟨k, hk, s', r, s'', hc, hd, hr⟩ <;> rw [hr] <;>
    obtain ⟨entries, hx, hcount, hstop⟩ := continues_spec hc
  · exact ⟨entries, hx.trans (extends_observe _ _), hcount.le, rfl, .inl ⟨rfl, hcount, hstop⟩⟩
  · obtain ⟨entries', hx', hdisp, -⟩ := dispatch_spec B s'
    rw [hd] at hx' hdisp
    refine ⟨entries ++ entries', (hx.trans hx').trans (extends_observe _ _), ?_,
      hdisp.result_statistics, .inr ⟨hdisp.reason_ne, ?_⟩⟩
    · rw [List.countP_append, hcount, hdisp.countP_startsDispatch]
      exact hk
    · rw [List.filterMap_append, hstop, ← hx.fallbackLedger, hdisp.stopReasons]
      rfl

end Session

end Execution
end GcnPort
