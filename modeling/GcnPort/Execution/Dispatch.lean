/-
# What a dispatch can do

`Dispatch` lists the nine things one pass of the loop in `ExecutionSession::run`
can do, whatever the backend answers: what it logs, whether it stops the run,
and the statistics it leaves.  `dispatch_spec` is where
`run_jit_dispatch` and `run_diagnostic_dispatch` are unfolded, once, and
`run_cases` says what a run makes of its dispatches.
-/

import GcnPort.Execution.Session

namespace GcnPort
namespace Execution

open Foundation

/-- One dispatch under `configuration` from statistics `st`: the entries it
logs, the result it stops its run with, if any, and the statistics after it. -/
inductive Dispatch (configuration : RuntimeConfiguration) (ledger : FallbackLedger)
    (st : ExecutionStatistics) :
    List Interaction → Option RunResult → ExecutionStatistics → Prop
  | executed (execution : JitExecution) (mode : configuration.mode = .jit)
      (count : execution.instructionCount ≠ 0) :
      Dispatch configuration ledger st
        [.executeJitBlock st.countDispatch (.execution execution),
          .onJitExecution execution (st.countDispatch.countExecution execution)]
        none (st.countDispatch.countExecution execution)
  | empty (execution : JitExecution) (mode : configuration.mode = .jit)
      (count : execution.instructionCount = 0) :
      Dispatch configuration ledger st
        [.executeJitBlock st.countDispatch (.execution execution)]
        (some ⟨.invalidBackendResult, execution.guestPc,
          "JIT reported an executed block with zero instructions", st.countDispatch⟩)
        st.countDispatch
  | refused (refusal : JitRefusal) (error : String) (mode : configuration.mode = .jit)
      (gate : ledger.canEnter refusal st.countDispatch = some error) :
      Dispatch configuration ledger st
        [.executeJitBlock st.countDispatch (.refusal refusal)]
        (some ⟨.fallbackBudgetExceeded, refusal.guestPc, error, st.countDispatch⟩)
        st.countDispatch
  | rejected (refusal : JitRefusal) (answer : InterpretedBlock) (error : String)
      (mode : configuration.mode = .jit)
      (gate : ledger.canEnter refusal st.countDispatch = none)
      (check : (ledger.record refusal answer st.countDispatch).1 = some error) :
      Dispatch configuration ledger st
        [.executeJitBlock st.countDispatch (.refusal refusal),
          .executeRefusedBlock st.countDispatch refusal
            (ledger.instructionLimit st.countDispatch) answer]
        (some ⟨.fallbackBudgetExceeded, refusal.guestPc, error, st.countDispatch⟩)
        st.countDispatch
  | recorded (refusal : JitRefusal) (answer : InterpretedBlock)
      (mode : configuration.mode = .jit)
      (gate : ledger.canEnter refusal st.countDispatch = none)
      (check : ledger.Accepts refusal answer st.countDispatch) :
      Dispatch configuration ledger st
        [.executeJitBlock st.countDispatch (.refusal refusal),
          .executeRefusedBlock st.countDispatch refusal
            (ledger.instructionLimit st.countDispatch) answer,
          .onFallback refusal answer
            (st.countDispatch.charge refusal.reason answer.instructionCount)]
        none (st.countDispatch.charge refusal.reason answer.instructionCount)
  | exited (exit : BackendExit) (mode : configuration.mode = .jit) :
      Dispatch configuration ledger st
        [.executeJitBlock st.countDispatch (.exit exit)]
        (some ⟨.backendExit, 0, exit.detail, st.countDispatch⟩) st.countDispatch
  | faulted (fault : BackendFault) (mode : configuration.mode = .jit) :
      Dispatch configuration ledger st
        [.executeJitBlock st.countDispatch (.fault fault)]
        (some ⟨.backendFault, fault.guestPc, fault.detail, st.countDispatch⟩) st.countDispatch
  | diagnosticInvalid (answer : InterpretedBlock)
      (mode : configuration.mode = .diagnosticInterpreter)
      (count : answer.instructionCount = 0 ∨
        answer.instructionCount > configuration.diagnosticInstructionsPerDispatch) :
      Dispatch configuration ledger st
        [.executeDiagnosticInterpreterBlock st configuration.diagnosticInstructionsPerDispatch
          answer]
        (some ⟨.invalidBackendResult, answer.guestPc,
          "diagnostic interpreter returned an invalid instruction count", st⟩) st
  | diagnosed (answer : InterpretedBlock)
      (mode : configuration.mode = .diagnosticInterpreter)
      (count : ¬(answer.instructionCount = 0 ∨
        answer.instructionCount > configuration.diagnosticInstructionsPerDispatch)) :
      Dispatch configuration ledger st
        [.executeDiagnosticInterpreterBlock st configuration.diagnosticInstructionsPerDispatch
          answer,
          .onDiagnosticInterpreter answer (st.countDiagnostic answer)]
        none (st.countDiagnostic answer)

/-- The entry is a call that `B` answers as logged, from some state of `B`. -/
def RuntimeBackend.Answers {β : Type*} (B : RuntimeBackend β) : Interaction → Prop
  | .executeJitBlock _ answer => ∃ b, (B.executeJitBlock b).1 = answer
  | .executeRefusedBlock _ refusal limit answer =>
    ∃ b, (B.executeRefusedBlock refusal limit b).1 = answer
  | .executeDiagnosticInterpreterBlock _ limit answer =>
    ∃ b, (B.executeDiagnosticInterpreterBlock limit b).1 = answer
  | _ => True

/-- `s'` is a later state of the session `s`: the members fixed by the
constructor are the same, and the log has grown by `entries`. -/
structure Session.Extends {β : Type*} (s s' : Session β) (entries : List Interaction) : Prop where
  configuration : s'.configuration = s.configuration
  fallbackLedger : s'.fallbackLedger = s.fallbackLedger
  log : s'.log = s.log ++ entries

namespace Session

variable {β : Type*} {B : RuntimeBackend β} {s s' s'' : Session β}

/-- A session extends itself by nothing. -/
theorem Extends.refl (s : Session β) : s.Extends s [] :=
  ⟨rfl, rfl, (List.append_nil _).symm⟩

/-- One extension after the other. -/
theorem Extends.trans {entries entries' : List Interaction} (h : s.Extends s' entries)
    (h' : s'.Extends s'' entries') : s.Extends s'' (entries ++ entries') :=
  ⟨h'.configuration.trans h.configuration, h'.fallbackLedger.trans h.fallbackLedger,
    by rw [h'.log, h.log, List.append_assoc]⟩

/-- An observation extends the log by itself. -/
theorem extends_observe (s : Session β) (i : Interaction) : s.Extends (s.observe i) [i] :=
  ⟨rfl, rfl, rfl⟩

/-- A JIT dispatch is one of the cases of `Dispatch`. -/
theorem runJitDispatch_spec (B : RuntimeBackend β) (s : Session β)
    (mode : s.configuration.mode = .jit) :
    ∃ entries, s.Extends (s.runJitDispatch B).2 entries ∧
      Dispatch s.configuration s.fallbackLedger s.statistics entries (s.runJitDispatch B).1
        (s.runJitDispatch B).2.statistics ∧
      ∀ i ∈ entries, B.Answers i := by
  rcases hb : B.executeJitBlock s.backend with ⟨answer, b⟩
  have hanswer : ∃ b, (B.executeJitBlock b).1 = answer := ⟨s.backend, by rw [hb]⟩
  simp only [runJitDispatch, executeJitBlock, hb]
  cases answer with
  | execution execution =>
    by_cases hz : execution.instructionCount = 0
    · simp only [hz, if_true]
      exact ⟨_, ⟨rfl, rfl, rfl⟩, .empty execution mode hz, by simpa [RuntimeBackend.Answers]⟩
    · simp only [hz, if_false]
      exact ⟨_, ⟨rfl, rfl, List.append_assoc ..⟩, .executed execution mode hz,
        by simpa [RuntimeBackend.Answers]⟩
  | refusal refusal =>
    cases hgate : s.fallbackLedger.canEnter refusal s.statistics.countDispatch with
    | some error =>
      simp only [observe, hgate]
      exact ⟨_, ⟨rfl, rfl, rfl⟩, .refused refusal error mode hgate,
        by simpa [RuntimeBackend.Answers]⟩
    | none =>
      rcases he : B.executeRefusedBlock refusal
        (s.fallbackLedger.instructionLimit s.statistics.countDispatch) b with ⟨block, b'⟩
      have hblock : ∃ b, (B.executeRefusedBlock refusal
        (s.fallbackLedger.instructionLimit s.statistics.countDispatch) b).1 = block :=
        ⟨b, by rw [he]⟩
      simp only [observe, hgate, executeRefusedBlock, he]
      by_cases hacc : s.fallbackLedger.Accepts refusal block s.statistics.countDispatch
      · simp only [FallbackLedger.record_of_accepts hacc]
        exact ⟨_, ⟨rfl, rfl, by simp⟩,
          .recorded refusal block mode hgate hacc, by simp [RuntimeBackend.Answers, *]⟩
      · obtain ⟨error, hrec⟩ := FallbackLedger.record_of_not_accepts hacc
        simp only [hrec]
        exact ⟨_, ⟨rfl, rfl, List.append_assoc ..⟩,
          .rejected refusal block error mode hgate (by rw [hrec]),
          by simp [RuntimeBackend.Answers, *]⟩
  | exit exit =>
    exact ⟨_, ⟨rfl, rfl, rfl⟩, .exited exit mode, by simpa [RuntimeBackend.Answers]⟩
  | fault fault =>
    exact ⟨_, ⟨rfl, rfl, rfl⟩, .faulted fault mode, by simpa [RuntimeBackend.Answers]⟩

/-- A diagnostic dispatch is one of the cases of `Dispatch`. -/
theorem runDiagnosticDispatch_spec (B : RuntimeBackend β) (s : Session β)
    (mode : s.configuration.mode = .diagnosticInterpreter) :
    ∃ entries, s.Extends (s.runDiagnosticDispatch B).2 entries ∧
      Dispatch s.configuration s.fallbackLedger s.statistics entries
        (s.runDiagnosticDispatch B).1 (s.runDiagnosticDispatch B).2.statistics ∧
      ∀ i ∈ entries, B.Answers i := by
  rcases hb : B.executeDiagnosticInterpreterBlock
    s.configuration.diagnosticInstructionsPerDispatch s.backend with ⟨answer, b⟩
  have hanswer : ∃ b, (B.executeDiagnosticInterpreterBlock
    s.configuration.diagnosticInstructionsPerDispatch b).1 = answer := ⟨s.backend, by rw [hb]⟩
  simp only [runDiagnosticDispatch, executeDiagnosticInterpreterBlock, hb, observe]
  by_cases hz : answer.instructionCount = 0 ∨
      answer.instructionCount > s.configuration.diagnosticInstructionsPerDispatch
  · simp only [hz, if_true]
    exact ⟨_, ⟨rfl, rfl, rfl⟩, .diagnosticInvalid answer mode hz,
      by simpa [RuntimeBackend.Answers]⟩
  · simp only [hz, if_false]
    exact ⟨_, ⟨rfl, rfl, List.append_assoc ..⟩, .diagnosed answer mode hz,
      by simpa [RuntimeBackend.Answers]⟩

/-- **The dispatch lemma.**  Every pass of the loop is one of the nine
dispatches, with the answers the backend gave. -/
theorem dispatch_spec (B : RuntimeBackend β) (s : Session β) :
    ∃ entries, s.Extends (s.dispatch B).2 entries ∧
      Dispatch s.configuration s.fallbackLedger s.statistics entries (s.dispatch B).1
        (s.dispatch B).2.statistics ∧
      ∀ i ∈ entries, B.Answers i := by
  unfold dispatch
  split_ifs with hm
  · exact runJitDispatch_spec B s hm
  · refine runDiagnosticDispatch_spec B s ?_
    cases hmode : s.configuration.mode
    · exact absurd hmode hm
    · rfl

/-- **The run lemma.**  A run either makes all its dispatches, none of which
stops it, and reports that its budget is exhausted, or it makes fewer and then
one that stops it, and reports what that one says. -/
theorem run_cases (B : RuntimeBackend β) (n : UInt64) (s : Session β) :
    (∃ s', Continues (dispatch B) n.toNat s s' ∧
      s.run B n = (s'.exhausted n, s'.observe (.runReturned (s'.exhausted n)))) ∨
    ∃ k < n.toNat, ∃ s' r s'', Continues (dispatch B) k s s' ∧ s'.dispatch B = (some r, s'') ∧
      s.run B n = (r, s''.observe (.runReturned r)) := by
  rcases hi : iterate (dispatch B) n.toNat s with ⟨_ | r, s'⟩
  · exact .inl ⟨s', iterate_eq_none_iff.1 hi, by rw [run, hi]⟩
  · obtain ⟨k, hk, s₁, hc, hd⟩ := iterate_eq_some_iff.1 hi
    exact .inr ⟨k, hk, s₁, r, s', hc, hd, by rw [run, hi]⟩

end Session

end Execution
end GcnPort
