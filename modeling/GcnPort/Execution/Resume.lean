/-
# Splitting a run

A run keeps nothing of its own between dispatches: the bound of its loop is all
it has.  So a run of `m + n` dispatches is a run of `m`, resumed by a run of `n`
if the first used up its budget.  `iterate_add` says this of the loop; the two
runs differ only in the return of the first, which the log holds and no
dispatch reads (`dispatch_withLog`).
-/

import GcnPort.Execution.RunEnd

namespace GcnPort
namespace Execution

open Foundation

namespace Interaction

/-- The return of a run. -/
def isReturn : Interaction → Bool
  | .runReturned _ => true
  | _ => false

end Interaction

namespace Session

variable {β : Type*} {B : RuntimeBackend β}

/-- The session with another log. -/
def withLog (s : Session β) (log : List Interaction) : Session β :=
  { s with log }

/-- What a session did: its calls to the backend and its events, without the
returns of the runs they were made in. -/
def trace (s : Session β) : List Interaction :=
  s.log.filter fun i => !i.isReturn

/-- A JIT dispatch does not depend on the log that it adds to. -/
theorem runJitDispatch_withLog (B : RuntimeBackend β) (s : Session β) :
    ∃ entries, ∀ log, (s.withLog log).runJitDispatch B =
      ((s.runJitDispatch B).1, (s.runJitDispatch B).2.withLog (log ++ entries)) := by
  rcases hb : B.executeJitBlock s.backend with ⟨answer, b⟩
  simp only [runJitDispatch, executeJitBlock, withLog, hb]
  cases answer with
  | execution execution =>
    by_cases hz : execution.instructionCount = 0
    · simp only [hz, if_true]
      exact ⟨_, fun _ => rfl⟩
    · simp only [hz, if_false, observe, List.append_assoc]
      exact ⟨_, fun _ => rfl⟩
  | refusal refusal =>
    cases hgate : s.fallbackLedger.canEnter refusal s.statistics.countDispatch with
    | some error =>
      simp only [observe, hgate]
      exact ⟨_, fun _ => rfl⟩
    | none =>
      rcases he : B.executeRefusedBlock refusal
        (s.fallbackLedger.instructionLimit s.statistics.countDispatch) b with ⟨block, b'⟩
      rcases hr : s.fallbackLedger.record refusal block s.statistics.countDispatch with
        ⟨_ | error, statistics⟩ <;>
        simp only [observe, hgate, executeRefusedBlock, he, hr, List.append_assoc] <;>
        exact ⟨_, fun _ => rfl⟩
  | exit exit => exact ⟨_, fun _ => rfl⟩
  | fault fault => exact ⟨_, fun _ => rfl⟩

/-- A diagnostic dispatch does not depend on the log that it adds to. -/
theorem runDiagnosticDispatch_withLog (B : RuntimeBackend β) (s : Session β) :
    ∃ entries, ∀ log, (s.withLog log).runDiagnosticDispatch B =
      ((s.runDiagnosticDispatch B).1,
        (s.runDiagnosticDispatch B).2.withLog (log ++ entries)) := by
  simp only [runDiagnosticDispatch, executeDiagnosticInterpreterBlock, withLog, observe,
    List.append_assoc]
  split_ifs <;> exact ⟨_, fun _ => rfl⟩

/-- **The log is written and never read**: a dispatch adds the same entries to
any log, and does everything else as if there were none. -/
theorem dispatch_withLog (B : RuntimeBackend β) (s : Session β) :
    ∃ entries, ∀ log, (s.withLog log).dispatch B =
      ((s.dispatch B).1, (s.dispatch B).2.withLog (log ++ entries)) := by
  by_cases hm : s.configuration.mode = .jit
  · simpa only [dispatch, withLog, hm, if_true] using runJitDispatch_withLog B s
  · simpa only [dispatch, withLog, hm, if_false] using runDiagnosticDispatch_withLog B s

/-- The loop of a run adds the same entries to any log. -/
theorem iterate_withLog (B : RuntimeBackend β) (n : ℕ) (s : Session β) :
    ∃ entries, ∀ log, iterate (dispatch B) n (s.withLog log) =
      ((iterate (dispatch B) n s).1, (iterate (dispatch B) n s).2.withLog (log ++ entries)) := by
  induction n generalizing s with
  | zero => exact ⟨[], fun log => by rw [iterate, iterate, List.append_nil]⟩
  | succ n ih =>
    obtain ⟨entries, hd⟩ := dispatch_withLog B s
    rcases hs : s.dispatch B with ⟨_ | r, s'⟩ <;> rw [hs] at hd
    · obtain ⟨entries', hi⟩ := ih s'
      refine ⟨entries ++ entries', fun log => ?_⟩
      rw [iterate, iterate, hd, hs, ← List.append_assoc]
      exact hi (log ++ entries)
    · exact ⟨entries, fun log => by rw [iterate, iterate, hd, hs]⟩

/-- `run m`, and then `run n` if the first used up its budget: the last result,
and the session after it. -/
def runSplit (B : RuntimeBackend β) (m n : UInt64) (s : Session β) : RunResult × Session β :=
  let (result, s) := s.run B m
  if result.reason = .dispatchBudgetExhausted then s.run B n else (result, s)

/-- Two sessions that did the same, up to the returns of their runs. -/
structure SameTrace (s t : Session β) : Prop where
  configuration : s.configuration = t.configuration
  fallbackLedger : s.fallbackLedger = t.fallbackLedger
  backend : s.backend = t.backend
  statistics : s.statistics = t.statistics
  trace : s.trace = t.trace

end Session

/-- Two results that agree, up to the budget an exhausted run names. -/
structure RunResult.Agrees (r r' : RunResult) : Prop where
  reason : r.reason = r'.reason
  guestPc : r.guestPc = r'.guestPc
  statistics : r.statistics = r'.statistics
  detail : r.reason ≠ .dispatchBudgetExhausted → r.detail = r'.detail

namespace Session

variable {β : Type*} {B : RuntimeBackend β}

/-- A run that nothing stops uses up its dispatches. -/
theorem run_of_iterate_none {n : UInt64} {s s' : Session β}
    (h : iterate (dispatch B) n.toNat s = (none, s')) :
    s.run B n = (s'.exhausted n, s'.observe (.runReturned (s'.exhausted n))) := by
  rw [run, h]

/-- A run ends with what stops it. -/
theorem run_of_iterate_some {n : UInt64} {s s' : Session β} {r : RunResult}
    (h : iterate (dispatch B) n.toNat s = (some r, s')) :
    s.run B n = (r, s'.observe (.runReturned r)) := by
  rw [run, h]

/-- A loop that starts from a log with one return more ends alike, and leaves
the same trace. -/
theorem iterate_observe_runReturned (B : RuntimeBackend β) (n : ℕ) (s : Session β)
    (r : RunResult) :
    ∃ t, iterate (dispatch B) n (s.observe (.runReturned r)) =
        ((iterate (dispatch B) n s).1, t) ∧ SameTrace (iterate (dispatch B) n s).2 t := by
  obtain ⟨entries, hi⟩ := iterate_withLog B n s
  refine ⟨_, hi (s.log ++ [Interaction.runReturned r]), rfl, rfl, rfl, rfl, ?_⟩
  have hlog : (iterate (dispatch B) n s).2.log = s.log ++ entries :=
    congrArg (fun x => x.2.log) (hi s.log)
  simp [trace, withLog, hlog, Interaction.isReturn]

/-- Handing out the same result leaves the same trace. -/
theorem SameTrace.observe {s t : Session β} (h : SameTrace s t) (r r' : RunResult) :
    SameTrace (s.observe (.runReturned r)) (t.observe (.runReturned r')) := by
  obtain ⟨hc, hl, hb, hs, ht⟩ := h
  refine ⟨hc, hl, hb, hs, ?_⟩
  show (s.log ++ _).filter _ = (t.log ++ _).filter _
  rw [List.filter_append, List.filter_append]
  exact congrArg (· ++ []) ht

end Session

open Session

/-- **Splitting a run changes nothing.**  Whether a session makes `m + n`
dispatches in one run, or `m` in one and, if that run used up its budget, `n`
in another, its backend sees the same calls, its sink the same events with the
same snapshots, and its caller the same last result. -/
theorem run_split {β : Type*} (B : RuntimeBackend β) (m n : UInt64)
    (hmn : m.toNat + n.toNat < 2 ^ 64) (s : Session β) :
    SameTrace (s.run B (m + n)).2 (s.runSplit B m n).2 ∧
      (s.run B (m + n)).1.Agrees (s.runSplit B m n).1 := by
  have hadd : (m + n).toNat = m.toNat + n.toNat := by
    rw [UInt64.toNat_add]
    omega
  have hsplit := iterate_add (dispatch B) m.toNat n.toNat s
  rw [← hadd] at hsplit
  rcases hm : iterate (dispatch B) m.toNat s with ⟨_ | r, s'⟩ <;> simp only [hm] at hsplit
  · -- the first run used up its budget, and its return is in the log of the second
    obtain ⟨t, ht, htrace⟩ := iterate_observe_runReturned B n.toNat s' (s'.exhausted m)
    have hreason : (s'.exhausted m).reason = .dispatchBudgetExhausted := rfl
    rw [runSplit, run_of_iterate_none hm]
    simp only [hreason, if_true]
    rcases hn : iterate (dispatch B) n.toNat s' with ⟨_ | r, s''⟩ <;> rw [hn] at hsplit ht htrace
    · rw [run_of_iterate_none hsplit, run_of_iterate_none ht]
      exact ⟨htrace.observe _ _, rfl, rfl, htrace.statistics, fun hne => absurd rfl hne⟩
    · rw [run_of_iterate_some hsplit, run_of_iterate_some ht]
      exact ⟨htrace.observe _ _, rfl, rfl, rfl, fun _ => rfl⟩
  · -- the first run was stopped, and there is no second
    obtain ⟨k, -, s₁, -, hd⟩ := iterate_eq_some_iff.1 hm
    obtain ⟨entries, -, hdisp, -⟩ := dispatch_spec B s₁
    rw [hd] at hdisp
    rw [runSplit, run_of_iterate_some hm, run_of_iterate_some hsplit]
    simp only [hdisp.reason_ne, if_false]
    exact ⟨⟨rfl, rfl, rfl, rfl, rfl⟩, rfl, rfl, rfl, fun _ => rfl⟩

/-- A budget of one block, run for one dispatch and then for another: the second
is refused, as it is in a run of two. -/
theorem run_split_refusing : ∃ s : Session Unit,
    (s.runSplit (.refusing 1) 1 1).1.reason = .fallbackBudgetExceeded ∧
      (s.run (.refusing 1) (1 + 1)).1.Agrees (s.runSplit (.refusing 1) 1 1).1 := by
  refine ⟨⟨{ fallback := ⟨1, 1, 1⟩ }, (), ⟨⟨1, 1, 1⟩, by decide⟩, {}, [], rfl, by decide⟩, ?_,
    (run_split (.refusing 1) 1 1 (by decide) _).2⟩
  rfl

end Execution
end GcnPort
