/-
# What a stop reason says

`FallbackBudgetExceeded` should mean that a configured limit was hit, and a
malformed answer of the backend should end its run with `InvalidBackendResult`:
"a missing backend, code-publication failure, corrupt state, or invalid result
is a hard fault" (`docs/dolphin-embedding-contract.md`).  The session labels an
empty JIT block and an empty diagnostic block so.  Three malformed answers go
through the ledger instead, which returns nothing but a text, and come out as an
exhausted budget: a refusal with an unknown reason, an empty fallback block, and
a fallback block at another address (`Interaction.mislabelled`).

A run is labelled truthfully exactly if it got none of the three
(`stop_reason_truthful_iff`).
-/

import GcnPort.Execution.Budget
import GcnPort.Foundation.Log
import Mathlib.Data.List.Basic

namespace GcnPort
namespace Execution

open Foundation

namespace Interaction

/-- A malformed answer that goes through the ledger. -/
def mislabelled : Interaction → Bool
  | .executeJitBlock _ (.refusal refusal) => kJitRefusalReasonCount ≤ reasonIndex refusal.reason
  | .executeRefusedBlock _ refusal _ answer =>
    answer.instructionCount = 0 ∨ answer.guestPc ≠ refusal.guestPc
  | _ => false

/-- A malformed answer of the backend. -/
def malformed : Interaction → Bool
  | .executeJitBlock _ (.execution execution) => execution.instructionCount = 0
  | .executeDiagnosticInterpreterBlock _ _ answer => answer.instructionCount = 0
  | i => i.mislabelled

/-- The answer hits a configured limit: the counters at a refusal have reached
theirs, or an interpreted block exceeds the per-block limit or what remains of
the total. -/
def HitsLimit (budget : FallbackBudget) : Interaction → Prop
  | .executeJitBlock st (.refusal _) =>
    budget.maximumBlocks ≤ st.fallbackBlocks ∨
      budget.maximumTotalInstructions ≤ st.fallbackInstructions
  | .executeRefusedBlock st _ _ answer =>
    budget.maximumInstructionsPerBlock < answer.instructionCount ∨
      budget.maximumTotalInstructions.toNat - st.fallbackInstructions.toNat <
        answer.instructionCount.toNat
  | _ => False

end Interaction

/-- A run that logged `entries` and returned `result` is labelled truthfully. -/
structure TruthfulStop (budget : FallbackBudget) (entries : List Interaction)
    (result : RunResult) : Prop where
  /-- An exceeded budget was hit by the last answer of the run. -/
  exceeded : result.reason = .fallbackBudgetExceeded →
    ∃ i ∈ entries.getLast?, i.HitsLimit budget
  /-- A malformed answer ends the run as an invalid result. -/
  invalid : ∀ before i after, entries = before ++ i :: after → i.malformed = true →
    after = [] ∧ result.reason = .invalidBackendResult

section

variable {configuration : RuntimeConfiguration} {ledger : FallbackLedger}
  {st st' : ExecutionStatistics} {entries : List Interaction} {i : Interaction}

/-- What is all that is left of a single element comes of that element. -/
theorem eq_some_of_filterMap_singleton {α ρ : Type*} {f : α → Option ρ} {x : α} {y : ρ}
    (h : [x].filterMap f = [y]) : f x = some y := by
  cases hf : f x <;> simp_all

/-- The answer that stops a run is the last entry of its dispatch. -/
theorem Dispatch.stopped_last {r : RunResult}
    (h : Dispatch configuration ledger st entries (some r) st') :
    ∃ before i, entries = before ++ [i] ∧ i.stopReason ledger = some r.reason ∧
      before.filterMap (Interaction.stopReason ledger) = [] := by
  have hstop := h.stopReasons
  cases h with
  | rejected refusal answer error mode gate check =>
    refine ⟨[_], _, rfl, ?_, ?_⟩
    · simp [Interaction.stopReason, FallbackLedger.not_accepts_of_record check]
    · simp [Interaction.stopReason, gate]
  | empty | refused | exited | faulted | diagnosticInvalid =>
    exact ⟨[], _, rfl, eq_some_of_filterMap_singleton hstop, rfl⟩

/-- A malformed answer that goes through the ledger is labelled as an exceeded
budget. -/
theorem Interaction.stopReason_of_mislabelled (h : i.mislabelled = true) :
    i.stopReason ledger = some .fallbackBudgetExceeded := by
  match i with
  | .executeJitBlock st (.refusal refusal) =>
    have hreason : kJitRefusalReasonCount ≤ reasonIndex refusal.reason := by
      simpa [mislabelled] using h
    refine if_neg fun gate => ?_
    exact absurd (FallbackLedger.canEnter_eq_none_iff.1 gate).1 (Nat.not_lt.2 hreason)
  | .executeRefusedBlock st refusal limit answer =>
    have hbad : answer.instructionCount = 0 ∨ answer.guestPc ≠ refusal.guestPc := by
      simpa [mislabelled] using h
    refine if_neg fun hacc => ?_
    exact hbad.elim (absurd · hacc.2.2.1) (absurd hacc.2.1)

/-- A malformed answer stops its run, for one of two reasons. -/
theorem Interaction.stopReason_of_malformed (h : i.malformed = true) :
    i.mislabelled = false ∧ i.stopReason ledger = some .invalidBackendResult ∨
      i.mislabelled = true := by
  match i with
  | .executeJitBlock st (.execution execution) =>
    have hz : execution.instructionCount = 0 := by simpa [malformed] using h
    exact .inl ⟨rfl, if_pos hz⟩
  | .executeDiagnosticInterpreterBlock st limit answer =>
    have hz : answer.instructionCount = 0 := by simpa [malformed] using h
    exact .inl ⟨rfl, if_pos (.inl hz)⟩
  | .executeJitBlock st (.refusal refusal) => exact .inr h
  | .executeRefusedBlock st refusal limit answer => exact .inr h

/-- An answer that is mislabelled is malformed. -/
theorem Interaction.malformed_of_mislabelled (h : i.mislabelled = true) : i.malformed = true := by
  match i with
  | .executeJitBlock st (.refusal refusal) => exact h
  | .executeRefusedBlock st refusal limit answer => exact h

/-- **A block that `record` rejects** for another reason than being malformed
exceeds a limit. -/
theorem hitsLimit_of_not_accepts {refusal : JitRefusal} {limit : UInt32}
    {answer : InterpretedBlock} (gate : ledger.canEnter refusal st = none)
    (hgood : (Interaction.executeRefusedBlock st refusal limit answer).mislabelled = false)
    (hrej : ¬ledger.Accepts refusal answer st) :
    (Interaction.executeRefusedBlock st refusal limit answer).HitsLimit ledger.budget := by
  obtain ⟨hreason, -, hroom⟩ := FallbackLedger.canEnter_eq_none_iff.1 gate
  obtain ⟨hz, hpc⟩ : answer.instructionCount ≠ 0 ∧ answer.guestPc = refusal.guestPc := by
    simpa [Interaction.mislabelled] using hgood
  have hlt := UInt64.lt_iff_toNat_lt.1 hroom
  by_contra hhit
  obtain ⟨hper, hremains⟩ := not_or.1 hhit
  refine hrej ⟨hreason, hpc, hz, UInt32.not_lt.1 hper, ?_⟩
  rw [UInt64.le_iff_toNat_le, UInt64.toNat_add, UInt32.toNat_toUInt64]
  have := Nat.mod_le (st.fallbackInstructions.toNat + answer.instructionCount.toNat) (2 ^ 64)
  omega

/-- **An answer labelled as an exceeded budget** hit a limit, unless it is
malformed. -/
theorem hitsLimit_of_stopReason (hgood : i.mislabelled = false)
    (hgate : ∀ st refusal limit answer, i = .executeRefusedBlock st refusal limit answer →
      ledger.canEnter refusal st = none)
    (hstop : i.stopReason ledger = some .fallbackBudgetExceeded) :
    i.HitsLimit ledger.budget := by
  match i with
  | .executeJitBlock st (.execution execution) => simp [Interaction.stopReason] at hstop
  | .executeDiagnosticInterpreterBlock st limit answer => simp [Interaction.stopReason] at hstop
  | .executeJitBlock st (.refusal refusal) =>
    have hreason : reasonIndex refusal.reason < kJitRefusalReasonCount := by
      simpa [Interaction.mislabelled] using hgood
    have hno : ¬ledger.canEnter refusal st = none := by
      intro gate
      simp [Interaction.stopReason, gate] at hstop
    rw [FallbackLedger.canEnter_eq_none_iff, not_and, not_and_or] at hno
    exact (hno hreason).imp UInt64.not_lt.1 UInt64.not_lt.1
  | .executeRefusedBlock st refusal limit answer =>
    refine hitsLimit_of_not_accepts (hgate _ _ _ _ rfl) hgood fun hacc => ?_
    simp [Interaction.stopReason, hacc] at hstop

end

namespace Session

variable {β : Type*} {B : RuntimeBackend β}

/-- **Where a run stops.**  Either its log holds nothing that stops it and it
used up its budget, or the answer that stops it is the last entry before its
return. -/
theorem run_last (B : RuntimeBackend β) (n : UInt64) (s : Session β) :
    (∃ entries, s.Extends (s.run B n).2 (entries ++ [.runReturned (s.run B n).1]) ∧
      entries.filterMap (Interaction.stopReason s.fallbackLedger) = [] ∧
      (s.run B n).1.reason = .dispatchBudgetExhausted) ∨
    ∃ before i, s.Extends (s.run B n).2 (before ++ [i] ++ [.runReturned (s.run B n).1]) ∧
      before.filterMap (Interaction.stopReason s.fallbackLedger) = [] ∧
      i.stopReason s.fallbackLedger = some (s.run B n).1.reason := by
  rcases run_cases B n s with ⟨s', hc, hr⟩ | ⟨k, -, s', r, s'', hc, hd, hr⟩ <;> rw [hr] <;>
    obtain ⟨entries, hx, -, hstop⟩ := continues_spec hc
  · exact .inl ⟨entries, hx.trans (extends_observe _ _), hstop, rfl⟩
  · obtain ⟨entries', hx', hdisp, -⟩ := dispatch_spec B s'
    rw [hd] at hx' hdisp
    obtain ⟨before, i, rfl, hi, hbefore⟩ := hdisp.stopped_last
    rw [hx.fallbackLedger] at hi hbefore
    refine .inr ⟨entries ++ before, i, ?_, ?_, hi⟩
    · have := (hx.trans hx').trans (extends_observe s'' (.runReturned r))
      rwa [← List.append_assoc] at this
    · rw [List.filterMap_append, hstop, hbefore, List.append_nil]

end Session

/-- Nothing malformed is among entries that do not stop a run. -/
theorem not_malformed_of_filterMap {ledger : FallbackLedger} {entries : List Interaction}
    (h : entries.filterMap (Interaction.stopReason ledger) = []) {i : Interaction}
    (hi : i ∈ entries) : i.malformed = false := by
  refine Bool.eq_false_iff.2 fun hm => ?_
  have hnone := List.filterMap_eq_nil_iff.1 h i hi
  rcases Interaction.stopReason_of_malformed hm with ⟨-, hs⟩ | hs
  · rw [hnone] at hs
    cases hs
  · rw [Interaction.stopReason_of_mislabelled hs] at hnone
    cases hnone

/-- **Stop reasons are truthful** exactly for the runs in which the backend gave
no refusal of an unknown reason, no empty fallback block and no fallback block
at another address than the refusal's. -/
theorem stop_reason_truthful_iff {β : Type*} {B : RuntimeBackend β}
    {configuration : RuntimeConfiguration} {s : Session β} (h : s.Reachable B configuration)
    (n : UInt64) : ∃ entries,
      (s.run B n).2.log = s.log ++ (entries ++ [.runReturned (s.run B n).1]) ∧
      (TruthfulStop configuration.fallback entries (s.run B n).1 ↔
        ∀ i ∈ entries, i.mislabelled = false) := by
  rcases Session.run_last B n s with ⟨entries, hx, hstop, hr⟩ | ⟨before, i, hx, hbefore, hi⟩
  · -- the run used up its budget: nothing in it is malformed
    have hgood : ∀ i ∈ entries, i.malformed = false := fun i => not_malformed_of_filterMap hstop
    refine ⟨entries, hx.log, fun _ j hj => ?_, fun _ => ⟨fun hf => ?_, fun l j m hlog hm => ?_⟩⟩
    · refine Bool.eq_false_iff.2 fun hm => ?_
      exact Bool.eq_false_iff.1 (hgood j hj) (Interaction.malformed_of_mislabelled hm)
    · rw [hr] at hf
      cases hf
    · have := hgood j (by rw [hlog]; simp)
      rw [hm] at this
      cases this
  · have hgood : ∀ i ∈ before, i.malformed = false := fun i => not_malformed_of_filterMap hbefore
    refine ⟨before ++ [i], hx.log, fun ht j hj => ?_, fun hgood' => ⟨fun hf => ?_, ?_⟩⟩
    · -- a malformed answer labelled as an exceeded budget is not labelled as an invalid result
      refine Bool.eq_false_iff.2 fun hm => ?_
      have hmal := Interaction.malformed_of_mislabelled hm
      obtain ⟨l, m, hlog⟩ := List.append_of_mem hj
      have hreason := (ht.invalid l j m hlog hmal).2
      rcases List.mem_append.1 hj with hj | hj
      · rw [hgood j hj] at hmal
        cases hmal
      · obtain rfl := List.mem_singleton.1 hj
        rw [Interaction.stopReason_of_mislabelled hm, Option.some.injEq] at hi
        rw [hreason] at hi
        cases hi
    · refine ⟨i, by simp, ?_⟩
      rw [hf] at hi
      rw [← h.budget_eq]
      refine hitsLimit_of_stopReason (hgood' i (by simp)) ?_ hi
      rintro st refusal limit answer rfl
      have hmem : .executeRefusedBlock st refusal limit answer ∈ (s.run B n).2.log := by
        rw [hx.log]
        simp
      have := ((h.lawful.run n).history.entered hmem).1
      rwa [hx.fallbackLedger] at this
    · intro l j m hlog hm
      rcases concat_eq_append_cons.1 hlog with ⟨-, rfl, rfl⟩ | ⟨m', rfl, -⟩
      · refine ⟨rfl, ?_⟩
        rcases Interaction.stopReason_of_malformed hm with ⟨-, hs⟩ | hs
        · rw [hs] at hi
          exact (Option.some.inj hi).symm
        · rw [hgood' i (by simp)] at hs
          cases hs
      · rw [hgood j (by simp)] at hm
        cases hm

/-- A budget of one block, run for two dispatches: the second refusal hits the
limit. -/
theorem stop_reason_truthful_refusing :
    ∃ (s : Session Unit) (entries : List Interaction),
      (s.run (.refusing 1) 2).1.reason = .fallbackBudgetExceeded ∧
        (TruthfulStop ⟨1, 1, 1⟩ entries (s.run (.refusing 1) 2).1 ↔
          ∀ i ∈ entries, i.mislabelled = false) := by
  have h := stop_reason_truthful_iff (B := .refusing 1)
    (Session.reachable_runs { fallback := ⟨1, 1, 1⟩ } () rfl []) 2
  obtain ⟨entries, -, hiff⟩ := h
  exact ⟨_, entries, rfl, hiff⟩

/-- **An empty fallback block is reported as an exceeded budget**, of which
nothing was used. -/
theorem stop_reason_not_truthful : ∃ (s : Session Unit) (entries : List Interaction),
    s.Reachable (.refusing 0) { fallback := ⟨1, 1, 1⟩ } ∧
      (s.run (.refusing 0) 1).2.log =
        s.log ++ (entries ++ [.runReturned (s.run (.refusing 0) 1).1]) ∧
      ¬TruthfulStop ⟨1, 1, 1⟩ entries (s.run (.refusing 0) 1).1 := by
  refine ⟨_, [_, _], Session.reachable_runs _ () rfl [], rfl, fun ht => ?_⟩
  have := (ht.invalid [_] _ [] rfl (by decide)).2
  exact absurd this (by decide)

end Execution
end GcnPort
