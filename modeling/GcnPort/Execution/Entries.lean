/-
# Entries into the interpreter

The block budget bounds the blocks that were charged.  It bounds the entries
themselves only while no entry follows a rejected one
(`fallback_entries_le_of_no_entry_after_rejection`): a block that `record`
rejects has been executed, is not charged, and does not keep the next `run`
from entering again (`fallback_entries_exceed_budget`).
-/

import GcnPort.Execution.Budget

namespace GcnPort
namespace Execution

/-- No entry into the interpreter comes after one whose block `record` rejected. -/
def NoEntryAfterRejection (ledger : FallbackLedger) (log : List Interaction) : Prop :=
  log.Pairwise fun i j => i.rejectedBy ledger = true → j.entersInterpreter = false

section

variable {configuration : RuntimeConfiguration} {ledger : FallbackLedger}
  {st st' : ExecutionStatistics} {log entries : List Interaction} {r : Option RunResult}

/-- While every block was charged, the entries are the charged blocks, and the
gate leaves room for one more. -/
theorem Within.entries_lt (hw : Within ledger st log) {refusal : JitRefusal}
    (gate : ledger.canEnter refusal st = none) {j : Interaction} (hj : j ∈ entries)
    (henter : j.entersInterpreter = true)
    (hp : NoEntryAfterRejection ledger (log ++ entries)) :
    log.countP Interaction.entersInterpreter < ledger.budget.maximumBlocks.toNat := by
  have hlt := UInt64.lt_iff_toNat_lt.1 (FallbackLedger.canEnter_eq_none_iff.1 gate).2.1
  have hnone : log.countP (Interaction.rejectedBy ledger) = 0 :=
    List.countP_eq_zero.2 fun i hi hrej => by
      have := (List.pairwise_append.1 hp).2.2 i hi j hj hrej
      rw [henter] at this
      cases this
  rw [hw.entered, hw.events, hnone]
  exact hlt

/-- A dispatch keeps the entries within the budget, unless it enters behind a rejection. -/
theorem Dispatch.entries_le (h : Dispatch configuration ledger st entries r st')
    (hw : Within ledger st log)
    (hle : log.countP Interaction.entersInterpreter ≤ ledger.budget.maximumBlocks.toNat)
    (hp : NoEntryAfterRejection ledger (log ++ entries)) :
    (log ++ entries).countP Interaction.entersInterpreter ≤
      ledger.budget.maximumBlocks.toNat := by
  rw [List.countP_append]
  rcases h.fallback_cases with hu | ⟨refusal, answer, gate, -, -, rfl⟩ |
    ⟨refusal, answer, gate, -, -, rfl⟩
  · rw [(hu.counts ledger).1]
    exact hle
  · exact hw.entries_lt gate (List.mem_cons_of_mem _ (List.mem_cons_self ..)) rfl hp
  · exact hw.entries_lt gate (List.mem_cons_of_mem _ (List.mem_cons_self ..)) rfl hp

/-- What never enters behind a rejection did not do so before. -/
theorem NoEntryAfterRejection.of_append (h : NoEntryAfterRejection ledger (log ++ entries)) :
    NoEntryAfterRejection ledger log :=
  (List.pairwise_append.1 h).1

/-- A history keeps the entries within the budget. -/
theorem History.entries_le (h : History configuration ledger st log)
    (hp : NoEntryAfterRejection ledger log) :
    log.countP Interaction.entersInterpreter ≤ ledger.budget.maximumBlocks.toNat := by
  induction h with
  | start => exact Nat.zero_le _
  | dispatched h hd ih => exact hd.entries_le h.within (ih hp.of_append) hp
  | stopped h hd ih =>
    rw [List.countP_append]
    exact hd.entries_le h.within (ih hp.of_append.of_append) hp.of_append
  | exhausted _ h ih =>
    rw [List.countP_append]
    exact ih hp.of_append

end

variable {β : Type*} {B : RuntimeBackend β} {configuration : RuntimeConfiguration}
  {s : Session β}

/-- **Entries into the interpreter, counted.**  They are the charged blocks and
the rejected ones.  They stay within the block budget in every state in which
no entry was made after a rejected block. -/
theorem fallback_entries_le_of_no_entry_after_rejection (h : s.Reachable B configuration) :
    s.log.countP Interaction.entersInterpreter =
        s.statistics.fallbackBlocks.toNat +
          s.log.countP (Interaction.rejectedBy s.fallbackLedger) ∧
      (NoEntryAfterRejection s.fallbackLedger s.log →
        s.log.countP Interaction.entersInterpreter ≤
          configuration.fallback.maximumBlocks.toNat) := by
  have hw := h.lawful.history.within
  refine ⟨by rw [hw.entered, hw.events], fun hp => ?_⟩
  rw [← h.budget_eq]
  exact h.lawful.history.entries_le hp

/-- A session with a budget of one block, run once: one entry, which `record`
rejects, and the bound holds. -/
theorem fallback_entries_le_refusing : ∃ s : Session Unit,
    s.log.countP (Interaction.rejectedBy s.fallbackLedger) = 1 ∧
      s.log.countP Interaction.entersInterpreter ≤ (1 : UInt64).toNat := by
  refine ⟨_, ?_, (fallback_entries_le_of_no_entry_after_rejection (B := .refusing 0)
    (Session.reachable_runs { fallback := ⟨1, 1, 1⟩ } () rfl [1])).2 ?_⟩
  · rfl
  · unfold NoEntryAfterRejection
    decide

/-- **The block budget is not a bound on entries.**  With a budget of one block
and a backend that reports zero instructions, each of two runs enters the
interpreter, is stopped by `record`, and charges nothing. -/
theorem fallback_entries_exceed_budget : ∃ s : Session Unit,
    s.Reachable (.refusing 0) { mode := .jit, fallback := ⟨1, 1, 1⟩ } ∧
      ¬s.log.countP Interaction.entersInterpreter ≤ (1 : UInt64).toNat := by
  refine ⟨_, Session.reachable_runs _ () rfl [1, 1], ?_⟩
  decide

end Execution
end GcnPort
