/-
# Exact accounting

A backend that keeps to the limit it was given (`RuntimeBackend.Abides`) is
never rejected after it ran, because the limit came from the subtraction that
the check in `record` undoes.  So the counters of its session are exact: the
number of its entries and the unbounded sum of the counts it reported
(`History.interpretedSum_eq`), and a run stops for the budget exactly when the
gate refuses one of its refusals (`fallback_accounting_exact`).
-/

import GcnPort.Execution.Budget
import Mathlib.Algebra.BigOperators.Group.List.Basic

namespace GcnPort
namespace Execution

variable {β : Type*} {B : RuntimeBackend β}

/-- The interpreted block is at the refused address and has between one
instruction and as many as it was limited to. -/
def InterpretedBlock.KeepsTo (answer : InterpretedBlock) (refusal : JitRefusal)
    (limit : UInt32) : Prop :=
  answer.guestPc = refusal.guestPc ∧ 1 ≤ answer.instructionCount ∧
    answer.instructionCount ≤ limit

/-- The backend always answers `execute_refused_block` with a block that keeps
to its limit.  A limit of zero leaves no such block, and is never handed out. -/
def RuntimeBackend.Abides (B : RuntimeBackend β) : Prop :=
  ∀ refusal limit b, 1 ≤ limit →
    (B.executeRefusedBlock refusal limit b).1.KeepsTo refusal limit

/-- What `can_enter` refuses. -/
def GateRefuses (budget : FallbackBudget) (refusal : JitRefusal) (st : ExecutionStatistics) :
    Prop :=
  kJitRefusalReasonCount ≤ reasonIndex refusal.reason ∨
    budget.maximumBlocks ≤ st.fallbackBlocks ∨
    budget.maximumTotalInstructions ≤ st.fallbackInstructions

/-- The gate refuses exactly what the budget does not allow. -/
theorem canEnter_ne_none_iff {ledger : FallbackLedger} {refusal : JitRefusal}
    {st : ExecutionStatistics} :
    ledger.canEnter refusal st ≠ none ↔ GateRefuses ledger.budget refusal st := by
  rw [Ne, FallbackLedger.canEnter_eq_none_iff, GateRefuses, ← UInt64.not_lt, ← UInt64.not_lt,
    ← Nat.not_lt]
  tauto

section

variable {configuration : RuntimeConfiguration} {ledger : FallbackLedger}
  {st st' : ExecutionStatistics} {log entries : List Interaction} {r : Option RunResult}

/-- Every block the interpreter reported in the log keeps to its limit. -/
def AllKeep (log : List Interaction) : Prop :=
  ∀ st refusal limit answer, .executeRefusedBlock st refusal limit answer ∈ log →
    answer.KeepsTo refusal limit

/-- What holds of a log holds of its beginning. -/
theorem AllKeep.of_append (h : AllKeep (log ++ entries)) : AllKeep log :=
  fun _ _ _ _ hi => h _ _ _ _ (List.mem_append_left _ hi)

/-- A block that keeps to its call has at least one instruction. -/
theorem InterpretedBlock.KeepsTo.ne_zero {answer : InterpretedBlock} {refusal : JitRefusal}
    {limit : UInt32} (h : answer.KeepsTo refusal limit) : answer.instructionCount ≠ 0 := by
  intro h0
  have hone := h.2.1
  rw [h0] at hone
  exact absurd hone (by decide)

/-- A block that keeps to the limit of an admitted refusal is accepted. -/
theorem InterpretedBlock.KeepsTo.accepts {answer : InterpretedBlock} {refusal : JitRefusal}
    (h : answer.KeepsTo refusal (ledger.instructionLimit st))
    (gate : ledger.canEnter refusal st = none) : ledger.Accepts refusal answer st :=
  FallbackLedger.accepts_of_le_limit gate h.1 h.ne_zero h.2.2

/-- Charging a block that keeps to its limit adds its count exactly. -/
theorem InterpretedBlock.KeepsTo.toNat_add {answer : InterpretedBlock} {refusal : JitRefusal}
    (h : answer.KeepsTo refusal (ledger.instructionLimit st))
    (gate : ledger.canEnter refusal st = none) :
    (st.fallbackInstructions + answer.instructionCount.toUInt64).toNat =
      st.fallbackInstructions.toNat + answer.instructionCount.toNat := by
  have hlimit := (FallbackLedger.instructionLimit_bounds gate).2.2
  have hle := UInt32.le_iff_toNat_le.1 h.2.2
  have hmax := ledger.budget.maximumTotalInstructions.toNat_lt
  rw [UInt64.toNat_add, UInt32.toNat_toUInt64]
  omega

/-- The unbounded sum of the counts the interpreter reported. -/
def interpretedSum (log : List Interaction) : ℕ :=
  (log.map Interaction.interpretedInstructions).sum

/-- The interpreted instructions of two logs add up. -/
@[simp] theorem interpretedSum_append (log entries : List Interaction) :
    interpretedSum (log ++ entries) = interpretedSum log + interpretedSum entries := by
  simp [interpretedSum]

/-- Nothing is interpreted but in an entry of the interpreter. -/
theorem Interaction.interpretedInstructions_eq_zero {i : Interaction}
    (h : i.entersInterpreter = false) : i.interpretedInstructions = 0 := by
  cases i <;> first | rfl | cases h

/-- **The step lemma of the accounting.**  If every reported block keeps to its
limit, a dispatch adds to the counter what the interpreter reported. -/
theorem Dispatch.interpretedSum_eq (h : Dispatch configuration ledger st entries r st')
    (hk : AllKeep entries) :
    st'.fallbackInstructions.toNat = st.fallbackInstructions.toNat + interpretedSum entries := by
  rcases h.fallback_cases with hu | ⟨refusal, answer, gate, check, rfl, rfl⟩ |
    ⟨refusal, answer, gate, -, rfl, rfl⟩
  · rw [hu.instructions, interpretedSum, List.sum_eq_zero, Nat.add_zero]
    intro n hn
    obtain ⟨i, hi, rfl⟩ := List.mem_map.1 hn
    exact Interaction.interpretedInstructions_eq_zero (hu.entered i hi)
  · have keeps := hk _ _ _ _ (List.mem_cons_of_mem _ (List.mem_cons_self ..))
    exact absurd (keeps.accepts gate) check
  · have keeps := hk _ _ _ _ (List.mem_cons_of_mem _ (List.mem_cons_self ..))
    simp only [interpretedSum, List.map_cons, List.map_nil, List.sum_cons, List.sum_nil,
      Interaction.interpretedInstructions, Nat.zero_add, Nat.add_zero]
    exact keeps.toNat_add gate

/-- **The counter is the exact sum**, with no wrap-around, in every state of
the abstract session in which the interpreter kept to its limits. -/
theorem History.interpretedSum_eq (h : History configuration ledger st log) (hk : AllKeep log) :
    st.fallbackInstructions.toNat = interpretedSum log := by
  induction h with
  | start => rfl
  | dispatched _ hd ih =>
    rw [hd.interpretedSum_eq fun _ _ _ _ hi => hk _ _ _ _ (List.mem_append_right _ hi),
      ih hk.of_append, interpretedSum_append]
  | stopped _ hd ih =>
    rw [hd.interpretedSum_eq fun _ _ _ _ hi =>
        hk.of_append _ _ _ _ (List.mem_append_right _ hi),
      ih hk.of_append.of_append, interpretedSum_append, interpretedSum_append]
    rfl
  | exhausted _ _ ih =>
    rw [ih hk.of_append, interpretedSum_append]
    rfl

/-- Every entry reports at least one instruction. -/
theorem AllKeep.countP_le (hk : AllKeep log) :
    log.countP Interaction.entersInterpreter ≤ interpretedSum log := by
  induction log with
  | nil => exact Nat.zero_le _
  | cons i log ih =>
    have := ih fun _ _ _ _ hi => hk _ _ _ _ (List.mem_cons_of_mem _ hi)
    rw [List.countP_cons]
    show _ ≤ i.interpretedInstructions + interpretedSum log
    cases i with
    | executeRefusedBlock st refusal limit answer =>
      have hone := UInt32.le_iff_toNat_le.1 (hk _ _ _ _ (List.mem_cons_self ..)).2.1
      change 1 ≤ answer.instructionCount.toNat at hone
      simp only [Interaction.entersInterpreter, Interaction.interpretedInstructions, if_true]
      omega
    | _ => simp only [Interaction.entersInterpreter, Bool.false_eq_true, if_false]; omega

end

variable {configuration : RuntimeConfiguration} {s : Session β}

/-- A lawful session on an abiding backend reports only blocks that keep to
their limit, and `record` accepts them all. -/
theorem Session.Lawful.keeps (h : s.Lawful B) (hB : B.Abides) : AllKeep s.log ∧
    ∀ st refusal limit answer, .executeRefusedBlock st refusal limit answer ∈ s.log →
      s.fallbackLedger.Accepts refusal answer st := by
  have hkeep : AllKeep s.log := fun st refusal limit answer hi => by
    obtain ⟨gate, rfl⟩ := h.history.entered hi
    obtain ⟨b, rfl⟩ := h.answers _ hi
    exact hB refusal _ b (FallbackLedger.instructionLimit_bounds gate).1
  refine ⟨hkeep, fun st refusal limit answer hi => ?_⟩
  obtain ⟨gate, rfl⟩ := h.history.entered hi
  exact (hkeep _ _ _ _ hi).accepts gate

/-- Exact accounting: no entry is rejected, every limit is at least one, and
the two counters are the number of entries and the sum of their counts. -/
structure AccountingExact (budget : FallbackBudget) (s : Session β) : Prop where
  recorded : ∀ st refusal limit answer, .executeRefusedBlock st refusal limit answer ∈ s.log →
    (s.fallbackLedger.record refusal answer st).1 = none
  limit : ∀ st refusal limit answer, .executeRefusedBlock st refusal limit answer ∈ s.log →
    1 ≤ limit
  blocks : s.log.countP Interaction.entersInterpreter = s.statistics.fallbackBlocks.toNat
  instructions : interpretedSum s.log = s.statistics.fallbackInstructions.toNat
  bounded : s.log.countP Interaction.entersInterpreter ≤
    min budget.maximumBlocks.toNat budget.maximumTotalInstructions.toNat

/-- A lawful session over a backend that abides accounts for every entry. -/
theorem accountingExact_of_lawful (h : s.Lawful B) (hB : B.Abides) :
    AccountingExact s.fallbackLedger.budget s := by
  obtain ⟨hkeep, hacc⟩ := h.keeps hB
  have hw := h.history.within
  have hsum := h.history.interpretedSum_eq hkeep
  have hnone : s.log.countP (Interaction.rejectedBy s.fallbackLedger) = 0 := by
    refine List.countP_eq_zero.2 fun i hi => ?_
    cases i with
    | executeRefusedBlock st refusal limit answer =>
      simp [Interaction.rejectedBy, hacc _ _ _ _ hi]
    | _ => exact Bool.false_ne_true
  have hblocks : s.log.countP Interaction.entersInterpreter =
      s.statistics.fallbackBlocks.toNat := by rw [hw.entered, hw.events, hnone, Nat.add_zero]
  refine ⟨fun st refusal limit answer hi => ?_, fun st refusal limit answer hi => ?_, hblocks,
    hsum.symm, le_min ?_ ?_⟩
  · exact FallbackLedger.record_fst_eq_none_iff.2 (hacc _ _ _ _ hi)
  · obtain ⟨gate, rfl⟩ := h.history.entered hi
    exact (FallbackLedger.instructionLimit_bounds gate).1
  · rw [hblocks]
    exact UInt64.le_iff_toNat_le.1 hw.blocks
  · exact (hkeep.countP_le.trans hsum.ge).trans (UInt64.le_iff_toNat_le.1 hw.instructions)

/-- **A backend that keeps to its limits is never rejected after it ran**, and
its blocks and instructions are counted exactly.  A run stops for the fallback
budget exactly when one of its refusals is refused by the gate. -/
theorem fallback_accounting_exact (h : s.Reachable B configuration) (hB : B.Abides) :
    AccountingExact configuration.fallback s ∧
      (∀ refusal st, s.fallbackLedger.canEnter refusal st ≠ none ↔
        GateRefuses configuration.fallback refusal st) ∧
      ∀ n, ∃ entries, (s.run B n).2.log = s.log ++ (entries ++ [.runReturned (s.run B n).1]) ∧
        ((s.run B n).1.reason = .fallbackBudgetExceeded ↔
          ∃ st refusal, .executeJitBlock st (.refusal refusal) ∈ entries ∧
            GateRefuses configuration.fallback refusal st) := by
  refine ⟨h.budget_eq ▸ accountingExact_of_lawful h.lawful hB, fun refusal st => ?_, fun n => ?_⟩
  · rw [canEnter_ne_none_iff, h.budget_eq]
  obtain ⟨entries, hx, -, -, hend⟩ := Session.run_spec B n s
  refine ⟨entries, hx.log, fun hreason => ?_, ?_⟩
  · rw [hreason] at hend
    have hstop : entries.filterMap (Interaction.stopReason s.fallbackLedger) =
        [.fallbackBudgetExceeded] := hend.resolve_left (fun hc => nomatch hc.1) |>.2
    obtain ⟨i, hi, hri⟩ := List.mem_filterMap.1 (hstop ▸ List.mem_singleton_self _)
    have hlog : i ∈ (s.run B n).2.log := by
      rw [hx.log]
      exact List.mem_append_right _ (List.mem_append_left _ hi)
    match i with
    | .executeJitBlock st (.refusal refusal) =>
      refine ⟨st, refusal, hi, ?_⟩
      rw [← h.budget_eq, ← canEnter_ne_none_iff]
      intro hnone
      simp [Interaction.stopReason, hnone] at hri
    | .executeRefusedBlock st refusal limit answer =>
      have hacc := ((h.lawful.run n).keeps hB).2 _ _ _ _ hlog
      rw [hx.fallbackLedger] at hacc
      simp [Interaction.stopReason, hacc] at hri
    | .executeJitBlock st (.execution execution) =>
      simp [Interaction.stopReason] at hri
    | .executeDiagnosticInterpreterBlock st limit answer =>
      simp [Interaction.stopReason] at hri
  · rintro ⟨st, refusal, hi, hg⟩
    rw [← h.budget_eq, ← canEnter_ne_none_iff] at hg
    have hmem : .fallbackBudgetExceeded ∈
        entries.filterMap (Interaction.stopReason s.fallbackLedger) :=
      List.mem_filterMap.2 ⟨_, hi, by simp [Interaction.stopReason, hg]⟩
    rcases hend with ⟨-, -, hnil⟩ | ⟨-, hone⟩
    · rw [hnil] at hmem
      exact absurd hmem List.not_mem_nil
    · rw [hone] at hmem
      exact (List.mem_singleton.1 hmem).symm

/-- A backend that interprets one instruction where it refused abides. -/
theorem RuntimeBackend.refusing_abides : (RuntimeBackend.refusing 1).Abides :=
  fun _ _ _ hl => ⟨rfl, UInt32.le_refl 1, hl⟩

/-- A session with a budget of two blocks and two instructions: three refusals
make two entries, and the third refusal ends the run. -/
theorem fallback_accounting_exact_refusing : ∃ s : Session Unit,
    s.log.countP Interaction.entersInterpreter = 2 ∧ AccountingExact ⟨2, 2, 5⟩ s := by
  refine ⟨_, ?_, (fallback_accounting_exact (B := .refusing 1)
    (Session.reachable_runs { fallback := ⟨2, 2, 5⟩ } () rfl [3])
    RuntimeBackend.refusing_abides).1⟩
  rfl

end Execution
end GcnPort
