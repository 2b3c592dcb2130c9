/-
# The limit and the check

`instruction_limit` subtracts to find what remains of the total and narrows it
to 32 bits; `record` adds the block to the counter and compares the sum with
the total.  The two agree on which blocks are within the limit as long as the
64-bit sum does not wrap (`limit_agrees_iff`).  Within `2^32` of the top of the
counter it can: a block over its limit is then accepted, and the counter goes
down (`limit_disagrees_at_top`).
-/

import GcnPort.Execution.FallbackLedger

namespace GcnPort
namespace Execution

/-- The limit handed out for a refusal and the check of the block reported for
it agree: the check accepts exactly the counts from one to the limit, and what
it accepts makes the counter grow and keeps it within the total. -/
structure LimitAgrees (ledger : FallbackLedger) (refusal : JitRefusal)
    (execution : InterpretedBlock) (statistics : ExecutionStatistics) : Prop where
  accepted : (ledger.record refusal execution statistics).1 = none ↔
    1 ≤ execution.instructionCount ∧
      execution.instructionCount ≤ ledger.instructionLimit statistics
  counted : (ledger.record refusal execution statistics).1 = none →
    statistics.fallbackInstructions <
        (ledger.record refusal execution statistics).2.fallbackInstructions ∧
      (ledger.record refusal execution statistics).2.fallbackInstructions ≤
        ledger.budget.maximumTotalInstructions

/-- The sum `record` compares does not wrap. -/
def SumFits (statistics : ExecutionStatistics) (execution : InterpretedBlock) : Prop :=
  statistics.fallbackInstructions.toNat + execution.instructionCount.toNat < 2 ^ 64

instance (statistics : ExecutionStatistics) (execution : InterpretedBlock) :
    Decidable (SumFits statistics execution) :=
  inferInstanceAs (Decidable (_ < _))

section

variable {ledger : FallbackLedger} {refusal : JitRefusal} {execution : InterpretedBlock}
  {statistics : ExecutionStatistics}

/-- The sum in numbers, while it does not wrap. -/
theorem SumFits.toNat_add (h : SumFits statistics execution) :
    (statistics.fallbackInstructions + execution.instructionCount.toUInt64).toNat =
      statistics.fallbackInstructions.toNat + execution.instructionCount.toNat := by
  have : statistics.fallbackInstructions.toNat + execution.instructionCount.toNat < 2 ^ 64 := h
  rw [UInt64.toNat_add, UInt32.toNat_toUInt64]
  omega

/-- A count of at least one, in numbers. -/
theorem one_le_iff_ne_zero {n : UInt32} : 1 ≤ n ↔ n ≠ 0 := by
  rw [UInt32.le_iff_toNat_le, Ne, ← UInt32.toNat_inj]
  show 1 ≤ n.toNat ↔ ¬n.toNat = 0
  omega

/-- What `record` leaves in the counter of what it accepts. -/
theorem FallbackLedger.record_fallbackInstructions
    (h : ledger.Accepts refusal execution statistics) :
    (ledger.record refusal execution statistics).2.fallbackInstructions =
      statistics.fallbackInstructions + execution.instructionCount.toUInt64 := by
  rw [record_of_accepts h]
  rfl

/-- **A sum that does not wrap** exceeds the total exactly when the block
exceeds its limit. -/
theorem SumFits.limitAgrees (h : SumFits statistics execution)
    (gate : ledger.canEnter refusal statistics = none)
    (hpc : execution.guestPc = refusal.guestPc) :
    LimitAgrees ledger refusal execution statistics := by
  obtain ⟨hreason, -, hroom⟩ := FallbackLedger.canEnter_eq_none_iff.1 gate
  have hlimit := FallbackLedger.instructionLimit_toNat hroom
  have hlt := UInt64.lt_iff_toNat_lt.1 hroom
  have hsum := h.toNat_add
  have haccepts : ledger.Accepts refusal execution statistics ↔
      execution.instructionCount ≠ 0 ∧
        execution.instructionCount ≤ ledger.instructionLimit statistics := by
    rw [FallbackLedger.Accepts, UInt32.le_iff_toNat_le, UInt64.le_iff_toNat_le, hsum,
      UInt32.le_iff_toNat_le, hlimit]
    constructor
    · rintro ⟨-, -, hz, hper, htotal⟩
      exact ⟨hz, by omega⟩
    · rintro ⟨hz, hle⟩
      exact ⟨hreason, hpc, hz, by omega, by omega⟩
  constructor
  · rw [FallbackLedger.record_fst_eq_none_iff, haccepts, one_le_iff_ne_zero]
  · intro hok
    have hacc := FallbackLedger.record_fst_eq_none_iff.1 hok
    have hpos : execution.instructionCount.toNat ≠ 0 := fun h0 =>
      hacc.2.2.1 (UInt32.toNat_inj.1 h0)
    rw [FallbackLedger.record_fallbackInstructions hacc, UInt64.lt_iff_toNat_lt, hsum]
    exact ⟨by omega, hacc.2.2.2.2⟩

/-- **A sum that wraps** lets a block within the per-block limit through. -/
theorem accepts_of_not_sumFits (h : ¬SumFits statistics execution)
    (gate : ledger.canEnter refusal statistics = none)
    (hpc : execution.guestPc = refusal.guestPc)
    (hper : execution.instructionCount ≤ ledger.budget.maximumInstructionsPerBlock) :
    ledger.Accepts refusal execution statistics := by
  obtain ⟨hreason, -, hroom⟩ := FallbackLedger.canEnter_eq_none_iff.1 gate
  have hwrap : ¬statistics.fallbackInstructions.toNat + execution.instructionCount.toNat
      < 2 ^ 64 := h
  have hlt := UInt64.lt_iff_toNat_lt.1 hroom
  have hcounter := statistics.fallbackInstructions.toNat_lt
  have hcount := execution.instructionCount.toNat_lt
  refine ⟨hreason, hpc, fun h0 => ?_, hper, ?_⟩
  · have : execution.instructionCount.toNat = 0 := by rw [h0]; rfl
    omega
  · rw [UInt64.le_iff_toNat_le, UInt64.toNat_add, UInt32.toNat_toUInt64]
    omega

end

/-- **The limit and the check agree** at an admitted refusal exactly if the sum
`record` compares does not wrap, or the block is over the per-block limit
anyway. -/
theorem limit_agrees_iff {ledger : FallbackLedger} {refusal : JitRefusal}
    {execution : InterpretedBlock} {statistics : ExecutionStatistics}
    (gate : ledger.canEnter refusal statistics = none)
    (hpc : execution.guestPc = refusal.guestPc) :
    LimitAgrees ledger refusal execution statistics ↔
      SumFits statistics execution ∨
        ledger.budget.maximumInstructionsPerBlock < execution.instructionCount := by
  constructor
  · intro h
    by_contra hc
    obtain ⟨hwrap, hper⟩ := not_or.1 hc
    have hacc := accepts_of_not_sumFits hwrap gate hpc (UInt32.not_lt.1 hper)
    have hle := (h.accepted.1 (FallbackLedger.record_fst_eq_none_iff.2 hacc)).2
    have hfits := (FallbackLedger.instructionLimit_bounds gate).2.2
    have hmax := ledger.budget.maximumTotalInstructions.toNat_lt
    rw [UInt32.le_iff_toNat_le] at hle
    refine hwrap ?_
    show _ < 2 ^ 64
    omega
  · rintro (hfits | hper)
    · exact hfits.limitAgrees gate hpc
    · -- over the per-block limit the check rejects, and the limit is smaller still
      have hbound := (FallbackLedger.instructionLimit_bounds gate).2.1
      have hno : ¬(ledger.record refusal execution statistics).1 = none := fun hok =>
        UInt32.not_lt.2 (FallbackLedger.record_fst_eq_none_iff.1 hok).2.2.2.1 hper
      refine ⟨⟨fun hok => absurd hok hno, fun hle => ?_⟩, fun hok => absurd hok hno⟩
      exact absurd (UInt32.lt_of_lt_of_le hper hle.2) (UInt32.not_lt.2 hbound)

/-- A ledger with two instructions left and a block of two: they agree. -/
theorem limit_agrees_two_left :
    ∃ (ledger : FallbackLedger) (statistics : ExecutionStatistics),
      ledger.instructionLimit statistics = 2 ∧
        LimitAgrees ledger ⟨0x80004000, .unsafeInstructionFetch⟩ ⟨0x80004000, 2⟩ statistics :=
  ⟨⟨⟨9, 5, 3⟩, by decide⟩, { fallbackBlocks := 1, fallbackInstructions := 3 }, by decide,
    (limit_agrees_iff (by decide) rfl).2 (.inl (by decide))⟩

/-- **At the top of the counter they disagree.**  With one instruction left of
`2^64 - 1`, a block of five is over its limit of one and is accepted, and the
counter goes down to three. -/
theorem limit_disagrees_at_top :
    ∃ (ledger : FallbackLedger) (refusal : JitRefusal) (execution : InterpretedBlock)
      (statistics : ExecutionStatistics),
      ledger.budget = ⟨0xffffffffffffffff, 0xffffffffffffffff, 8⟩ ∧
        statistics.fallbackInstructions = 0xfffffffffffffffe ∧
        execution.instructionCount = 5 ∧
        ledger.canEnter refusal statistics = none ∧ execution.guestPc = refusal.guestPc ∧
        ¬LimitAgrees ledger refusal execution statistics := by
  refine ⟨⟨⟨0xffffffffffffffff, 0xffffffffffffffff, 8⟩, by decide⟩,
    ⟨0x80004000, .unsafeInstructionFetch⟩, ⟨0x80004000, 5⟩,
    { fallbackBlocks := 1, fallbackInstructions := 0xfffffffffffffffe }, rfl, rfl, rfl,
    by decide, rfl, fun h => ?_⟩
  have hle := (h.accepted.1 (by decide)).2
  exact absurd hle (by decide)

end Execution
end GcnPort
