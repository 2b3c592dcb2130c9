/-
# The fallback ledger

`include/gcnport/fallback_ledger.h`, `src/fallback_ledger.cpp`.  The ledger
holds the three limits of a session and decides three things separately:

* `canEnter` looks at the counters before the interpreter is entered,
* `instructionLimit` says how many instructions the entry may execute,
* `record` checks the block the backend reports and charges it.

`canEnter_eq_none_iff`, `instructionLimit_toNat` and `record_fst_eq_none_iff`
say what each of them computes; nothing later unfolds the functions.
`record` adds a 32-bit count to a 64-bit counter modulo `2^64` before it
compares, so what it accepts (`Accepts`) is stated with that sum, and
`accepts_of_le_limit` is where the sum is shown not to wrap.
-/

import GcnPort.Execution.Types
import Mathlib.Tactic.Linarith

namespace GcnPort
namespace Execution

/-- `std::hex` output of an address: lower case, no leading zeros. -/
def hex (address : GuestAddress) : String :=
  String.ofList (Nat.toDigits 16 address.toNat)

/-- `pc_message`. -/
def pcMessage (head : String) (pc : GuestAddress) : String :=
  head ++ " 0x" ++ hex pc

/-- `disabled` of the ledger's constructor: no limit is configured. -/
def FallbackBudget.disabled (budget : FallbackBudget) : Bool :=
  budget.maximumBlocks = 0 && budget.maximumTotalInstructions = 0 &&
    budget.maximumInstructionsPerBlock = 0

/-- `fully_configured` of the ledger's constructor: every limit is configured. -/
def FallbackBudget.fullyConfigured (budget : FallbackBudget) : Bool :=
  budget.maximumBlocks ≠ 0 && budget.maximumTotalInstructions ≠ 0 &&
    budget.maximumInstructionsPerBlock ≠ 0

/-- `FallbackLedger`: a budget its constructor accepted. -/
@[ext]
structure FallbackLedger where
  budget : FallbackBudget
  configured : budget.disabled ∨ budget.fullyConfigured

namespace FallbackLedger

/-- The constructor `FallbackLedger(FallbackBudget)`. -/
def new (budget : FallbackBudget) : Except Exception FallbackLedger :=
  if h : budget.disabled ∨ budget.fullyConfigured then
    .ok ⟨budget, h⟩
  else
    .error (.invalidArgument "fallback limits must be all zero or all nonzero")

/-- `FallbackLedger::can_enter`: `none` when the refused block may be interpreted. -/
def canEnter (ledger : FallbackLedger) (refusal : JitRefusal)
    (statistics : ExecutionStatistics) : Option String :=
  if reasonIndex refusal.reason ≥ kJitRefusalReasonCount then
    some (pcMessage "JIT returned an invalid refusal reason at" refusal.guestPc)
  else if statistics.fallbackBlocks ≥ ledger.budget.maximumBlocks then
    some ("fallback block budget exhausted before 0x" ++ hex refusal.guestPc ++ ": " ++
      toString statistics.fallbackBlocks ++ " >= " ++ toString ledger.budget.maximumBlocks)
  else if statistics.fallbackInstructions ≥ ledger.budget.maximumTotalInstructions then
    some ("fallback instruction budget exhausted before 0x" ++ hex refusal.guestPc ++ ": " ++
      toString statistics.fallbackInstructions ++ " >= " ++
      toString ledger.budget.maximumTotalInstructions)
  else
    none

/-- `FallbackLedger::instruction_limit`: the minimum is taken in 64 bits and
narrowed to 32. -/
def instructionLimit (ledger : FallbackLedger) (statistics : ExecutionStatistics) : UInt32 :=
  if statistics.fallbackInstructions ≥ ledger.budget.maximumTotalInstructions then
    0
  else
    let remaining := ledger.budget.maximumTotalInstructions - statistics.fallbackInstructions
    (min ledger.budget.maximumInstructionsPerBlock.toUInt64 remaining).toUInt32

/-- `FallbackLedger::record`: the error, if any, and the statistics passed by
reference, as the call leaves them. -/
def record (ledger : FallbackLedger) (refusal : JitRefusal) (execution : InterpretedBlock)
    (statistics : ExecutionStatistics) : Option String × ExecutionStatistics :=
  if h : reasonIndex refusal.reason ≥ kJitRefusalReasonCount then
    (some (pcMessage "JIT returned an invalid refusal reason at" refusal.guestPc), statistics)
  else if execution.guestPc ≠ refusal.guestPc then
    (some ("fallback PC mismatch: refusal=0x" ++ hex refusal.guestPc ++ ", execution=0x" ++
      hex execution.guestPc), statistics)
  else if execution.instructionCount = 0 then
    (some (pcMessage "fallback executed no instructions at" refusal.guestPc), statistics)
  else if execution.instructionCount > ledger.budget.maximumInstructionsPerBlock then
    (some ("fallback at 0x" ++ hex refusal.guestPc ++ " exceeded per-block limit: " ++
      toString execution.instructionCount ++ " > " ++
      toString ledger.budget.maximumInstructionsPerBlock), statistics)
  else if statistics.fallbackInstructions + execution.instructionCount.toUInt64 >
      ledger.budget.maximumTotalInstructions then
    (some ("fallback instruction budget exhausted at 0x" ++ hex refusal.guestPc ++ ": " ++
      toString statistics.fallbackInstructions ++ " + " ++ toString execution.instructionCount ++
      " > " ++ toString ledger.budget.maximumTotalInstructions), statistics)
  else
    have bound : reasonIndex refusal.reason < kJitRefusalReasonCount := Nat.lt_of_not_le h
    let index := reasonIndex refusal.reason
    (none, { statistics with
      fallbackBlocks := statistics.fallbackBlocks + 1
      fallbackInstructions :=
        statistics.fallbackInstructions + execution.instructionCount.toUInt64
      fallbackBlocksByReason := statistics.fallbackBlocksByReason.set index
        (statistics.fallbackBlocksByReason[index] + 1)
      fallbackInstructionsByReason := statistics.fallbackInstructionsByReason.set index
        (statistics.fallbackInstructionsByReason[index] +
          execution.instructionCount.toUInt64) })

/-- What `record` accepts: a reason in range, the refused PC, a count between
one and the per-block limit, and a 64-bit sum within the total. -/
def Accepts (ledger : FallbackLedger) (refusal : JitRefusal) (execution : InterpretedBlock)
    (statistics : ExecutionStatistics) : Prop :=
  reasonIndex refusal.reason < kJitRefusalReasonCount ∧
    execution.guestPc = refusal.guestPc ∧
    execution.instructionCount ≠ 0 ∧
    execution.instructionCount ≤ ledger.budget.maximumInstructionsPerBlock ∧
    statistics.fallbackInstructions + execution.instructionCount.toUInt64 ≤
      ledger.budget.maximumTotalInstructions

instance (ledger : FallbackLedger) (refusal : JitRefusal) (execution : InterpretedBlock)
    (statistics : ExecutionStatistics) : Decidable (ledger.Accepts refusal execution statistics) :=
  inferInstanceAs (Decidable (_ ∧ _))

end FallbackLedger

/-- One interpreted block of `count` instructions under reason `reason`: the
totals grow, and so do the two entries of that reason and of no other. -/
def ExecutionStatistics.charge (statistics : ExecutionStatistics) (reason : JitRefusalReason)
    (count : UInt32) : ExecutionStatistics :=
  { statistics with
    fallbackBlocks := statistics.fallbackBlocks + 1
    fallbackInstructions := statistics.fallbackInstructions + count.toUInt64
    fallbackBlocksByReason := .ofFn fun i =>
      statistics.fallbackBlocksByReason[i] + if i.val = reasonIndex reason then 1 else 0
    fallbackInstructionsByReason := .ofFn fun i =>
      statistics.fallbackInstructionsByReason[i] +
        if i.val = reasonIndex reason then count.toUInt64 else 0 }

namespace FallbackLedger

variable {ledger : FallbackLedger} {refusal : JitRefusal} {execution : InterpretedBlock}
  {statistics : ExecutionStatistics}

/-- The constructor keeps the budget it was given. -/
theorem budget_of_new {budget : FallbackBudget} (h : new budget = .ok ledger) :
    ledger.budget = budget := by
  unfold new at h
  split at h
  · obtain rfl := Except.ok.inj h
    rfl
  · cases h

/-- **`canEnter` admits** a known reason while both totals have room. -/
theorem canEnter_eq_none_iff : ledger.canEnter refusal statistics = none ↔
    reasonIndex refusal.reason < kJitRefusalReasonCount ∧
      statistics.fallbackBlocks < ledger.budget.maximumBlocks ∧
      statistics.fallbackInstructions < ledger.budget.maximumTotalInstructions := by
  unfold canEnter
  split_ifs with hr hb hi <;> simp_all

/-- **The limit in numbers.**  While instructions remain, the limit is the
smaller of the per-block limit and what remains: the subtraction does not wrap
and the narrowing loses nothing. -/
theorem instructionLimit_toNat
    (h : statistics.fallbackInstructions < ledger.budget.maximumTotalInstructions) :
    (ledger.instructionLimit statistics).toNat =
      min ledger.budget.maximumInstructionsPerBlock.toNat
        (ledger.budget.maximumTotalInstructions.toNat - statistics.fallbackInstructions.toNat) := by
  have hlt := UInt64.lt_iff_toNat_lt.1 h
  have hsub := UInt64.toNat_sub_of_le _ _ (UInt64.le_of_lt h)
  have hper := ledger.budget.maximumInstructionsPerBlock.toNat_lt
  unfold instructionLimit
  rw [if_neg (UInt64.not_le.2 h), UInt64.toNat_toUInt32]
  show (if _ ≤ _ then _ else _ : UInt64).toNat % 2 ^ 32 = _
  split_ifs with hle <;> rw [UInt64.le_iff_toNat_le] at hle <;>
    simp only [UInt32.toNat_toUInt64] at hle ⊢ <;> omega

/-- A ledger with room for a block has all three limits configured. -/
theorem perBlock_ne_zero (h : statistics.fallbackBlocks < ledger.budget.maximumBlocks) :
    ledger.budget.maximumInstructionsPerBlock ≠ 0 := by
  rcases ledger.configured with hd | hf
  · simp only [FallbackBudget.disabled, Bool.and_eq_true, decide_eq_true_eq] at hd
    rw [hd.1.1] at h
    exact absurd h UInt64.not_lt_zero
  · simp only [FallbackBudget.fullyConfigured, Bool.and_eq_true, decide_eq_true_eq] at hf
    exact hf.2

/-- **The limit of an admitted block** is at least one instruction, at most the
per-block limit, and fits in what remains of the total. -/
theorem instructionLimit_bounds (h : ledger.canEnter refusal statistics = none) :
    1 ≤ ledger.instructionLimit statistics ∧
      ledger.instructionLimit statistics ≤ ledger.budget.maximumInstructionsPerBlock ∧
      (ledger.instructionLimit statistics).toNat + statistics.fallbackInstructions.toNat ≤
        ledger.budget.maximumTotalInstructions.toNat := by
  obtain ⟨-, hb, hi⟩ := canEnter_eq_none_iff.1 h
  have hlimit := instructionLimit_toNat hi
  have hlt := UInt64.lt_iff_toNat_lt.1 hi
  have hne : ledger.budget.maximumInstructionsPerBlock.toNat ≠ 0 := fun he =>
    perBlock_ne_zero hb (UInt32.toNat_inj.1 he)
  rw [UInt32.le_iff_toNat_le, UInt32.le_iff_toNat_le, hlimit]
  refine ⟨?_, ?_, ?_⟩
  · show 1 ≤ _
    omega
  · omega
  · omega

/-- `record` returns no error exactly on what it accepts. -/
theorem record_fst_eq_none_iff : (ledger.record refusal execution statistics).1 = none ↔
    ledger.Accepts refusal execution statistics := by
  unfold record Accepts
  split_ifs with hr hp hz hb ht <;> simp_all [UInt64.not_lt, UInt32.not_lt]
  exact Nat.lt_of_not_le hr

/-- A block that `record` finds fault with is not acceptable. -/
theorem not_accepts_of_record {error : String}
    (h : (ledger.record refusal execution statistics).1 = some error) :
    ¬ledger.Accepts refusal execution statistics := by
  rw [← record_fst_eq_none_iff, h]
  exact Option.some_ne_none error

/-- **A rejected block leaves no trace** in the statistics. -/
theorem record_of_not_accepts (h : ¬ledger.Accepts refusal execution statistics) :
    ∃ error, ledger.record refusal execution statistics = (some error, statistics) := by
  rw [← record_fst_eq_none_iff] at h
  unfold record at h ⊢
  split_ifs at h ⊢ <;> simp_all

/-- **An accepted block is charged** to the totals and to its reason. -/
theorem record_of_accepts (h : ledger.Accepts refusal execution statistics) :
    ledger.record refusal execution statistics =
      (none, statistics.charge refusal.reason execution.instructionCount) := by
  obtain ⟨hr, hp, hz, hb, ht⟩ := h
  unfold record
  rw [dif_neg (by omega), if_neg (by simpa using hp), if_neg hz,
    if_neg (UInt32.not_lt.2 hb), if_neg (UInt64.not_lt.2 ht)]
  simp only [ExecutionStatistics.charge, Prod.mk.injEq, true_and, and_true,
    ExecutionStatistics.mk.injEq]
  refine ⟨?_, ?_⟩ <;> ext i hi <;> simp only [Vector.getElem_set, Vector.getElem_ofFn] <;>
    split_ifs <;> simp_all

/-- **A block within its limit is accepted.**  The limit came from the
subtraction, so the addition in `record` cannot wrap. -/
theorem accepts_of_le_limit (hc : ledger.canEnter refusal statistics = none)
    (hp : execution.guestPc = refusal.guestPc) (hz : execution.instructionCount ≠ 0)
    (hl : execution.instructionCount ≤ ledger.instructionLimit statistics) :
    ledger.Accepts refusal execution statistics := by
  obtain ⟨hr, -, hi⟩ := canEnter_eq_none_iff.1 hc
  have hlimit := instructionLimit_toNat hi
  rw [UInt32.le_iff_toNat_le, hlimit] at hl
  have hlt := UInt64.lt_iff_toNat_lt.1 hi
  have hmax := ledger.budget.maximumTotalInstructions.toNat_lt
  refine ⟨hr, hp, hz, ?_, ?_⟩
  · rw [UInt32.le_iff_toNat_le]
    omega
  · rw [UInt64.le_iff_toNat_le, UInt64.toNat_add, UInt32.toNat_toUInt64]
    omega

end FallbackLedger
end Execution
end GcnPort
