/-
# The fallback budget

What the three limits of a session guarantee, whatever the backend answers.

`Within` is the invariant: the two counters stay within their limits, every
charged block was reported, and every entry into the interpreter was either
charged or rejected by `record`.  It holds of every `History`
(`History.within`), so of every reachable session, and with what the log says
of each entry (`History.entered`) and each report (`History.reported`) it gives
`fallback_budget_safe`.
-/

import GcnPort.Execution.History
import GcnPort.Execution.RunEnd

namespace GcnPort
namespace Execution

open Foundation

namespace Interaction

/-- An `on_fallback` event. -/
def reportsFallback : Interaction → Bool
  | .onFallback .. => true
  | _ => false

/-- A call to `execute_refused_block` whose answer `record` rejects. -/
def rejectedBy (ledger : FallbackLedger) : Interaction → Bool
  | .executeRefusedBlock st refusal _ answer => !decide (ledger.Accepts refusal answer st)
  | _ => false

/-- The instructions the interpreter reports for an entry. -/
def interpretedInstructions : Interaction → ℕ
  | .executeRefusedBlock _ _ _ answer => answer.instructionCount.toNat
  | _ => 0

end Interaction

section

variable {configuration : RuntimeConfiguration} {ledger : FallbackLedger}
  {st st' : ExecutionStatistics} {log entries : List Interaction} {r : Option RunResult}

/-- A dispatch that leaves the interpreter alone: no entry, no report, and the
fallback counters as they were. -/
structure Untouched (st st' : ExecutionStatistics) (entries : List Interaction) : Prop where
  blocks : st'.fallbackBlocks = st.fallbackBlocks
  instructions : st'.fallbackInstructions = st.fallbackInstructions
  entered : ∀ i ∈ entries, i.entersInterpreter = false
  reported : ∀ i ∈ entries, i.reportsFallback = false

/-- What a dispatch can do to the fallback counters. -/
theorem Dispatch.fallback_cases (h : Dispatch configuration ledger st entries r st') :
    Untouched st st' entries ∨
    (∃ refusal answer, ledger.canEnter refusal st = none ∧
      ¬ledger.Accepts refusal answer st.countDispatch ∧ st' = st.countDispatch ∧
      entries = [.executeJitBlock st.countDispatch (.refusal refusal),
        .executeRefusedBlock st.countDispatch refusal
          (ledger.instructionLimit st.countDispatch) answer]) ∨
    ∃ refusal answer, ledger.canEnter refusal st = none ∧
      ledger.Accepts refusal answer st.countDispatch ∧
      st' = st.countDispatch.charge refusal.reason answer.instructionCount ∧
      entries = [.executeJitBlock st.countDispatch (.refusal refusal),
        .executeRefusedBlock st.countDispatch refusal
          (ledger.instructionLimit st.countDispatch) answer,
        .onFallback refusal answer
          (st.countDispatch.charge refusal.reason answer.instructionCount)] := by
  cases h with
  | rejected refusal answer error mode gate check =>
    exact .inr (.inl ⟨refusal, answer, gate, FallbackLedger.not_accepts_of_record check, rfl, rfl⟩)
  | recorded refusal answer mode gate check =>
    exact .inr (.inr ⟨refusal, answer, gate, check, rfl, rfl⟩)
  | executed | empty | refused | exited | faulted | diagnosticInvalid | diagnosed =>
    refine .inl ⟨rfl, rfl, ?_, ?_⟩ <;>
      simp [Interaction.entersInterpreter, Interaction.reportsFallback]

/-- The budget invariant. -/
structure Within (ledger : FallbackLedger) (st : ExecutionStatistics) (log : List Interaction) :
    Prop where
  blocks : st.fallbackBlocks ≤ ledger.budget.maximumBlocks
  instructions : st.fallbackInstructions ≤ ledger.budget.maximumTotalInstructions
  events : log.countP Interaction.reportsFallback = st.fallbackBlocks.toNat
  entered : log.countP Interaction.entersInterpreter =
    log.countP Interaction.reportsFallback + log.countP (Interaction.rejectedBy ledger)

/-- An entry that does not enter the interpreter is not a rejected block. -/
theorem Interaction.rejectedBy_eq_false {i : Interaction} (h : i.entersInterpreter = false) :
    i.rejectedBy ledger = false := by
  cases i <;> first | rfl | cases h

/-- Nothing the budget counts happens in a dispatch that leaves the interpreter
alone. -/
theorem Untouched.counts (hu : Untouched st st' entries) (ledger : FallbackLedger) :
    entries.countP Interaction.entersInterpreter = 0 ∧
      entries.countP Interaction.reportsFallback = 0 ∧
      entries.countP (Interaction.rejectedBy ledger) = 0 := by
  refine ⟨List.countP_eq_zero.2 fun i hi => ?_, List.countP_eq_zero.2 fun i hi => ?_,
    List.countP_eq_zero.2 fun i hi => ?_⟩
  · exact Bool.eq_false_iff.1 (hu.entered i hi)
  · exact Bool.eq_false_iff.1 (hu.reported i hi)
  · exact Bool.eq_false_iff.1 (Interaction.rejectedBy_eq_false (hu.entered i hi))

/-- Counting one more block below a limit does not wrap. -/
theorem toNat_add_one_of_lt {a b : UInt64} (h : a < b) : (a + 1).toNat = a.toNat + 1 := by
  have := UInt64.lt_iff_toNat_lt.1 h
  have := b.toNat_lt
  rw [UInt64.toNat_add, UInt64.toNat_one]
  omega

/-- **The step lemma of the budget.** -/
theorem Within.dispatch (hw : Within ledger st log)
    (h : Dispatch configuration ledger st entries r st') : Within ledger st' (log ++ entries) := by
  obtain ⟨hb, hi, he, hn⟩ := hw
  rcases h.fallback_cases with hu | ⟨refusal, answer, gate, check, rfl, rfl⟩ |
    ⟨refusal, answer, gate, check, rfl, rfl⟩
  · obtain ⟨h0, h1, h2⟩ := hu.counts ledger
    exact ⟨hu.blocks ▸ hb, hu.instructions ▸ hi, by rw [List.countP_append, h1, he, hu.blocks]; rfl,
      by simp only [List.countP_append, h0, h1, h2]; omega⟩
  · refine ⟨hb, hi, ?_, ?_⟩
    · rw [List.countP_append, he]
      rfl
    · simp only [List.countP_append, hn]
      simp [List.countP_cons, Interaction.entersInterpreter, Interaction.reportsFallback,
        Interaction.rejectedBy, check]
      omega
  · obtain ⟨-, hlt, -⟩ := FallbackLedger.canEnter_eq_none_iff.1 gate
    have hsucc := toNat_add_one_of_lt hlt
    refine ⟨?_, check.2.2.2.2, ?_, ?_⟩
    · rw [UInt64.le_iff_toNat_le]
      rw [UInt64.lt_iff_toNat_lt] at hlt
      show (st.fallbackBlocks + 1).toNat ≤ _
      omega
    · rw [List.countP_append, he]
      exact hsucc.symm
    · simp only [List.countP_append, hn]
      simp [List.countP_cons, Interaction.entersInterpreter, Interaction.reportsFallback,
        Interaction.rejectedBy, check]
      omega

/-- What `run` returns changes nothing the invariant counts. -/
theorem Within.returned (hw : Within ledger st log) (r : RunResult) :
    Within ledger st (log ++ [.runReturned r]) := by
  obtain ⟨hb, hi, he, hn⟩ := hw
  refine ⟨hb, hi, ?_, ?_⟩ <;> simp only [List.countP_append]
  · exact he
  · exact hn

/-- **The budget holds in every state of the abstract session.** -/
theorem History.within (h : History configuration ledger st log) : Within ledger st log := by
  induction h with
  | start => exact ⟨UInt64.zero_le, UInt64.zero_le, rfl, rfl⟩
  | dispatched _ hd ih => exact ih.dispatch hd
  | stopped _ hd ih => exact (ih.dispatch hd).returned _
  | exhausted _ _ ih => exact ih.returned _

/-- **Every entry of a session is within its limits**: it is made in JIT mode,
on a refusal the gate admits at that moment, with the limit of that moment. -/
theorem History.entered (h : History configuration ledger st log) {st₀ : ExecutionStatistics}
    {refusal : JitRefusal} {limit : UInt32} {answer : InterpretedBlock}
    (hi : .executeRefusedBlock st₀ refusal limit answer ∈ log) :
    ledger.canEnter refusal st₀ = none ∧ limit = ledger.instructionLimit st₀ := by
  refine h.forall_mem (P := fun i => ∀ st₀ refusal limit answer,
    i = .executeRefusedBlock st₀ refusal limit answer →
      ledger.canEnter refusal st₀ = none ∧ limit = ledger.instructionLimit st₀)
    (fun st entries r st' hd i hi => ?_) (fun r => ?_) _ hi _ _ _ _ rfl
  · rintro st₀ refusal limit answer rfl
    rcases hd.fallback_cases with hu | ⟨refusal', answer', gate, -, -, rfl⟩ |
      ⟨refusal', answer', gate, -, -, rfl⟩
    · exact absurd (hu.entered _ hi) Bool.noConfusion
    · obtain ⟨rfl, rfl, rfl, rfl⟩ : st₀ = st.countDispatch ∧ refusal = refusal' ∧
          limit = ledger.instructionLimit st.countDispatch ∧ answer = answer' := by
        simpa using hi
      exact ⟨gate, rfl⟩
    · obtain ⟨rfl, rfl, rfl, rfl⟩ : st₀ = st.countDispatch ∧ refusal = refusal' ∧
          limit = ledger.instructionLimit st.countDispatch ∧ answer = answer' := by
        simpa using hi
      exact ⟨gate, rfl⟩
  · intro _ _ _ _ h
    cases h

/-- Every reported block was accepted by `record`. -/
theorem History.reported (h : History configuration ledger st log) {st₀ : ExecutionStatistics}
    {refusal : JitRefusal} {execution : InterpretedBlock}
    (hi : .onFallback refusal execution st₀ ∈ log) :
    ∃ st₁, ledger.Accepts refusal execution st₁ := by
  refine h.forall_mem (P := fun i => ∀ refusal execution st₀,
    i = .onFallback refusal execution st₀ → ∃ st₁, ledger.Accepts refusal execution st₁)
    (fun st entries r st' hd i hi => ?_) (fun r => ?_) _ hi _ _ _ rfl
  · rintro refusal execution st₀ rfl
    rcases hd.fallback_cases with hu | ⟨refusal', answer', -, -, -, rfl⟩ |
      ⟨refusal', answer', -, check, -, rfl⟩
    · exact absurd (hu.reported _ hi) Bool.noConfusion
    · simp at hi
    · obtain ⟨rfl, rfl, -⟩ : refusal = refusal' ∧ execution = answer' ∧
          st₀ = st.countDispatch.charge refusal'.reason answer'.instructionCount := by
        simpa using hi
      exact ⟨_, check⟩
  · intro _ _ _ h
    cases h

end

/-- What a budget guarantees of a session, whatever its backend answers. -/
structure BudgetSafe {β : Type*} (budget : FallbackBudget) (s : Session β) : Prop where
  blocks : s.statistics.fallbackBlocks ≤ budget.maximumBlocks
  instructions : s.statistics.fallbackInstructions ≤ budget.maximumTotalInstructions
  events : s.log.countP Interaction.reportsFallback = s.statistics.fallbackBlocks.toNat
  reported : ∀ refusal execution st, .onFallback refusal execution st ∈ s.log →
    execution.guestPc = refusal.guestPc ∧
      reasonIndex refusal.reason < kJitRefusalReasonCount ∧
      1 ≤ execution.instructionCount ∧
      execution.instructionCount ≤ budget.maximumInstructionsPerBlock
  entered : ∀ st refusal limit answer, .executeRefusedBlock st refusal limit answer ∈ s.log →
    1 ≤ limit ∧ limit ≤ budget.maximumInstructionsPerBlock ∧
      limit.toNat + st.fallbackInstructions.toNat ≤ budget.maximumTotalInstructions.toNat
  disabled : budget.disabled → ∀ i ∈ s.log, i.entersInterpreter = false

variable {β : Type*} {B : RuntimeBackend β} {configuration : RuntimeConfiguration}
  {s : Session β}

/-- **The fallback budget is safe against any backend.**  In every state any
sequence of runs reaches, the counters are within their limits, every charged
block was reported once and within its bounds, and every entry was made with a
limit that fits in what remained at that moment. -/
theorem fallback_budget_safe (h : s.Reachable B configuration) :
    BudgetSafe configuration.fallback s := by
  have hw := h.lawful.history.within
  have hentered := @History.entered _ _ _ _ h.lawful.history
  have hreported := @History.reported _ _ _ _ h.lawful.history
  rw [← h.budget_eq]
  refine ⟨hw.blocks, hw.instructions, hw.events, fun refusal execution st hi => ?_,
    fun st refusal limit answer hi => ?_, fun hd i hi => ?_⟩
  · obtain ⟨st₁, hr, hp, hz, hb, -⟩ := hreported hi
    refine ⟨hp, hr, ?_, hb⟩
    rw [UInt32.le_iff_toNat_le]
    exact Nat.pos_of_ne_zero fun h0 => hz (UInt32.toNat_inj.1 h0)
  · obtain ⟨gate, rfl⟩ := hentered hi
    exact FallbackLedger.instructionLimit_bounds gate
  · cases i with
    | executeRefusedBlock st refusal limit answer =>
      obtain ⟨hone, hper, -⟩ := FallbackLedger.instructionLimit_bounds (hentered hi).1
      simp only [FallbackBudget.disabled, Bool.and_eq_true, decide_eq_true_eq] at hd
      rw [hd.2] at hper
      exact absurd (UInt32.le_trans hone hper) (by decide)
    | _ => rfl

/-- A session with a budget of one block that was run for two dispatches: the
second is refused, and the guarantees hold. -/
theorem fallback_budget_safe_refusing : ∃ s : Session Unit,
    s.statistics.jitDispatches = 2 ∧ s.statistics.fallbackBlocks = 1 ∧
      BudgetSafe ⟨1, 1, 1⟩ s := by
  refine ⟨_, ?_, ?_, fallback_budget_safe (B := .refusing 1)
    (Session.reachable_runs { fallback := ⟨1, 1, 1⟩ } () rfl [2])⟩ <;> rfl

end Execution
end GcnPort
