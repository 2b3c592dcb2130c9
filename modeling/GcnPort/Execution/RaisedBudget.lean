/-
# Raising the budget

A session under a budget that was enough does not notice that the budget is
raised.  `Raised s t` relates a session `s` to one under a larger budget: the
counters agree, the logs agree up to larger limits, and the backends cannot be
told apart by what they answer.  A dispatch of `s` that does not stop for the
budget is matched by the same dispatch of `t` (`Raised.dispatch`), so every
sequence of runs is (`raised_budget`).

The backend must not look at the limit it is given: `Alike` says so of its
answers, call by call, and leaves it free to remember the limit.
-/

import GcnPort.Execution.Audit

namespace GcnPort
namespace Execution

open Foundation

/-- Every limit of the one budget is at most that of the other. -/
structure FallbackBudget.AtMost (budget budget' : FallbackBudget) : Prop where
  blocks : budget.maximumBlocks ≤ budget'.maximumBlocks
  instructions : budget.maximumTotalInstructions ≤ budget'.maximumTotalInstructions
  perBlock : budget.maximumInstructionsPerBlock ≤ budget'.maximumInstructionsPerBlock

/-- A call to a backend in JIT mode. -/
inductive BackendCall where
  | executeJitBlock
  | executeRefusedBlock (refusal : JitRefusal) (limit : UInt32)
deriving DecidableEq, Repr

/-- The answer to a call. -/
inductive BackendAnswer where
  | step (step : JitStep)
  | block (block : InterpretedBlock)
deriving DecidableEq, Repr

/-- The call, without its limit. -/
def BackendCall.eraseLimit : BackendCall → BackendCall
  | .executeJitBlock => .executeJitBlock
  | .executeRefusedBlock refusal _ => .executeRefusedBlock refusal 0

namespace RuntimeBackend

variable {β : Type*}

/-- The answer of `B` to a call, and its state afterwards. -/
def call (B : RuntimeBackend β) : BackendCall → β → BackendAnswer × β
  | .executeJitBlock, b => (.step (B.executeJitBlock b).1, (B.executeJitBlock b).2)
  | .executeRefusedBlock refusal limit, b =>
    (.block (B.executeRefusedBlock refusal limit b).1, (B.executeRefusedBlock refusal limit b).2)

/-- From `b` and from `b'`, calls that differ only in their limits get the same
answers. -/
def Alike (B : RuntimeBackend β) (b b' : β) : Prop :=
  ∀ calls calls' : List BackendCall,
    calls.map BackendCall.eraseLimit = calls'.map BackendCall.eraseLimit →
      (runAll B.call calls b).1 = (runAll B.call calls' b').1

variable {B : RuntimeBackend β} {b b' : β}

/-- States that are alike answer a call alike, and stay alike. -/
theorem Alike.call (h : B.Alike b b') {call call' : BackendCall}
    (hcall : call.eraseLimit = call'.eraseLimit) :
    (B.call call b).1 = (B.call call' b').1 ∧
      B.Alike (B.call call b).2 (B.call call' b').2 := by
  have hcons (calls calls' : List BackendCall)
      (hcalls : calls.map BackendCall.eraseLimit = calls'.map BackendCall.eraseLimit) :=
    h (call :: calls) (call' :: calls') (by rw [List.map_cons, List.map_cons, hcall, hcalls])
  constructor
  · exact (List.cons.inj (hcons [] [] rfl)).1
  · intro calls calls' hcalls
    exact (List.cons.inj (hcons calls calls' hcalls)).2

/-- Backends that are alike execute alike. -/
theorem Alike.executeJitBlock (h : B.Alike b b') :
    (B.executeJitBlock b).1 = (B.executeJitBlock b').1 ∧
      B.Alike (B.executeJitBlock b).2 (B.executeJitBlock b').2 := by
  have hcall := @Alike.call β B b b' h .executeJitBlock .executeJitBlock rfl
  exact ⟨BackendAnswer.step.inj hcall.1, hcall.2⟩

/-- Backends that are alike interpret alike, whatever the limits. -/
theorem Alike.executeRefusedBlock (h : B.Alike b b') (refusal : JitRefusal)
    (limit limit' : UInt32) :
    (B.executeRefusedBlock refusal limit b).1 = (B.executeRefusedBlock refusal limit' b').1 ∧
      B.Alike (B.executeRefusedBlock refusal limit b).2
        (B.executeRefusedBlock refusal limit' b').2 := by
  have hcall := @Alike.call β B b b' h (.executeRefusedBlock refusal limit)
    (.executeRefusedBlock refusal limit') rfl
  exact ⟨BackendAnswer.block.inj hcall.1, hcall.2⟩

end RuntimeBackend

section

variable {ledger ledger' : FallbackLedger} {refusal : JitRefusal} {answer : InterpretedBlock}
  {st : ExecutionStatistics}

/-- A larger budget admits what a smaller one admits. -/
theorem FallbackBudget.AtMost.canEnter (h : ledger.budget.AtMost ledger'.budget)
    (gate : ledger.canEnter refusal st = none) : ledger'.canEnter refusal st = none := by
  obtain ⟨hreason, hblocks, hinstructions⟩ := FallbackLedger.canEnter_eq_none_iff.1 gate
  refine FallbackLedger.canEnter_eq_none_iff.2 ⟨hreason, ?_, ?_⟩
  · exact UInt64.lt_of_lt_of_le hblocks h.blocks
  · exact UInt64.lt_of_lt_of_le hinstructions h.instructions

/-- A larger budget hands out a limit at least as large. -/
theorem FallbackBudget.AtMost.instructionLimit (h : ledger.budget.AtMost ledger'.budget)
    (gate : ledger.canEnter refusal st = none) :
    ledger.instructionLimit st ≤ ledger'.instructionLimit st := by
  have hroom := (FallbackLedger.canEnter_eq_none_iff.1 gate).2.2
  have hroom' := (FallbackLedger.canEnter_eq_none_iff.1 (h.canEnter gate)).2.2
  have hinstructions := UInt64.le_iff_toNat_le.1 h.instructions
  have hper := UInt32.le_iff_toNat_le.1 h.perBlock
  rw [UInt32.le_iff_toNat_le, FallbackLedger.instructionLimit_toNat hroom,
    FallbackLedger.instructionLimit_toNat hroom']
  omega

/-- A larger budget accepts what a smaller one accepts. -/
theorem FallbackBudget.AtMost.accepts (h : ledger.budget.AtMost ledger'.budget)
    (hacc : ledger.Accepts refusal answer st) : ledger'.Accepts refusal answer st := by
  obtain ⟨hreason, hpc, hz, hper, htotal⟩ := hacc
  exact ⟨hreason, hpc, hz, UInt32.le_trans hper h.perBlock,
    UInt64.le_trans htotal h.instructions⟩

end

/-- The same interaction, with a limit at least as large where a limit is
passed. -/
def Interaction.Loosens : Interaction → Interaction → Prop
  | .executeRefusedBlock st refusal limit answer, j =>
    ∃ limit', limit ≤ limit' ∧ j = .executeRefusedBlock st refusal limit' answer
  | i, j => j = i

/-- A session, and one that did the same under a larger budget. -/
structure Raised {β : Type*} (B : RuntimeBackend β) (s t : Session β) : Prop where
  mode : s.configuration.mode = .jit
  mode' : t.configuration.mode = .jit
  budget : s.fallbackLedger.budget.AtMost t.fallbackLedger.budget
  statistics : t.statistics = s.statistics
  backend : B.Alike s.backend t.backend
  log : List.Forall₂ Interaction.Loosens s.log t.log

section

variable {β : Type*} {B : RuntimeBackend β} {s t : Session β}

/-- Interactions that pass no limit are matched by themselves. -/
theorem Interaction.loosens_self {i : Interaction} : i.Loosens i := by
  cases i <;> first | rfl | exact ⟨_, UInt32.le_refl _, rfl⟩

/-- What both observe keeps the one a raised copy of the other. -/
theorem Raised.observe (h : Raised B s t) (i : Interaction) :
    Raised B (s.observe i) (t.observe i) :=
  ⟨h.mode, h.mode', h.budget, h.statistics, h.backend,
    List.rel_append h.log (.cons Interaction.loosens_self .nil)⟩

/-- **The step lemma.**  A dispatch that does not stop for the budget is matched
under a larger one. -/
theorem Raised.dispatch (h : Raised B s t)
    (hnever : ∀ r ∈ (s.dispatch B).1, r.reason ≠ .fallbackBudgetExceeded) :
    (t.dispatch B).1 = (s.dispatch B).1 ∧ Raised B (s.dispatch B).2 (t.dispatch B).2 := by
  obtain ⟨hmode, hmode', hbudget, hst, hbackend, hlog⟩ := h
  obtain ⟨hjit, halike⟩ := hbackend.executeJitBlock
  rcases hb : B.executeJitBlock s.backend with ⟨answer, b⟩
  rcases hb' : B.executeJitBlock t.backend with ⟨answer', b'⟩
  rw [hb, hb'] at hjit halike
  obtain rfl : answer = answer' := hjit
  simp only [Session.dispatch, hmode, hmode', if_true, Session.runJitDispatch,
    Session.executeJitBlock, hb, hb', hst] at hnever ⊢
  have hcall : List.Forall₂ Interaction.Loosens
      (s.log ++ [.executeJitBlock s.statistics.countDispatch answer])
      (t.log ++ [.executeJitBlock s.statistics.countDispatch answer]) :=
    List.rel_append hlog (.cons rfl .nil)
  cases answer with
  | execution execution =>
    by_cases hz : execution.instructionCount = 0
    · simp only [hz, if_true]
      exact ⟨rfl, hmode, hmode', hbudget, rfl, halike, hcall⟩
    · simp only [hz, if_false]
      exact ⟨trivial, hmode, hmode', hbudget, rfl, halike,
        List.rel_append hcall (.cons rfl .nil)⟩
  | refusal refusal =>
    cases hgate : s.fallbackLedger.canEnter refusal s.statistics.countDispatch with
    | some error =>
      simp only [Session.observe, hgate] at hnever
      exact absurd rfl (hnever _ rfl)
    | none =>
      have hgate' := hbudget.canEnter hgate
      have hlimit := hbudget.instructionLimit hgate
      obtain ⟨hblock, halike'⟩ := halike.executeRefusedBlock refusal
        (s.fallbackLedger.instructionLimit s.statistics.countDispatch)
        (t.fallbackLedger.instructionLimit s.statistics.countDispatch)
      rcases he : B.executeRefusedBlock refusal
        (s.fallbackLedger.instructionLimit s.statistics.countDispatch) b with ⟨block, b₁⟩
      rcases he' : B.executeRefusedBlock refusal
        (t.fallbackLedger.instructionLimit s.statistics.countDispatch) b' with ⟨block', b₁'⟩
      rw [he, he'] at hblock halike'
      obtain rfl : block = block' := hblock
      simp only [Session.observe, hgate, hgate', Session.executeRefusedBlock, he, he']
        at hnever ⊢
      by_cases hacc : s.fallbackLedger.Accepts refusal block s.statistics.countDispatch
      · simp only [FallbackLedger.record_of_accepts hacc,
          FallbackLedger.record_of_accepts (hbudget.accepts hacc)]
        have hpassed : Interaction.Loosens
            (.executeRefusedBlock s.statistics.countDispatch refusal
              (s.fallbackLedger.instructionLimit s.statistics.countDispatch) block)
            (.executeRefusedBlock s.statistics.countDispatch refusal
              (t.fallbackLedger.instructionLimit s.statistics.countDispatch) block) :=
          ⟨_, hlimit, rfl⟩
        exact ⟨trivial, hmode, hmode', hbudget, rfl, halike',
          List.rel_append (List.rel_append hcall (.cons hpassed .nil)) (.cons rfl .nil)⟩
      · obtain ⟨error, hrec⟩ := FallbackLedger.record_of_not_accepts hacc
        simp only [hrec] at hnever
        exact absurd rfl (hnever _ rfl)
  | exit exit => exact ⟨rfl, hmode, hmode', hbudget, rfl, halike, hcall⟩
  | fault fault => exact ⟨rfl, hmode, hmode', hbudget, rfl, halike, hcall⟩

/-- The loop of a run that does not stop for the budget. -/
theorem Raised.iterate (h : Raised B s t) (n : ℕ)
    (hnever : ∀ r ∈ (iterate (Session.dispatch B) n s).1, r.reason ≠ .fallbackBudgetExceeded) :
    (iterate (Session.dispatch B) n t).1 = (iterate (Session.dispatch B) n s).1 ∧
      Raised B (iterate (Session.dispatch B) n s).2 (iterate (Session.dispatch B) n t).2 := by
  induction n generalizing s t with
  | zero => exact ⟨rfl, h⟩
  | succ n ih =>
    have hstep := h.dispatch (s := s) (t := t)
    rcases hs : s.dispatch B with ⟨_ | r, s'⟩ <;> rcases ht : t.dispatch B with ⟨rt, t'⟩ <;>
      rw [hs, ht] at hstep <;> rw [Foundation.iterate, hs] at hnever <;>
      rw [Foundation.iterate, Foundation.iterate, hs, ht]
    · obtain ⟨rfl, hr⟩ := hstep (by simp)
      exact ih hr hnever
    · obtain ⟨rfl, hr⟩ := hstep hnever
      exact ⟨rfl, hr⟩

/-- **The run lemma.**  A run that does not return for the budget is matched
under a larger one. -/
theorem Raised.run (h : Raised B s t) (n : UInt64)
    (hnever : (s.run B n).1.reason ≠ .fallbackBudgetExceeded) :
    (t.run B n).1 = (s.run B n).1 ∧ Raised B (s.run B n).2 (t.run B n).2 := by
  have hloop := h.iterate n.toNat
  rcases hs : Foundation.iterate (Session.dispatch B) n.toNat s with ⟨_ | r, s'⟩ <;>
    rcases ht : Foundation.iterate (Session.dispatch B) n.toNat t with ⟨rt, t'⟩ <;>
    rw [hs, ht] at hloop <;> rw [Session.run, hs] at hnever <;>
    rw [Session.run, Session.run, hs, ht]
  · obtain ⟨rfl, hr⟩ := hloop (by simp)
    have hsame : t'.exhausted n = s'.exhausted n := by
      rw [Session.exhausted, Session.stopped, hr.statistics]
      rfl
    change t'.exhausted n = s'.exhausted n ∧
      Raised B (s'.observe (.runReturned (s'.exhausted n)))
        (t'.observe (.runReturned (t'.exhausted n)))
    rw [hsame]
    exact ⟨rfl, hr.observe _⟩
  · obtain ⟨rfl, hr⟩ := hloop (fun _ hr => Option.some.inj hr ▸ hnever)
    exact ⟨rfl, hr.observe _⟩

/-- Runs that no budget ends go the same way under a raised one. -/
theorem Raised.runs (h : Raised B s t) (ns : List UInt64)
    (hnever : ∀ r ∈ (s.runs B ns).1, r.reason ≠ .fallbackBudgetExceeded) :
    (t.runs B ns).1 = (s.runs B ns).1 ∧ Raised B (s.runs B ns).2 (t.runs B ns).2 := by
  induction ns generalizing s t with
  | nil => exact ⟨rfl, h⟩
  | cons n ns ih =>
    obtain ⟨hresult, hr⟩ := h.run n (hnever _ (List.mem_cons_self ..))
    obtain ⟨hresults, hrs⟩ := ih hr fun r hr => hnever r (List.mem_cons_of_mem _ hr)
    exact ⟨congrArg₂ List.cons hresult hresults, hrs⟩

end

/-- Logs that agree up to larger limits hold the same events. -/
theorem filter_isEvent_of_loosens {log log' : List Interaction}
    (h : List.Forall₂ Interaction.Loosens log log') :
    log'.filter Interaction.isEvent = log.filter Interaction.isEvent := by
  induction h with
  | nil => rfl
  | cons hij _ ih =>
    rename_i i j log log' _
    cases i with
    | executeRefusedBlock st refusal limit answer =>
      obtain ⟨limit', -, rfl⟩ := hij
      exact ih
    | _ =>
      obtain rfl := hij
      rw [List.filter_cons, List.filter_cons, ih]

/-- Logs that agree up to larger limits pass as many, each at least as large. -/
theorem forall₂_passedLimit_of_loosens {log log' : List Interaction}
    (h : List.Forall₂ Interaction.Loosens log log') :
    List.Forall₂ (· ≤ ·) (log.filterMap Interaction.passedLimit)
      (log'.filterMap Interaction.passedLimit) := by
  induction h with
  | nil => exact .nil
  | cons hij _ ih =>
    rename_i i j log log' _
    cases i with
    | executeRefusedBlock st refusal limit answer =>
      obtain ⟨limit', hle, rfl⟩ := hij
      exact .cons hle ih
    | _ =>
      obtain rfl := hij
      exact ih

/-- What a session keeps when its budget is raised. -/
structure SameUnderRaised {β : Type*} (B : RuntimeBackend β) (ns : List UInt64)
    (s t : Session β) : Prop where
  /-- The results of the runs, with their statistics. -/
  results : (t.runs B ns).1 = (s.runs B ns).1
  statistics : (t.runs B ns).2.statistics = (s.runs B ns).2.statistics
  /-- The events delivered, with their snapshots. -/
  events : (t.runs B ns).2.log.filter Interaction.isEvent =
    (s.runs B ns).2.log.filter Interaction.isEvent
  /-- The limits passed are each at least as large. -/
  limits : List.Forall₂ (· ≤ ·) ((s.runs B ns).2.log.filterMap Interaction.passedLimit)
    ((t.runs B ns).2.log.filterMap Interaction.passedLimit)

/-- **Raising the budget changes nothing** in an execution that was within it:
over a backend whose answers do not depend on the limits it is passed, runs none
of which stops for the budget return the same results and deliver the same
events, and pass limits at least as large. -/
theorem raised_budget {β : Type*} {B : RuntimeBackend β}
    {configuration configuration' : RuntimeConfiguration} (mode : configuration.mode = .jit)
    (mode' : configuration'.mode = .jit)
    (hle : configuration.fallback.AtMost configuration'.fallback) {b : β} (hb : B.Alike b b)
    {s t : Session β} (hs : Session.new configuration b = .ok s)
    (ht : Session.new configuration' b = .ok t) (ns : List UInt64)
    (hnever : ∀ r ∈ (s.runs B ns).1, r.reason ≠ .fallbackBudgetExceeded) :
    SameUnderRaised B ns s t := by
  have hstart : Raised B s t := by
    obtain ⟨hlog, hst, hbackend⟩ := Session.start_of_new hs
    obtain ⟨hlog', hst', hbackend'⟩ := Session.start_of_new ht
    refine ⟨by rwa [Session.configuration_of_new hs], by rwa [Session.configuration_of_new ht],
      ?_, ?_, ?_, ?_⟩
    · rwa [s.ledger_budget, t.ledger_budget, Session.configuration_of_new hs,
        Session.configuration_of_new ht]
    · rw [hst, hst']
    · rwa [hbackend, hbackend']
    · rw [hlog, hlog']
      exact .nil
  obtain ⟨hresults, hr⟩ := hstart.runs ns hnever
  exact ⟨hresults, hr.statistics, filter_isEvent_of_loosens hr.log,
    forall₂_passedLimit_of_loosens hr.log⟩

/-- `refusing` does not look at its limit. -/
theorem RuntimeBackend.alike_refusing (count : UInt32) :
    (RuntimeBackend.refusing count).Alike () () := by
  have hcall (call call' : BackendCall) (h : call.eraseLimit = call'.eraseLimit) :
      (RuntimeBackend.refusing count).call call () =
        (RuntimeBackend.refusing count).call call' () := by
    cases call <;> cases call' <;> cases h <;> rfl
  intro calls calls' hcalls
  induction calls generalizing calls' with
  | nil => rw [List.map_eq_nil_iff.1 hcalls.symm]
  | cons call calls ih =>
    cases calls' with
    | nil => cases hcalls
    | cons call' calls' =>
      obtain ⟨hhead, htail⟩ := List.cons.inj hcalls
      exact congrArg₂ List.cons (congrArg Prod.fst (hcall call call' hhead)) (ih calls' htail)

/-- One interpreted instruction, within a budget of one and within a budget of
two. -/
theorem raised_budget_one_block :
    ∃ s t, SameUnderRaised (.refusing 1) [1] s t ∧
      Session.new ⟨.jit, ⟨1, 1, 1⟩, 1⟩ () = .ok s ∧ Session.new ⟨.jit, ⟨2, 2, 2⟩, 1⟩ () = .ok t :=
  ⟨_, _, @raised_budget Unit (.refusing 1) ⟨.jit, ⟨1, 1, 1⟩, 1⟩ ⟨.jit, ⟨2, 2, 2⟩, 1⟩ rfl rfl
    ⟨by decide, by decide, by decide⟩ () (RuntimeBackend.alike_refusing 1) _ _ rfl rfl [1]
    (by decide), rfl, rfl⟩

end Execution
end GcnPort
