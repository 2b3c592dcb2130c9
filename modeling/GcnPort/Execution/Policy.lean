/-
# The fallback policy

What a session allows a backend to interpret is a matter of its refusals alone.
`PolicyState` is the abstract session that keeps what the policy is about: the
limits it passed, the fallbacks it reported, and its counters with the ones of
the JIT erased.  It is driven by refusals (`PolicyState.refused`), and knows no
JIT block.

A dispatch of a session is a step of it (`policyState_refused`) or leaves it
alone (`policyState_executed`), so a session over a backend that plays a script
is the policy run over the refusals of the script (`policy_run`).  Two scripts
with the same refusals and the same end cannot be told apart by it
(`policy_independent_of_jit`).
-/

import GcnPort.Execution.Audit

namespace GcnPort
namespace Execution

open Foundation

/-- A step of a script: a JIT block that is not empty, or a refusal and what the
interpreter then reports. -/
inductive ScriptStep where
  | executed (execution : JitExecution) (nonzero : execution.instructionCount ≠ 0)
  | refused (refusal : JitRefusal) (answer : InterpretedBlock)

/-- The end of a script: an exit, a fault, or an invalid step. -/
inductive ScriptEnd where
  | exited (exit : BackendExit)
  | faulted (fault : BackendFault)
  | invalid (execution : JitExecution) (zero : execution.instructionCount = 0)

/-- A finite script of a backend. -/
structure Script where
  steps : List ScriptStep
  terminal : ScriptEnd

/-- The answer to `execute_jit_block` at the end of a script. -/
def ScriptEnd.answer : ScriptEnd → JitStep
  | .exited exit => .exit exit
  | .faulted fault => .fault fault
  | .invalid execution _ => .execution execution

/-- The refusal of a step, with its answer. -/
def ScriptStep.refusal : ScriptStep → Option (JitRefusal × InterpretedBlock)
  | .executed _ _ => none
  | .refused refusal answer => some (refusal, answer)

/-- The refusals of a script, in order, with their answers: what is left of its
steps once the JIT blocks are deleted. -/
def Script.refusals (script : Script) : List (JitRefusal × InterpretedBlock) :=
  script.steps.filterMap ScriptStep.refusal

namespace RuntimeBackend

variable {β : Type*}

/-- From `b`, the backend plays the steps and then comes to the end, whatever
limits it is passed. -/
def Plays (B : RuntimeBackend β) (terminal : ScriptEnd) : List ScriptStep → β → Prop
  | [], b => (B.executeJitBlock b).1 = terminal.answer
  | .executed execution _ :: steps, b =>
    (B.executeJitBlock b).1 = .execution execution ∧
      B.Plays terminal steps (B.executeJitBlock b).2
  | .refused refusal answer :: steps, b =>
    (B.executeJitBlock b).1 = .refusal refusal ∧
      ∀ limit, (B.executeRefusedBlock refusal limit (B.executeJitBlock b).2).1 = answer ∧
        B.Plays terminal steps (B.executeRefusedBlock refusal limit (B.executeJitBlock b).2).2

/-- The backend that reads its answers off a script, which is its state. -/
def scripted (terminal : ScriptEnd) : RuntimeBackend (List ScriptStep) where
  executeJitBlock
    | [] => (terminal.answer, [])
    | .executed execution _ :: steps => (.execution execution, steps)
    | .refused refusal answer :: steps => (.refusal refusal, .refused refusal answer :: steps)
  executeRefusedBlock _ _
    | .refused _ answer :: steps => (answer, steps)
    | steps => ({}, steps)
  executeDiagnosticInterpreterBlock _ steps := ({}, steps)

/-- The scripted backend plays its script. -/
theorem plays_scripted (terminal : ScriptEnd) (steps : List ScriptStep) :
    (scripted terminal).Plays terminal steps steps := by
  induction steps with
  | nil => rfl
  | cons step steps ih =>
    cases step with
    | executed execution nonzero => exact ⟨rfl, ih⟩
    | refused refusal answer => exact ⟨rfl, fun _ => ⟨rfl, ih⟩⟩

end RuntimeBackend

/-- The counters with those of the JIT erased. -/
def ExecutionStatistics.withoutJit (statistics : ExecutionStatistics) : ExecutionStatistics :=
  { statistics with
    jitDispatches := 0
    jitBlocksCompiled := 0
    jitBlocksExecuted := 0
    jitInstructionsExecuted := 0 }

/-- A result with the counters of the JIT erased. -/
def RunResult.withoutJit (result : RunResult) : RunResult :=
  { result with statistics := result.statistics.withoutJit }

/-- What the policy is about. -/
structure PolicyState where
  limits : List UInt32 := []
  fallbacks : List (JitRefusal × InterpretedBlock) := []
  statistics : ExecutionStatistics := {}

namespace PolicyState

/-- The run ends for `reason`. -/
def stopped (p : PolicyState) (reason : RunStopReason) (guestPc : GuestAddress)
    (detail : String) : RunResult where
  reason := reason
  guestPc := guestPc
  detail := detail
  statistics := p.statistics

/-- A refusal: a result, if it ends the run, and the state afterwards. -/
def refused (ledger : FallbackLedger) (refusal : JitRefusal) (answer : InterpretedBlock)
    (p : PolicyState) : Option RunResult × PolicyState :=
  match ledger.canEnter refusal p.statistics with
  | some error => (some (p.stopped .fallbackBudgetExceeded refusal.guestPc error), p)
  | none =>
    let p := { p with limits := p.limits ++ [ledger.instructionLimit p.statistics] }
    let (error, statistics) := ledger.record refusal answer p.statistics
    let p := { p with statistics }
    match error with
    | some error => (some (p.stopped .fallbackBudgetExceeded refusal.guestPc error), p)
    | none => (none, { p with fallbacks := p.fallbacks ++ [(refusal, answer)] })

/-- The end of a script. -/
def ended (p : PolicyState) : ScriptEnd → RunResult
  | .exited exit => p.stopped .backendExit 0 exit.detail
  | .faulted fault => p.stopped .backendFault fault.guestPc fault.detail
  | .invalid execution _ => p.stopped .invalidBackendResult execution.guestPc
    "JIT reported an executed block with zero instructions"

/-- The refusals of a script, one after another, and then its end. -/
def run (ledger : FallbackLedger) (terminal : ScriptEnd) :
    List (JitRefusal × InterpretedBlock) → PolicyState → RunResult × PolicyState
  | [], p => (p.ended terminal, p)
  | (refusal, answer) :: refusals, p =>
    match p.refused ledger refusal answer with
    | (some result, p) => (result, p)
    | (none, p) => run ledger terminal refusals p

end PolicyState

namespace FallbackLedger

variable (ledger : FallbackLedger) (refusal : JitRefusal) (answer : InterpretedBlock)
  (st : ExecutionStatistics)

/-- The gate does not read the counters of the JIT. -/
theorem canEnter_withoutJit : ledger.canEnter refusal st.withoutJit = ledger.canEnter refusal st :=
  rfl

/-- The limit does not depend on the counters of the JIT. -/
theorem instructionLimit_withoutJit :
    ledger.instructionLimit st.withoutJit = ledger.instructionLimit st :=
  rfl

/-- `record` neither reads nor writes the counters of the JIT. -/
theorem record_withoutJit : ledger.record refusal answer st.withoutJit =
    ((ledger.record refusal answer st).1, (ledger.record refusal answer st).2.withoutJit) := by
  have hst : st.withoutJit.fallbackInstructions = st.fallbackInstructions := rfl
  unfold record
  simp only [hst]
  split_ifs <;> rfl

end FallbackLedger

namespace Session

variable {β : Type*} {B : RuntimeBackend β} {s : Session β} {terminal : ScriptEnd}
  {steps : List ScriptStep}

/-- What a session says about its policy. -/
def policyState (s : Session β) : PolicyState where
  limits := s.log.filterMap Interaction.passedLimit
  fallbacks := s.log.filterMap Interaction.reportedFallback
  statistics := s.statistics.withoutJit

/-- What concerns neither limits nor fallbacks leaves the policy alone. -/
theorem policyState_observe (s : Session β) {i : Interaction} (hlimit : i.passedLimit = none)
    (hfallback : i.reportedFallback = none) : (s.observe i).policyState = s.policyState := by
  simp [policyState, observe, hlimit, hfallback]

/-- **A JIT block is a stutter** of the policy. -/
theorem policyState_executed (mode : s.configuration.mode = .jit) {execution : JitExecution}
    {nonzero : execution.instructionCount ≠ 0}
    (h : B.Plays terminal (.executed execution nonzero :: steps) s.backend) :
    (s.dispatch B).1 = none ∧ (s.dispatch B).2.policyState = s.policyState ∧
      B.Plays terminal steps (s.dispatch B).2.backend := by
  obtain ⟨hanswer, hrest⟩ := h
  simp only [dispatch, mode, if_true, runJitDispatch, executeJitBlock, hanswer, nonzero, if_false]
  refine ⟨trivial, ?_, hrest⟩
  simp only [policyState, observe, List.filterMap_append, List.filterMap_cons,
    Interaction.passedLimit, Interaction.reportedFallback, List.filterMap_nil, List.append_nil]
  rfl

/-- **A refusal is a step** of the policy. -/
theorem policyState_refused (mode : s.configuration.mode = .jit) {refusal : JitRefusal}
    {answer : InterpretedBlock}
    (h : B.Plays terminal (.refused refusal answer :: steps) s.backend) :
    s.policyState.refused s.fallbackLedger refusal answer =
        ((s.dispatch B).1.map RunResult.withoutJit, (s.dispatch B).2.policyState) ∧
      ((s.dispatch B).1 = none → B.Plays terminal steps (s.dispatch B).2.backend) := by
  obtain ⟨hanswer, hrest⟩ := h
  have hgate : s.fallbackLedger.canEnter refusal s.policyState.statistics =
      s.fallbackLedger.canEnter refusal s.statistics.countDispatch :=
    s.fallbackLedger.canEnter_withoutJit refusal s.statistics.countDispatch
  have hlimit : s.fallbackLedger.instructionLimit s.policyState.statistics =
      s.fallbackLedger.instructionLimit s.statistics.countDispatch :=
    s.fallbackLedger.instructionLimit_withoutJit s.statistics.countDispatch
  have hrecord : s.fallbackLedger.record refusal answer s.policyState.statistics = _ :=
    s.fallbackLedger.record_withoutJit refusal answer s.statistics.countDispatch
  simp only [dispatch, mode, if_true, runJitDispatch, executeJitBlock, hanswer, observe,
    PolicyState.refused, hgate]
  cases hg : s.fallbackLedger.canEnter refusal s.statistics.countDispatch with
  | some error =>
    refine ⟨?_, by simp⟩
    simp only [policyState, List.filterMap_append, List.filterMap_cons,
      Interaction.passedLimit, Interaction.reportedFallback, List.filterMap_nil, List.append_nil]
    rfl
  | none =>
    obtain ⟨hblock, hplays⟩ := hrest (s.fallbackLedger.instructionLimit s.statistics.countDispatch)
    simp only [executeRefusedBlock, hblock, hrecord, hlimit, observe]
    rcases s.fallbackLedger.record refusal answer s.statistics.countDispatch with
      ⟨_ | error, st⟩
    · refine ⟨?_, fun _ => hplays⟩
      simp only [policyState, List.filterMap_append, List.filterMap_cons, Interaction.passedLimit,
        Interaction.reportedFallback, List.filterMap_nil, List.append_nil]
      rfl
    · refine ⟨?_, by simp⟩
      simp only [policyState, List.filterMap_append, List.filterMap_cons, Interaction.passedLimit,
        Interaction.reportedFallback, List.filterMap_nil, List.append_nil]
      rfl

/-- **The end of a script** ends the run as the policy says. -/
theorem policyState_ended (mode : s.configuration.mode = .jit)
    (h : B.Plays terminal [] s.backend) :
    (s.dispatch B).1.map RunResult.withoutJit = some (s.policyState.ended terminal) ∧
      (s.dispatch B).2.policyState = s.policyState := by
  have hanswer : (B.executeJitBlock s.backend).1 = terminal.answer := h
  simp only [dispatch, mode, if_true, runJitDispatch, executeJitBlock, hanswer]
  have hquiet := s.policyState_observe (i := .executeJitBlock s.statistics.countDispatch
    terminal.answer) rfl rfl
  cases terminal with
  | exited exit => exact ⟨rfl, hquiet⟩
  | faulted fault => exact ⟨rfl, hquiet⟩
  | invalid execution zero =>
    simp only [ScriptEnd.answer, zero, if_true]
    exact ⟨rfl, hquiet⟩

/-- A dispatch keeps the mode and the ledger. -/
theorem keeps_dispatch (B : RuntimeBackend β) (s : Session β) :
    (s.dispatch B).2.configuration = s.configuration ∧
      (s.dispatch B).2.fallbackLedger = s.fallbackLedger := by
  obtain ⟨entries, hx, -, -⟩ := dispatch_spec B s
  exact ⟨hx.configuration, hx.fallbackLedger⟩

/-- **The loop** over a script, with more dispatches than the script has steps,
comes to what the policy makes of its refusals. -/
theorem policy_iterate (mode : s.configuration.mode = .jit)
    (h : B.Plays terminal steps s.backend) {n : ℕ} (hn : steps.length < n) :
    ∃ r s', iterate (dispatch B) n s = (some r, s') ∧
      PolicyState.run s.fallbackLedger terminal (steps.filterMap ScriptStep.refusal)
        s.policyState = (r.withoutJit, s'.policyState) := by
  obtain ⟨n, rfl⟩ := Nat.exists_eq_add_of_lt hn
  induction steps generalizing s with
  | nil =>
    obtain ⟨hresult, hpolicy⟩ := policyState_ended mode h
    obtain ⟨r, hr, hend⟩ := Option.map_eq_some_iff.1 hresult
    refine ⟨r, (s.dispatch B).2, iterate_of_eq_some hr, ?_⟩
    rw [hpolicy, hend]
    rfl
  | cons step steps ih =>
    obtain ⟨hconf, hledger⟩ := keeps_dispatch B s
    have hlen : (step :: steps).length + n + 1 = steps.length + n + 1 + 1 := by
      rw [List.length_cons]
      omega
    rw [hlen]
    cases step with
    | executed execution nonzero =>
      obtain ⟨hgoes, hpolicy, hplays⟩ := policyState_executed mode h
      rw [iterate_of_eq_none hgoes, ← hpolicy, ← hledger]
      exact ih (by rwa [hconf]) hplays (by omega)
    | refused refusal answer =>
      obtain ⟨hpolicy, hplays⟩ := policyState_refused mode h
      rcases hd : (s.dispatch B).1 with _ | r
      · rw [iterate_of_eq_none hd]
        obtain ⟨r, s', hloop, hrun⟩ := ih (by rwa [hconf]) (hplays hd) (by omega)
        refine ⟨r, s', hloop, ?_⟩
        rw [hd] at hpolicy
        rw [← hrun, hledger]
        simp only [List.filterMap_cons, ScriptStep.refusal, PolicyState.run, hpolicy,
          Option.map_none]
      · refine ⟨r, (s.dispatch B).2, iterate_of_eq_some hd, ?_⟩
        rw [hd] at hpolicy
        simp only [List.filterMap_cons, ScriptStep.refusal, PolicyState.run, hpolicy,
          Option.map_some]

/-- **The code refines the policy**: a run over a script, with more dispatches
than the script has steps, comes to what the policy makes of its refusals. -/
theorem policy_run (mode : s.configuration.mode = .jit) {script : Script}
    (h : B.Plays script.terminal script.steps s.backend) {n : UInt64}
    (hn : script.steps.length < n.toNat) :
    ((s.run B n).1.withoutJit, (s.run B n).2.policyState) =
      s.policyState.run s.fallbackLedger script.terminal script.refusals := by
  obtain ⟨r, s', hloop, hrun⟩ := policy_iterate mode h hn
  rw [run, hloop, Script.refusals, hrun]
  exact congrArg _ (s'.policyState_observe rfl rfl)

end Session

/-- The script with its JIT blocks deleted. -/
def Script.withoutJit (script : Script) : Script :=
  { script with steps := script.steps.filter fun step => step.refusal.isSome }

/-- Deleting the JIT blocks keeps the refusals. -/
theorem Script.refusals_withoutJit (script : Script) :
    script.withoutJit.refusals = script.refusals := by
  unfold refusals withoutJit
  induction script.steps with
  | nil => rfl
  | cons step steps ih =>
    cases step with
    | executed execution nonzero => exact ih
    | refused refusal answer => exact congrArg (List.cons (refusal, answer)) ih

/-- What two runs have in common if only JIT blocks tell their scripts apart. -/
structure SamePolicy {β β' : Type*} (run : RunResult × Session β)
    (run' : RunResult × Session β') : Prop where
  /-- The stop reason, the address, the detail, and the counters that are not
  the JIT's. -/
  result : run.1.withoutJit = run'.1.withoutJit
  statistics : run.2.statistics.withoutJit = run'.2.statistics.withoutJit
  /-- The limits passed to `execute_refused_block`. -/
  limits : run.2.log.filterMap Interaction.passedLimit =
    run'.2.log.filterMap Interaction.passedLimit
  /-- The fallbacks reported by `on_fallback`. -/
  fallbacks : run.2.log.filterMap Interaction.reportedFallback =
    run'.2.log.filterMap Interaction.reportedFallback

/-- **The fallback policy does not depend on the traffic of the JIT.**  Over two
scripts that are equal once their JIT blocks are deleted, fresh sessions pass
the same limits, report the same fallbacks, and stop for the same reason with
the same counters, apart from those of the JIT. -/
theorem policy_independent_of_jit {β β' : Type*} {B : RuntimeBackend β} {B' : RuntimeBackend β'}
    {configuration : RuntimeConfiguration} (mode : configuration.mode = .jit) {b : β} {b' : β'}
    {s : Session β} {t : Session β'} (hs : Session.new configuration b = .ok s)
    (ht : Session.new configuration b' = .ok t) {script script' : Script}
    (hb : B.Plays script.terminal script.steps b)
    (hb' : B'.Plays script'.terminal script'.steps b')
    (hsame : script.withoutJit = script'.withoutJit) {n n' : UInt64}
    (hn : script.steps.length < n.toNat) (hn' : script'.steps.length < n'.toNat) :
    SamePolicy (s.run B n) (t.run B' n') := by
  have hconf := Session.configuration_of_new hs
  have hconf' := Session.configuration_of_new ht
  obtain ⟨hlog, hst, rfl⟩ := Session.start_of_new hs
  obtain ⟨hlog', hst', rfl⟩ := Session.start_of_new ht
  have hledger : s.fallbackLedger = t.fallbackLedger :=
    FallbackLedger.ext (by rw [s.ledger_budget, t.ledger_budget, hconf, hconf'])
  have hstart : s.policyState = t.policyState := by
    rw [Session.policyState, Session.policyState, hlog, hlog', hst, hst']
  have hrefusals : script.refusals = script'.refusals := by
    rw [← script.refusals_withoutJit, hsame, script'.refusals_withoutJit]
  have hterminal : script.withoutJit.terminal = script'.withoutJit.terminal :=
    congrArg Script.terminal hsame
  change script.terminal = script'.terminal at hterminal
  have hrun := s.policy_run (by rwa [hconf]) hb hn
  have hrun' := t.policy_run (by rwa [hconf']) hb' hn'
  rw [hstart, hledger, hrefusals, hterminal, ← hrun', Prod.mk.injEq] at hrun
  obtain ⟨hresult, hpolicy⟩ := hrun
  exact ⟨hresult, congrArg PolicyState.statistics hpolicy, congrArg PolicyState.limits hpolicy,
    congrArg PolicyState.fallbacks hpolicy⟩

/-- A refusal within the budget, with and without a JIT block before it. -/
theorem policy_independent_of_one_block :
    ∃ s t, SamePolicy (Session.run (.scripted (.exited {})) 2 s)
        (Session.run (.scripted (.exited {})) 3 t) ∧
      Session.new ⟨.jit, ⟨1, 1, 1⟩, 1⟩ [.refused {} ⟨0, 1⟩] = .ok s ∧
      Session.new ⟨.jit, ⟨1, 1, 1⟩, 1⟩
        [.executed ⟨0, 7, true⟩ (by decide), .refused {} ⟨0, 1⟩] = .ok t :=
  ⟨_, _, @policy_independent_of_jit _ _ (.scripted (.exited {})) (.scripted (.exited {}))
    ⟨.jit, ⟨1, 1, 1⟩, 1⟩ rfl _ _ _ _ rfl rfl ⟨[.refused {} ⟨0, 1⟩], .exited {}⟩
    ⟨[.executed ⟨0, 7, true⟩ (by decide), .refused {} ⟨0, 1⟩], .exited {}⟩
    (RuntimeBackend.plays_scripted _ _) (RuntimeBackend.plays_scripted _ _) rfl 2 3
    (by decide) (by decide), rfl, rfl⟩

end Execution
end GcnPort
