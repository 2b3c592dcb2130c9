/-
# What exceptions do to a session

Nothing but what they say.  `ThrowingDispatch` lists the ways in which a dispatch can
throw, beside the nine in which it cannot, and `ThrowingHistory` what a session can have
done by then.  An exception is no worse than a failure a backend can report
(`ThrowingHistory.absorbed`): a history with exceptions shows the statistics of one
without, in which the backend faulted, or reported a block of no instructions, where it
threw.

So a session that was left by any number of exceptions still keeps to its budget and to
the protocol, and its statistics are still the tally of what crossed its boundary
(`sessions_exception_safe`).
-/

import GcnPort.Execution.Budget
import GcnPort.Execution.Throwing
import GcnPort.Foundation.Log

namespace GcnPort
namespace Execution

open Foundation

/-- One dispatch of a session whose collaborators may throw. -/
inductive ThrowingDispatch (configuration : RuntimeConfiguration) (ledger : FallbackLedger)
    (st : ExecutionStatistics) :
    List Crossing → ThrowingSession.Outcome → ExecutionStatistics → Prop
  | returned {entries : List Interaction} {r : Option RunResult} {st' : ExecutionStatistics}
      (h : Dispatch configuration ledger st entries r st') :
      ThrowingDispatch configuration ledger st (entries.map Interaction.crossing) (r.map .ok) st'
  | jitThrew (e : Exception) (mode : configuration.mode = .jit) :
      ThrowingDispatch configuration ledger st
        [.executeJitBlock st.countDispatch (.error e)] (some (.error e)) st.countDispatch
  | interpreterThrew (refusal : JitRefusal) (e : Exception) (mode : configuration.mode = .jit)
      (gate : ledger.canEnter refusal st.countDispatch = none) :
      ThrowingDispatch configuration ledger st
        [.executeJitBlock st.countDispatch (.ok (.refusal refusal)),
          .executeRefusedBlock st.countDispatch refusal
            (ledger.instructionLimit st.countDispatch) (.error e)]
        (some (.error e)) st.countDispatch
  | diagnosticThrew (e : Exception) (mode : configuration.mode = .diagnosticInterpreter) :
      ThrowingDispatch configuration ledger st
        [.executeDiagnosticInterpreterBlock st configuration.diagnosticInstructionsPerDispatch
          (.error e)] (some (.error e)) st
  | onJitExecutionThrew (execution : JitExecution) (e : Exception)
      (mode : configuration.mode = .jit) (count : execution.instructionCount ≠ 0) :
      ThrowingDispatch configuration ledger st
        [.executeJitBlock st.countDispatch (.ok (.execution execution)),
          .onJitExecution execution (st.countDispatch.countExecution execution) (.error e)]
        (some (.error e)) (st.countDispatch.countExecution execution)
  | onFallbackThrew (refusal : JitRefusal) (answer : InterpretedBlock) (e : Exception)
      (mode : configuration.mode = .jit)
      (gate : ledger.canEnter refusal st.countDispatch = none)
      (check : ledger.Accepts refusal answer st.countDispatch) :
      ThrowingDispatch configuration ledger st
        [.executeJitBlock st.countDispatch (.ok (.refusal refusal)),
          .executeRefusedBlock st.countDispatch refusal
            (ledger.instructionLimit st.countDispatch) (.ok answer),
          .onFallback refusal answer
            (st.countDispatch.charge refusal.reason answer.instructionCount) (.error e)]
        (some (.error e)) (st.countDispatch.charge refusal.reason answer.instructionCount)
  | onDiagnosticInterpreterThrew (answer : InterpretedBlock) (e : Exception)
      (mode : configuration.mode = .diagnosticInterpreter)
      (count : ¬(answer.instructionCount = 0 ∨
        answer.instructionCount > configuration.diagnosticInstructionsPerDispatch)) :
      ThrowingDispatch configuration ledger st
        [.executeDiagnosticInterpreterBlock st configuration.diagnosticInstructionsPerDispatch
          (.ok answer), .onDiagnosticInterpreter answer (st.countDiagnostic answer) (.error e)]
        (some (.error e)) (st.countDiagnostic answer)

/-- The abstract session, with exceptions. -/
inductive ThrowingHistory (configuration : RuntimeConfiguration) (ledger : FallbackLedger) :
    ExecutionStatistics → List Crossing → Prop
  | start : ThrowingHistory configuration ledger {} []
  | dispatched {st st' : ExecutionStatistics} {log entries : List Crossing}
      (h : ThrowingHistory configuration ledger st log)
      (hd : ThrowingDispatch configuration ledger st entries none st') :
      ThrowingHistory configuration ledger st' (log ++ entries)
  | ended {st st' : ExecutionStatistics} {log entries : List Crossing}
      {answer : Except Exception RunResult} (h : ThrowingHistory configuration ledger st log)
      (hd : ThrowingDispatch configuration ledger st entries (some answer) st') :
      ThrowingHistory configuration ledger st' (log ++ (entries ++ [.runEnded answer]))
  | exhausted {st : ExecutionStatistics} {log : List Crossing} (detail : String)
      (h : ThrowingHistory configuration ledger st log) :
      ThrowingHistory configuration ledger st
        (log ++ [.runEnded (.ok ⟨.dispatchBudgetExhausted, 0, detail, st⟩)])

namespace Crossing

/-- What the session was left with by a call to a collaborator. -/
def threw : Crossing → Option Exception
  | .executeJitBlock _ (.error e) | .executeRefusedBlock _ _ _ (.error e)
  | .executeDiagnosticInterpreterBlock _ _ (.error e) | .onJitExecution _ _ (.error e)
  | .onFallback _ _ _ (.error e) | .onDiagnosticInterpreter _ _ (.error e) => some e
  | _ => none

/-- The statistics that are shown to the other side. -/
def shown : Crossing → Option ExecutionStatistics
  | .executeJitBlock st _ | .executeRefusedBlock st _ _ _
  | .executeDiagnosticInterpreterBlock st _ _ | .onJitExecution _ st _
  | .onFallback _ _ st _ | .onDiagnosticInterpreter _ st _ => some st
  | .runEnded (.ok result) => some result.statistics
  | .runEnded (.error _) => none

/-- What a crossing adds to the counters: a call of `execute_jit_block` is a dispatch and
an event is a block, also when they throw. -/
def tally (st : ExecutionStatistics) : Crossing → ExecutionStatistics
  | .executeJitBlock .. => st.countDispatch
  | .onJitExecution execution .. => st.countExecution execution
  | .onFallback refusal execution .. => st.charge refusal.reason execution.instructionCount
  | .onDiagnosticInterpreter execution .. => st.countDiagnostic execution
  | .executeRefusedBlock .. | .executeDiagnosticInterpreterBlock .. | .runEnded _ => st

/-- An entry into the interpreter. -/
def entersInterpreter : Crossing → Bool
  | .executeRefusedBlock .. => true
  | _ => false

/-- An entry that nothing was charged for: it threw, or `record` rejects its block. -/
def uncharged (ledger : FallbackLedger) : Crossing → Bool
  | .executeRefusedBlock st refusal _ (.ok answer) => !decide (ledger.Accepts refusal answer st)
  | .executeRefusedBlock _ _ _ (.error _) => true
  | _ => false

/-- A block is offered to the JIT. -/
def offers : Crossing → Bool
  | .executeJitBlock .. => true
  | _ => false

/-- A block some instructions of which the JIT executed. -/
def executed? : Crossing → Option JitExecution
  | .executeJitBlock _ (.ok (.execution execution)) =>
    if execution.instructionCount = 0 then none else some execution
  | _ => none

/-- The crossing looks like `i`, or threw and could have been `i` otherwise. -/
def Absorbed : Crossing → Interaction → Prop
  | .executeJitBlock st (.ok answer), i => i = .executeJitBlock st answer
  | .executeJitBlock st (.error _), i => i = .executeJitBlock st (.fault {})
  | .executeRefusedBlock st refusal limit (.ok answer), i =>
    i = .executeRefusedBlock st refusal limit answer
  | .executeRefusedBlock st refusal limit (.error _), i =>
    i = .executeRefusedBlock st refusal limit {}
  | .executeDiagnosticInterpreterBlock st limit (.ok answer), i =>
    i = .executeDiagnosticInterpreterBlock st limit answer
  | .executeDiagnosticInterpreterBlock st limit (.error _), i =>
    i = .executeDiagnosticInterpreterBlock st limit {}
  | .onJitExecution execution st _, i => i = .onJitExecution execution st
  | .onFallback refusal execution st _, i => i = .onFallback refusal execution st
  | .onDiagnosticInterpreter execution st _, i => i = .onDiagnosticInterpreter execution st
  | .runEnded (.ok result), i => i = .runReturned result
  | .runEnded (.error _), i => ∃ result, i = .runReturned result

/-- What may come after a crossing: what it threw leaves `run`, a fault ends it, and an
entry is made for the refusal before it. -/
@[mk_iff]
structure Follows (x y : Crossing) : Prop where
  thrown : ∀ e, x.threw = some e ↔ y = .runEnded (.error e)
  entry : ∀ st refusal limit answer, y = .executeRefusedBlock st refusal limit answer →
    x = .executeJitBlock st (.ok (.refusal refusal))
  fault : ∀ st fault, x = .executeJitBlock st (.ok (.fault fault)) →
    y = .runEnded (.ok ⟨.backendFault, fault.guestPc, fault.detail, st⟩)
  faulted : ∀ r, y = .runEnded (.ok r) → r.reason = .backendFault →
    x = .executeJitBlock r.statistics (.ok (.fault ⟨r.guestPc, r.detail⟩))
  exited : ∀ r, y = .runEnded (.ok r) → r.reason = .backendExit →
    ∃ exit, x = .executeJitBlock r.statistics (.ok (.exit exit))

/-- The crossing opens a dispatch, or ends a run that nothing stopped. -/
def Opens (x : Crossing) : Prop :=
  x.entersInterpreter = false ∧
    ∀ answer, x = .runEnded answer → ∃ r, answer = .ok r ∧ r.reason = .dispatchBudgetExhausted

/-- The crossing ends a dispatch, or the run that it stopped or left. -/
def Closes (x : Crossing) : Prop :=
  x.threw = none ∧ ∀ st fault, x ≠ .executeJitBlock st (.ok (.fault fault))

end Crossing

open Crossing

/-- A crossing without an exception is its own interaction. -/
theorem absorbed_crossing (i : Interaction) : i.crossing.Absorbed i := by
  cases i <;> rfl

section

variable {configuration : RuntimeConfiguration} {ledger : FallbackLedger}
  {st st' : ExecutionStatistics} {log entries : List Crossing}
  {outcome : ThrowingSession.Outcome}

/-- **The step lemma of absorption.** -/
theorem ThrowingDispatch.absorbed
    (h : ThrowingDispatch configuration ledger st entries outcome st') :
    ∃ entries' r, Dispatch configuration ledger st entries' r st' ∧
      List.Forall₂ Absorbed entries entries' ∧
      (outcome = none → r = none) ∧ ∀ result, outcome = some (.ok result) → r = some result := by
  cases h with
  | @returned entries r st' h =>
    refine ⟨entries, r, h, ?_, ?_, ?_⟩
    · rw [List.forall₂_map_left_iff, List.forall₂_same]
      exact fun i _ => absorbed_crossing i
    · exact Option.map_eq_none_iff.1
    · intro result hr
      obtain ⟨result', hr', hresult⟩ := Option.map_eq_some_iff.1 hr
      rw [hr', Except.ok.inj hresult]
  | jitThrew e mode => exact ⟨_, _, .faulted {} mode, .cons rfl .nil, by simp, by simp⟩
  | interpreterThrew refusal e mode gate =>
    have hnot : ¬ledger.Accepts refusal {} st.countDispatch := fun h => h.2.2.1 rfl
    obtain ⟨error, hrecord⟩ := FallbackLedger.record_of_not_accepts hnot
    exact ⟨_, _, .rejected refusal {} error mode gate (by rw [hrecord]),
      .cons rfl (.cons rfl .nil), by simp, by simp⟩
  | diagnosticThrew e mode =>
    exact ⟨_, _, .diagnosticInvalid {} mode (.inl rfl), .cons rfl .nil, by simp, by simp⟩
  | onJitExecutionThrew execution e mode count =>
    exact ⟨_, _, .executed execution mode count, .cons rfl (.cons rfl .nil), by simp, by simp⟩
  | onFallbackThrew refusal answer e mode gate check =>
    exact ⟨_, _, .recorded refusal answer mode gate check,
      .cons rfl (.cons rfl (.cons rfl .nil)), by simp, by simp⟩
  | onDiagnosticInterpreterThrew answer e mode count =>
    exact ⟨_, _, .diagnosed answer mode count, .cons rfl (.cons rfl .nil), by simp, by simp⟩

/-- **Exceptions are absorbed.**  A history with exceptions shows the statistics of one
without. -/
theorem ThrowingHistory.absorbed (h : ThrowingHistory configuration ledger st log) :
    ∃ log', History configuration ledger st log' ∧ List.Forall₂ Absorbed log log' := by
  induction h with
  | start => exact ⟨[], .start, .nil⟩
  | dispatched _ hd ih =>
    obtain ⟨log', hh, hlog⟩ := ih
    obtain ⟨entries', r, hdisp, hentries, hnone, -⟩ := hd.absorbed
    rw [hnone rfl] at hdisp
    exact ⟨_, hh.dispatched hdisp, List.rel_append hlog hentries⟩
  | @ended st st' log entries answer _ hd ih =>
    obtain ⟨log', hh, hlog⟩ := ih
    obtain ⟨entries', r, hdisp, hentries, -, hok⟩ := hd.absorbed
    have happend := List.rel_append hlog hentries
    cases answer with
    | ok result =>
      rw [hok result rfl] at hdisp
      refine ⟨_, hh.stopped hdisp, ?_⟩
      rw [← List.append_assoc]
      exact List.rel_append happend (.cons rfl .nil)
    | error e =>
      rw [← List.append_assoc]
      cases r with
      | some result => exact ⟨_, hh.stopped hdisp, List.rel_append happend (.cons ⟨_, rfl⟩ .nil)⟩
      | none =>
        -- the block was charged before its event threw, so the run could go on
        exact ⟨_, (hh.dispatched hdisp).exhausted "", List.rel_append happend (.cons ⟨_, rfl⟩ .nil)⟩
  | exhausted detail _ ih =>
    obtain ⟨log', hh, hlog⟩ := ih
    exact ⟨_, hh.exhausted detail, List.rel_append hlog (.cons rfl .nil)⟩

/-- The counters of a log. -/
def tallied (st : ExecutionStatistics) (log : List Crossing) : ExecutionStatistics :=
  log.foldl Crossing.tally st

/-- Whatever is shown to the other side is the tally of what has crossed by then. -/
def Told (st : ExecutionStatistics) (log : List Crossing) : Prop :=
  EveryPrefix (fun before x => ∀ st₀ ∈ x.shown, st₀ = tallied st (before ++ [x])) log

/-- The counters of a log go on where those of its beginning ended. -/
theorem tallied_append (st : ExecutionStatistics) (log log' : List Crossing) :
    tallied st (log ++ log') = tallied (tallied st log) log' :=
  List.foldl_append

/-- Nothing has been told yet. -/
theorem told_nil (st : ExecutionStatistics) : Told st [] := everyPrefix_nil

/-- The first crossing is told the counters, and the others what it leaves of them. -/
theorem told_cons {x : Crossing} : Told st (x :: log) ↔
    (∀ st₀ ∈ x.shown, st₀ = x.tally st) ∧ Told (x.tally st) log := by
  rw [Told, everyPrefix_cons]
  rfl

/-- One log is told after the other. -/
theorem Told.append (h : Told st log) (h' : Told (tallied st log) entries) :
    Told st (log ++ entries) := by
  refine EveryPrefix.append h fun before x after hentries st₀ hst => ?_
  rw [h' before x after hentries st₀ hst, List.append_assoc, tallied_append st log]

/-- **The step lemma of the tally.** -/
theorem ThrowingDispatch.tallied
    (h : ThrowingDispatch configuration ledger st entries outcome st') :
    Execution.tallied st entries = st' ∧ Told st entries ∧
      ∀ result, outcome = some (.ok result) → result.statistics = st' := by
  cases h with
  | returned h =>
    cases h <;>
      simp [Execution.tallied, told_cons, told_nil, Interaction.crossing, tally, shown]
  | _ => simp [Execution.tallied, told_cons, told_nil, tally, shown]

/-- **The tally of a history.** -/
theorem ThrowingHistory.tallied (h : ThrowingHistory configuration ledger st log) :
    Execution.tallied {} log = st ∧ Told {} log := by
  induction h with
  | start => exact ⟨rfl, told_nil _⟩
  | dispatched _ hd ih =>
    obtain ⟨rfl, htold⟩ := ih
    obtain ⟨hst, hentries, -⟩ := hd.tallied
    exact ⟨by rw [tallied_append, hst], htold.append hentries⟩
  | @ended st st' log entries answer _ hd ih =>
    obtain ⟨rfl, htold⟩ := ih
    obtain ⟨hst, hentries, hresult⟩ := hd.tallied
    refine ⟨by rw [tallied_append, tallied_append, hst]; rfl, htold.append (hentries.append ?_)⟩
    rw [hst, told_cons]
    refine ⟨fun st₀ hst₀ => ?_, told_nil _⟩
    cases answer with
    | ok result => exact (Option.some.inj hst₀) ▸ hresult result rfl
    | error e => cases hst₀
  | exhausted detail _ ih =>
    obtain ⟨rfl, htold⟩ := ih
    refine ⟨by rw [tallied_append]; rfl, htold.append (told_cons.2 ⟨fun st₀ hst₀ => ?_, ?_⟩)⟩
    · exact (Option.some.inj hst₀).symm
    · exact told_nil _

/-- What holds of every crossing of every dispatch holds of every crossing of a log. -/
theorem ThrowingHistory.forall_mem {P : Crossing → Prop}
    (h : ThrowingHistory configuration ledger st log)
    (hdispatch : ∀ {st entries outcome st'},
      ThrowingDispatch configuration ledger st entries outcome st' → ∀ x ∈ entries, P x)
    (hended : ∀ answer, P (.runEnded answer)) : ∀ x ∈ log, P x := by
  induction h with
  | start => exact fun _ hx => absurd hx List.not_mem_nil
  | dispatched _ hd ih => exact List.forall_mem_append.2 ⟨ih, hdispatch hd⟩
  | ended _ hd ih =>
    exact List.forall_mem_append.2 ⟨ih, List.forall_mem_append.2
      ⟨hdispatch hd, List.forall_mem_singleton.2 (hended _)⟩⟩
  | exhausted detail _ ih =>
    exact List.forall_mem_append.2 ⟨ih, List.forall_mem_singleton.2 (hended _)⟩

/-- The crossing belongs to JIT mode. -/
def Crossing.OfJitMode : Crossing → Prop
  | .executeDiagnosticInterpreterBlock .. | .onDiagnosticInterpreter .. => False
  | _ => True

/-- The crossing belongs to the diagnostic mode, with `limit` instructions for each block. -/
def Crossing.OfDiagnosticMode (limit : UInt32) : Crossing → Prop
  | .executeDiagnosticInterpreterBlock _ limit' _ => limit' = limit
  | .onDiagnosticInterpreter .. | .runEnded _ => True
  | _ => False

/-- In the JIT mode every crossing is one of that mode. -/
theorem ThrowingHistory.ofJitMode (h : ThrowingHistory configuration ledger st log)
    (mode : configuration.mode = .jit) : ∀ x ∈ log, x.OfJitMode := by
  refine h.forall_mem (fun hd => ?_) fun _ => trivial
  cases hd with
  | returned hd => cases hd <;> simp_all [Interaction.crossing, OfJitMode]
  | _ => simp_all [OfJitMode]

/-- In the diagnostic mode every crossing is one of that mode. -/
theorem ThrowingHistory.ofDiagnosticMode (h : ThrowingHistory configuration ledger st log)
    (mode : configuration.mode = .diagnosticInterpreter) :
    ∀ x ∈ log, x.OfDiagnosticMode configuration.diagnosticInstructionsPerDispatch := by
  refine h.forall_mem (fun hd => ?_) fun _ => trivial
  cases hd with
  | returned hd => cases hd <;> simp_all [Interaction.crossing, OfDiagnosticMode]
  | _ => simp_all [OfDiagnosticMode]

/-- A counter that every dispatch raises by the weights of its crossings is the weight of
the log. -/
theorem ThrowingHistory.counted {counter : ExecutionStatistics → UInt64} {weight : Crossing → ℕ}
    (hstart : counter {} = 0) (hended : ∀ answer, weight (.runEnded answer) = 0)
    (hdispatch : ∀ {st entries outcome st'},
      ThrowingDispatch configuration ledger st entries outcome st' →
        counter st' = counter st + .ofNat (entries.map weight).sum)
    (h : ThrowingHistory configuration ledger st log) :
    counter st = .ofNat (log.map weight).sum := by
  induction h with
  | start => exact hstart
  | dispatched _ hd ih =>
    rw [hdispatch hd, ih, List.map_append, List.sum_append, UInt64.ofNat_add]
  | ended _ hd ih =>
    rw [hdispatch hd, ih, List.map_append, List.sum_append, List.map_append, List.sum_append,
      UInt64.ofNat_add]
    simp [hended]
  | exhausted detail _ ih =>
    rw [ih, List.map_append, List.sum_append]
    simp [hended]

/-- **The step lemma of the JIT counters.** -/
theorem ThrowingDispatch.jitCounters
    (h : ThrowingDispatch configuration ledger st entries outcome st') :
    st'.jitDispatches =
        st.jitDispatches + .ofNat (entries.map fun x => if x.offers then 1 else 0).sum ∧
      st'.jitBlocksExecuted =
        st.jitBlocksExecuted + .ofNat (entries.map fun x => x.executed?.elim 0 fun _ => 1).sum ∧
      st'.jitBlocksCompiled = st.jitBlocksCompiled +
        .ofNat (entries.map fun x => x.executed?.elim 0 fun e => if e.compiled then 1 else 0).sum ∧
      st'.jitInstructionsExecuted = st.jitInstructionsExecuted +
        .ofNat (entries.map fun x => x.executed?.elim 0 fun e => e.instructionCount.toNat).sum := by
  have hcompiled (compiled : Bool) (n : UInt64) :
      (if compiled then n + 1 else n) = n + .ofNat (if compiled then 1 else 0) := by
    cases compiled <;> simp
  cases h with
  | returned h =>
    cases h <;>
      simp [Interaction.crossing, offers, executed?, ExecutionStatistics.countDispatch,
        ExecutionStatistics.countExecution, ExecutionStatistics.charge,
        ExecutionStatistics.countDiagnostic, UInt64.ofNat_uInt32ToNat, *]
  | _ =>
    simp [offers, executed?, ExecutionStatistics.countDispatch,
      ExecutionStatistics.countExecution, ExecutionStatistics.charge,
      ExecutionStatistics.countDiagnostic, UInt64.ofNat_uInt32ToNat, *]

/-- **The JIT counters of a history** are those of the executions in its log. -/
theorem ThrowingHistory.jitCounters (h : ThrowingHistory configuration ledger st log) :
    st.jitDispatches = .ofNat (log.countP offers) ∧
      st.jitBlocksExecuted = .ofNat (log.filterMap executed?).length ∧
      st.jitBlocksCompiled = .ofNat ((log.filterMap executed?).countP (·.compiled)) ∧
      st.jitInstructionsExecuted =
        .ofNat ((log.filterMap executed?).map (·.instructionCount.toNat)).sum := by
  refine ⟨?_, ?_, ?_, ?_⟩
  · rw [← sum_map_ite]
    exact h.counted rfl (fun _ => rfl) fun hd => hd.jitCounters.1
  · have hcount := h.counted rfl (fun _ => rfl) fun hd => hd.jitCounters.2.1
    rw [hcount, sum_map_elim, List.map_const', List.sum_replicate_nat, Nat.mul_one]
  · have hcount := h.counted rfl (fun _ => rfl) fun hd => hd.jitCounters.2.2.1
    rw [hcount, sum_map_elim, sum_map_ite]
  · have hcount := h.counted rfl (fun _ => rfl) fun hd => hd.jitCounters.2.2.2
    rw [hcount, sum_map_elim]

/-- A log in which exceptions and faults leave `run`, and entries are made for refusals. -/
abbrev Orderly : List Crossing → Prop := WellFormed Follows Opens Closes

/-- A run that ends where a dispatch could open was stopped by nothing. -/
theorem Crossing.Opens.reason_eq {r : RunResult} (h : Opens (.runEnded (.ok r))) :
    r.reason = .dispatchBudgetExhausted := by
  obtain ⟨r', hr, hreason⟩ := h.2 _ rfl
  rw [Except.ok.inj hr, hreason]

/-- What opens a dispatch may follow whatever closes one. -/
theorem Crossing.Closes.follows {x y : Crossing} (hx : x.Closes) (hy : y.Opens) : x.Follows y := by
  obtain ⟨hthrew, hfault⟩ := hx
  refine ⟨fun e => ⟨fun he => ?_, fun he => ?_⟩, ?_, fun st fault he => absurd he (hfault st fault),
    fun r he hr => ?_, fun r he hr => ?_⟩
  · rw [hthrew] at he
    cases he
  · obtain ⟨r, hr, -⟩ := hy.2 _ he
    cases hr
  · rintro st refusal limit answer rfl
    cases hy.1
  · subst he
    exact absurd (hy.reason_eq.symm.trans hr) (by decide)
  · subst he
    exact absurd (hy.reason_eq.symm.trans hr) (by decide)

/-- **The step lemma of the order.**  A dispatch, with the end of the run that it stops
or leaves. -/
theorem ThrowingDispatch.orderly
    (h : ThrowingDispatch configuration ledger st entries outcome st') :
    Orderly (entries ++ (outcome.map Crossing.runEnded).toList) := by
  refine ⟨?_, ?_, ?_⟩
  · cases h with
    | returned h => cases h <;> simp +contextual [Interaction.crossing, threw, follows_iff]
    | _ => simp +contextual [threw, follows_iff]
  · cases h with
    | returned h => cases h <;> simp [Interaction.crossing, entersInterpreter, Opens]
    | _ => simp [entersInterpreter, Opens]
  · cases h with
    | returned h => cases h <;> simp [Interaction.crossing, threw, Closes]
    | _ => simp [threw, Closes]

/-- **The order of a history.** -/
theorem ThrowingHistory.orderly (h : ThrowingHistory configuration ledger st log) :
    Orderly log := by
  induction h with
  | start => exact .nil
  | dispatched _ hd ih =>
    have hentries := hd.orderly
    rw [Option.map_none, Option.toList_none, List.append_nil] at hentries
    exact ih.append hentries fun _ _ => Closes.follows
  | ended _ hd ih => exact ih.append hd.orderly fun _ _ => Closes.follows
  | exhausted detail _ ih =>
    refine ih.append ⟨List.isChain_singleton _, ?_, ?_⟩ fun _ _ => Closes.follows
    · simp [entersInterpreter, Opens]
    · simp [threw, Closes]

end

/-- What a crossing is absorbed as enters the interpreter if it does. -/
theorem Crossing.Absorbed.entersInterpreter {x : Crossing} {i : Interaction} (h : x.Absorbed i) :
    x.entersInterpreter = i.entersInterpreter := by
  unfold Absorbed at h
  split at h <;> first | (subst h; rfl) | (obtain ⟨result, rfl⟩ := h; rfl)

/-- The crossing is what the collaborators, from `c`, return or throw and become `c'`. -/
def Collaborators.Answers {ε : Type*} (C : Collaborators ε) : Crossing → ε → ε → Prop
  | .executeJitBlock _ answer, c, c' => C.executeJitBlock c = (answer, c')
  | .executeRefusedBlock _ refusal limit answer, c, c' =>
    C.executeRefusedBlock refusal limit c = (answer, c')
  | .executeDiagnosticInterpreterBlock _ limit answer, c, c' =>
    C.executeDiagnosticInterpreterBlock limit c = (answer, c')
  | .onJitExecution execution st answer, c, c' => C.onJitExecution execution st c = (answer, c')
  | .onFallback refusal execution st answer, c, c' =>
    C.onFallback refusal execution st c = (answer, c')
  | .onDiagnosticInterpreter execution st answer, c, c' =>
    C.onDiagnosticInterpreter execution st c = (answer, c')
  | .runEnded _, c, c' => c' = c

/-- The crossings are what the collaborators do from `c` until they are `c'`. -/
inductive Collaborators.Plays {ε : Type*} (C : Collaborators ε) : ε → List Crossing → ε → Prop
  | nil (c : ε) : C.Plays c [] c
  | cons {c c' c'' : ε} {x : Crossing} {xs : List Crossing} (h : C.Answers x c c')
      (hs : C.Plays c' xs c'') : C.Plays c (x :: xs) c''

/-- What every answer preserves of the collaborators and what has crossed by then. -/
theorem Collaborators.Plays.preserves {ε : Type*} {C : Collaborators ε} {c c' : ε}
    {xs : List Crossing} {I : ε → List Crossing → Prop} (h : C.Plays c xs c')
    (hstep : ∀ x c c' log, C.Answers x c c' → I c log → I c' (log ++ [x])) {log : List Crossing}
    (hI : I c log) : I c' (log ++ xs) := by
  induction h generalizing log with
  | nil c => rwa [List.append_nil]
  | @cons c c' c'' x xs hx _ ih =>
    have hI' := ih (hstep x c c' log hx hI)
    rwa [List.append_assoc] at hI'

/-- The collaborators play one log after the other. -/
theorem Collaborators.Plays.append {ε : Type*} {C : Collaborators ε} {c c' c'' : ε}
    {xs ys : List Crossing} (h : C.Plays c xs c') (h' : C.Plays c' ys c'') :
    C.Plays c (xs ++ ys) c'' := by
  induction h with
  | nil c => exact h'
  | cons hx _ ih => exact .cons hx (ih h')

namespace ThrowingSession

variable {ε : Type*} {C : Collaborators ε} {s s' s'' : ThrowingSession ε}

/-- `s'` is a later state of the session `s`. -/
structure Extends (C : Collaborators ε) (s s' : ThrowingSession ε) (entries : List Crossing) :
    Prop where
  configuration : s'.configuration = s.configuration
  fallbackLedger : s'.fallbackLedger = s.fallbackLedger
  log : s'.log = s.log ++ entries
  plays : C.Plays s.collaborators entries s'.collaborators

/-- A session extends itself by nothing. -/
theorem Extends.refl (C : Collaborators ε) (s : ThrowingSession ε) : s.Extends C s [] :=
  ⟨rfl, rfl, (List.append_nil _).symm, .nil _⟩

/-- One extension after the other. -/
theorem Extends.trans {entries entries' : List Crossing} (h : s.Extends C s' entries)
    (h' : s'.Extends C s'' entries') : s.Extends C s'' (entries ++ entries') :=
  ⟨h'.configuration.trans h.configuration, h'.fallbackLedger.trans h.fallbackLedger,
    by rw [h'.log, h.log, List.append_assoc], h.plays.append h'.plays⟩

/-- The end of a run extends the log by itself. -/
theorem extends_runEnded (C : Collaborators ε) (s : ThrowingSession ε)
    (answer : Except Exception RunResult) :
    s.Extends C (s.observe (.runEnded answer)) [.runEnded answer] :=
  ⟨rfl, rfl, rfl, .cons rfl (.nil _)⟩

/-- A JIT dispatch is one of the cases of `ThrowingDispatch`. -/
theorem runJitDispatch_spec (C : Collaborators ε) (s : ThrowingSession ε)
    (mode : s.configuration.mode = .jit) :
    ∃ entries, s.Extends C (s.runJitDispatch C).2 entries ∧
      ThrowingDispatch s.configuration s.fallbackLedger s.statistics entries
        (s.runJitDispatch C).1 (s.runJitDispatch C).2.statistics := by
  rcases hc : C.executeJitBlock s.collaborators with ⟨e | answer, c⟩
  · simp only [runJitDispatch, executeJitBlock, hc, observe]
    exact ⟨_, ⟨rfl, rfl, rfl, .cons hc (.nil c)⟩, .jitThrew e mode⟩
  cases answer with
  | execution execution =>
    by_cases hz : execution.instructionCount = 0
    · simp only [runJitDispatch, executeJitBlock, hc, hz, if_true]
      exact ⟨_, ⟨rfl, rfl, rfl, .cons hc (.nil c)⟩, .returned (.empty execution mode hz)⟩
    rcases hr : C.onJitExecution execution
      (s.statistics.countDispatch.countExecution execution) c with ⟨e | ⟨⟩, c'⟩ <;>
      simp only [runJitDispatch, executeJitBlock, hc, hz, if_false, onJitExecution, observe, hr,
        reported]
    · exact ⟨_, ⟨rfl, rfl, List.append_assoc .., .cons hc (.cons hr (.nil c'))⟩,
        .onJitExecutionThrew execution e mode hz⟩
    · exact ⟨_, ⟨rfl, rfl, List.append_assoc .., .cons hc (.cons hr (.nil c'))⟩,
        .returned (.executed execution mode hz)⟩
  | refusal refusal =>
    cases hgate : s.fallbackLedger.canEnter refusal s.statistics.countDispatch with
    | some error =>
      simp only [runJitDispatch, executeJitBlock, hc, observe, hgate]
      exact ⟨_, ⟨rfl, rfl, rfl, .cons hc (.nil c)⟩, .returned (.refused refusal error mode hgate)⟩
    | none =>
      rcases he : C.executeRefusedBlock refusal
        (s.fallbackLedger.instructionLimit s.statistics.countDispatch) c with ⟨e | block, c'⟩
      · simp only [runJitDispatch, executeJitBlock, hc, observe, hgate, executeRefusedBlock, he]
        exact ⟨_, ⟨rfl, rfl, List.append_assoc .., .cons hc (.cons he (.nil c'))⟩,
          .interpreterThrew refusal e mode hgate⟩
      by_cases hacc : s.fallbackLedger.Accepts refusal block s.statistics.countDispatch
      · have hrec := FallbackLedger.record_of_accepts hacc
        rcases hr : C.onFallback refusal block
          (s.statistics.countDispatch.charge refusal.reason block.instructionCount) c' with
          ⟨e | ⟨⟩, c''⟩ <;>
          simp only [runJitDispatch, executeJitBlock, hc, observe, hgate, executeRefusedBlock, he,
            hrec, onFallback, hr, reported]
        · refine ⟨_, ?_, .onFallbackThrew refusal block e mode hgate hacc⟩
          exact ⟨rfl, rfl, by simp, .cons hc (.cons he (.cons hr (.nil c'')))⟩
        · refine ⟨_, ?_, .returned (.recorded refusal block mode hgate hacc)⟩
          exact ⟨rfl, rfl, by simp [Interaction.crossing],
            .cons hc (.cons he (.cons hr (.nil c'')))⟩
      · obtain ⟨error, hrec⟩ := FallbackLedger.record_of_not_accepts hacc
        simp only [runJitDispatch, executeJitBlock, hc, observe, hgate, executeRefusedBlock, he,
          hrec]
        refine ⟨_, ?_, .returned (.rejected refusal block error mode hgate (by rw [hrec]))⟩
        exact ⟨rfl, rfl, by simp [Interaction.crossing], .cons hc (.cons he (.nil c'))⟩
  | exit exit =>
    simp only [runJitDispatch, executeJitBlock, hc]
    exact ⟨_, ⟨rfl, rfl, rfl, .cons hc (.nil c)⟩, .returned (.exited exit mode)⟩
  | fault fault =>
    simp only [runJitDispatch, executeJitBlock, hc]
    exact ⟨_, ⟨rfl, rfl, rfl, .cons hc (.nil c)⟩, .returned (.faulted fault mode)⟩

/-- A diagnostic dispatch is one of the cases of `ThrowingDispatch`. -/
theorem runDiagnosticDispatch_spec (C : Collaborators ε) (s : ThrowingSession ε)
    (mode : s.configuration.mode = .diagnosticInterpreter) :
    ∃ entries, s.Extends C (s.runDiagnosticDispatch C).2 entries ∧
      ThrowingDispatch s.configuration s.fallbackLedger s.statistics entries
        (s.runDiagnosticDispatch C).1 (s.runDiagnosticDispatch C).2.statistics := by
  rcases hc : C.executeDiagnosticInterpreterBlock
    s.configuration.diagnosticInstructionsPerDispatch s.collaborators with ⟨e | block, c⟩
  · simp only [runDiagnosticDispatch, executeDiagnosticInterpreterBlock, hc, observe]
    exact ⟨_, ⟨rfl, rfl, rfl, .cons hc (.nil c)⟩, .diagnosticThrew e mode⟩
  by_cases hz : block.instructionCount = 0 ∨
      block.instructionCount > s.configuration.diagnosticInstructionsPerDispatch
  · simp only [runDiagnosticDispatch, executeDiagnosticInterpreterBlock, hc, observe, hz, if_true]
    exact ⟨_, ⟨rfl, rfl, rfl, .cons hc (.nil c)⟩, .returned (.diagnosticInvalid block mode hz)⟩
  · rcases hr : C.onDiagnosticInterpreter block (s.statistics.countDiagnostic block) c with
      ⟨e | ⟨⟩, c'⟩ <;>
      simp only [runDiagnosticDispatch, executeDiagnosticInterpreterBlock, hc, observe, hz,
        if_false, onDiagnosticInterpreter, hr, reported]
    · exact ⟨_, ⟨rfl, rfl, List.append_assoc .., .cons hc (.cons hr (.nil c'))⟩,
        .onDiagnosticInterpreterThrew block e mode hz⟩
    · exact ⟨_, ⟨rfl, rfl, List.append_assoc .., .cons hc (.cons hr (.nil c'))⟩,
        .returned (.diagnosed block mode hz)⟩

/-- **The dispatch lemma.**  Every pass of the loop is one of the nine dispatches, or
throws in one of the six ways, with the answers the collaborators gave. -/
theorem dispatch_spec (C : Collaborators ε) (s : ThrowingSession ε) :
    ∃ entries, s.Extends C (s.dispatch C).2 entries ∧
      ThrowingDispatch s.configuration s.fallbackLedger s.statistics entries (s.dispatch C).1
        (s.dispatch C).2.statistics := by
  unfold dispatch
  split_ifs with hm
  · exact runJitDispatch_spec C s hm
  · refine runDiagnosticDispatch_spec C s ?_
    cases hmode : s.configuration.mode
    · exact absurd hmode hm
    · rfl

/-- One more dispatch extends the log further. -/
theorem Extends.dispatch {entries : List Crossing} {outcome : Outcome}
    (h : s.Extends C s' entries) (hd : s'.dispatch C = (outcome, s'')) :
    ∃ entries', s.Extends C s'' entries' := by
  obtain ⟨entries', hx, -⟩ := dispatch_spec C s'
  rw [hd] at hx
  exact ⟨_, h.trans hx⟩

/-- A run adds to the log what the collaborators did in it. -/
theorem extends_run (C : Collaborators ε) (n : UInt64) (s : ThrowingSession ε) :
    ∃ entries, s.Extends C (s.run C n).2 entries := by
  have hloop : ∀ {k t}, Continues (ThrowingSession.dispatch C) k s t →
      ∃ entries, s.Extends C t entries := fun hc =>
    hc.preserves (I := fun t => ∃ entries, s.Extends C t entries)
      (fun _ _ ⟨_, hx⟩ hd => hx.dispatch hd) ⟨[], .refl C s⟩
  rcases hi : iterate (ThrowingSession.dispatch C) n.toNat s with ⟨_ | answer, s'⟩ <;>
    simp only [ThrowingSession.run, hi]
  · obtain ⟨entries, hx⟩ := hloop (iterate_eq_none_iff.1 hi)
    exact ⟨_, hx.trans (extends_runEnded C s' _)⟩
  · obtain ⟨k, -, t, hc, hd⟩ := iterate_eq_some_iff.1 hi
    obtain ⟨entries, hx⟩ := hloop hc
    obtain ⟨entries', hx'⟩ := hx.dispatch hd
    exact ⟨_, hx'.trans (extends_runEnded C s' _)⟩

/-- The session has the configuration, and has done what a session under it can do. -/
structure Lawful (configuration : RuntimeConfiguration) (s : ThrowingSession ε) : Prop where
  configuration_eq : s.configuration = configuration
  history : ThrowingHistory configuration s.fallbackLedger s.statistics s.log

/-- What a new session starts from. -/
theorem start_of_new {configuration : RuntimeConfiguration} {c : ε}
    (h : new configuration c = .ok s) : s.log = [] ∧ s.statistics = {} ∧
      s.collaborators = c ∧ s.configuration = configuration := by
  cases hn : Session.new configuration c with
  | error e =>
    rw [new, hn] at h
    cases h
  | ok t =>
    rw [new, hn] at h
    obtain rfl := Except.ok.inj h
    obtain ⟨hlog, hst, hc⟩ := Session.start_of_new hn
    exact ⟨by rw [ofSession, hlog]; rfl, hst, hc, Session.configuration_of_new hn⟩

/-- A new session is lawful. -/
theorem lawful_of_new {configuration : RuntimeConfiguration} {c : ε}
    (h : new configuration c = .ok s) : s.Lawful configuration := by
  obtain ⟨hlog, hst, -, hconfiguration⟩ := start_of_new h
  refine ⟨hconfiguration, ?_⟩
  rw [hlog, hst]
  exact .start

/-- A dispatch that goes on leads from a lawful session to a lawful one. -/
theorem Lawful.dispatch {configuration : RuntimeConfiguration} (h : s.Lawful configuration)
    (hd : s.dispatch C = (none, s')) : s'.Lawful configuration := by
  obtain ⟨entries, hx, hdisp⟩ := dispatch_spec C s
  rw [hd] at hx hdisp
  rw [h.configuration_eq] at hdisp
  refine ⟨hx.configuration.trans h.configuration_eq, ?_⟩
  rw [hx.fallbackLedger, hx.log]
  exact h.history.dispatched hdisp

/-- **A run leads from a lawful session to a lawful one**, whether it returns or throws. -/
theorem Lawful.run {configuration : RuntimeConfiguration} (h : s.Lawful configuration)
    (n : UInt64) : (s.run C n).2.Lawful configuration := by
  rcases hi : iterate (ThrowingSession.dispatch C) n.toNat s with ⟨_ | answer, s'⟩ <;>
    simp only [ThrowingSession.run, hi]
  · have h' : s'.Lawful configuration :=
      (iterate_eq_none_iff.1 hi).preserves (fun _ _ h hd => h.dispatch hd) h
    exact ⟨h'.configuration_eq, h'.history.exhausted _⟩
  · obtain ⟨k, -, t, hc, hd⟩ := iterate_eq_some_iff.1 hi
    have h' : t.Lawful configuration := hc.preserves (fun _ _ h hd => h.dispatch hd) h
    obtain ⟨entries, hx, hdisp⟩ := dispatch_spec C t
    rw [hd] at hx hdisp
    rw [h'.configuration_eq] at hdisp
    refine ⟨hx.configuration.trans h'.configuration_eq, ?_⟩
    have hended := h'.history.ended hdisp
    rw [← List.append_assoc, ← hx.log, ← hx.fallbackLedger] at hended
    exact hended

/-- A session is lawful after any runs. -/
theorem lawful_runs {configuration : RuntimeConfiguration} {c : ε}
    (h : new configuration c = .ok s) (ns : List UInt64) :
    (s.runs C ns).2.Lawful configuration :=
  runAll_preserves (fun n _ h => h.run n) ns (lawful_of_new h)

/-- A session keeps the ledger it was built with. -/
theorem Lawful.budget_eq {configuration : RuntimeConfiguration} (h : s.Lawful configuration) :
    s.fallbackLedger.budget = configuration.fallback := by
  rw [s.ledger_budget, h.configuration_eq]

end ThrowingSession

/-- What holds of a session whatever its collaborators have thrown. -/
structure ExceptionSafe {ε : Type*} (configuration : RuntimeConfiguration)
    (s : ThrowingSession ε) : Prop where
  /-- The counters are within their limits. -/
  blocks : s.statistics.fallbackBlocks ≤ configuration.fallback.maximumBlocks
  instructions : s.statistics.fallbackInstructions ≤ configuration.fallback.maximumTotalInstructions
  /-- An entry, whether it returned or threw, was made right after the refusal it was made
  for, which has a reason with a name, and with a limit that fits in what remained. -/
  entry : ∀ before st refusal limit answer after,
    s.log = before ++ .executeRefusedBlock st refusal limit answer :: after →
      (∃ before', before = before' ++ [.executeJitBlock st (.ok (.refusal refusal))]) ∧
        reasonIndex refusal.reason < kJitRefusalReasonCount ∧
        1 ≤ limit ∧ limit ≤ configuration.fallback.maximumInstructionsPerBlock ∧
        limit.toNat + st.fallbackInstructions.toNat ≤
          configuration.fallback.maximumTotalInstructions.toNat
  /-- An entry was charged, or it threw, or its block was rejected. -/
  entries : s.log.countP Crossing.entersInterpreter =
    s.statistics.fallbackBlocks.toNat + s.log.countP (Crossing.uncharged s.fallbackLedger)
  /-- Nothing is asked of the interpreter that belongs to the other mode. -/
  jitMode : configuration.mode = .jit → ∀ x ∈ s.log, x.OfJitMode
  diagnosticMode : configuration.mode = .diagnosticInterpreter →
    ∀ x ∈ s.log, x.OfDiagnosticMode configuration.diagnosticInstructionsPerDispatch
  /-- The statistics, and all that were ever shown, are the tally of what had crossed. -/
  statistics : s.statistics = tallied {} s.log
  told : Told {} s.log
  /-- What was thrown left `run` at once, and nothing else did. -/
  thrown : ∀ before x after e, s.log = before ++ x :: after → x.threw = some e →
    ∃ after', after = .runEnded (.error e) :: after'
  raised : ∀ before e after, s.log = before ++ .runEnded (.error e) :: after →
    ∃ before' x, before = before' ++ [x] ∧ x.threw = some e

/-- What a crossing is absorbed as goes uncharged if it does. -/
theorem Crossing.Absorbed.uncharged {ledger : FallbackLedger} {x : Crossing} {i : Interaction}
    (h : x.Absorbed i) : x.uncharged ledger = i.rejectedBy ledger := by
  unfold Absorbed at h
  split at h <;> first | (subst h; rfl) | (obtain ⟨result, rfl⟩ := h; rfl) | skip
  subst h
  simp [Crossing.uncharged, Interaction.rejectedBy, FallbackLedger.Accepts]

/-- A lawful session is safe. -/
theorem ThrowingSession.Lawful.exceptionSafe {ε : Type*} {s : ThrowingSession ε}
    {configuration : RuntimeConfiguration} (hs : s.Lawful configuration) :
    ExceptionSafe configuration s := by
  obtain ⟨log', hh, habsorbed⟩ := hs.history.absorbed
  obtain ⟨hst, htold⟩ := hs.history.tallied
  have horderly := hs.history.orderly
  have hw := hh.within
  have hbudget := hs.budget_eq
  refine ⟨?_, ?_, ?_, ?_, ?_, ?_, hst.symm, htold, ?_, ?_⟩
  · rw [← hbudget]
    exact hw.blocks
  · rw [← hbudget]
    exact hw.instructions
  · intro before st refusal limit answer after hlog
    have hmem : .executeRefusedBlock st refusal limit answer ∈ s.log := by
      rw [hlog]
      exact List.mem_append_right _ (List.mem_cons_self ..)
    obtain ⟨x, before', rfl, hx⟩ := horderly.prev hlog fun h => Bool.noConfusion h.1
    refine ⟨⟨before', by rw [hx.entry _ _ _ _ rfl]⟩, ?_⟩
    obtain ⟨i, hi, hentered⟩ := exists_of_forall₂ habsorbed hmem
    obtain ⟨answer', rfl⟩ : ∃ answer', i = .executeRefusedBlock st refusal limit answer' := by
      cases answer <;> exact ⟨_, hentered⟩
    obtain ⟨gate, rfl⟩ := hh.entered hi
    rw [← hbudget]
    exact ⟨(FallbackLedger.canEnter_eq_none_iff.1 gate).1,
      FallbackLedger.instructionLimit_bounds gate⟩
  · rw [countP_of_forall₂ habsorbed fun x i hx => hx.entersInterpreter,
      countP_of_forall₂ habsorbed fun x i hx => hx.uncharged, hw.entered, hw.events]
  · exact fun mode => hs.history.ofJitMode mode
  · exact fun mode => hs.history.ofDiagnosticMode mode
  · intro before x after e hlog hx
    obtain ⟨y, after', rfl, hy⟩ := horderly.next hlog fun h => by simp [h.1] at hx
    exact ⟨after', by rw [(hy.thrown e).1 hx]⟩
  · intro before e after hlog
    obtain ⟨x, before', rfl, hx⟩ := horderly.prev hlog fun h => by simpa using h.2 _ rfl
    exact ⟨before', x, rfl, (hx.thrown e).2 rfl⟩

/-- **Exceptions leave a session sound.**  Whatever the backend and the sink throw, and
whenever, after any sequence of runs by a caller that catches it all. -/
theorem sessions_exception_safe {ε : Type*} (C : Collaborators ε)
    {configuration : RuntimeConfiguration} {c : ε} {s : ThrowingSession ε}
    (h : ThrowingSession.new configuration c = .ok s) (ns : List UInt64) :
    ExceptionSafe configuration (s.runs C ns).2 :=
  (ThrowingSession.lawful_runs h ns).exceptionSafe

/-- A backend that refuses every block and a sink, which throw at the calls of either that
`calls` numbers. -/
def throwsAt (calls : List ℕ) : Collaborators ℕ where
  executeJitBlock n :=
    (if n ∈ calls then .error (.external "jit")
      else .ok (.refusal ⟨0x80004000, .unsafeInstructionFetch⟩), n + 1)
  executeRefusedBlock refusal _ n :=
    (if n ∈ calls then .error (.external "interpreter") else .ok ⟨refusal.guestPc, 1⟩, n + 1)
  executeDiagnosticInterpreterBlock _ n := (.error (.external "interpreter"), n + 1)
  onJitExecution _ _ n := (if n ∈ calls then .error (.external "sink") else .ok (), n + 1)
  onFallback _ _ _ n := (if n ∈ calls then .error (.external "sink") else .ok (), n + 1)
  onDiagnosticInterpreter _ _ n := (.error (.external "sink"), n + 1)

/-- A sink that throws, an interpreter and a JIT that do, and a budget that is used up. -/
theorem sessions_exception_safe_throwsAt : ∃ s : ThrowingSession ℕ,
    s.log.filterMap Crossing.threw = [.external "sink", .external "interpreter", .external "jit"] ∧
      s.statistics.jitDispatches = 5 ∧ s.statistics.fallbackBlocks = 2 ∧
      ExceptionSafe { fallback := ⟨2, 8, 4⟩ } s := by
  refine ⟨_, ?_, ?_, ?_, sessions_exception_safe (throwsAt [2, 4, 5]) (c := 0) rfl
    [2, 3, 1, 1, 4]⟩ <;> rfl

end Execution
end GcnPort
