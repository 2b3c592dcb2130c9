/-
# The whole stack

What a title builds: an `ExecutionSession` over a `DolphinRuntimeAdapter` over Dolphin's
session, with a `DiagnosticsSink`.  It calls `run`, and at the stopped points between
the runs it installs, removes and arms hooks and invalidates code, in any order, and any
allocation of an install may fail.  `recording` keeps what Dolphin was called for and what
it said, so that the two ends can be compared.

`stack_sound` says that the ends agree, over any Dolphin session that keeps its table,
any sink, and any exceptions of either; and that the entries of the table serve the
installed hooks, as long as no install loses its node.
-/

import GcnPort.Adapter.Backend
import GcnPort.Adapter.EntryCalls
import GcnPort.Execution.ExceptionSafety

namespace GcnPort
namespace Adapter

open Execution Foundation Hooks PowerPC

namespace PowerPC

/-- A call that executes guest code, with what it returned or threw. -/
inductive DolphinCall where
  | executeJitBlock (outcome : Except Exception JitBlockOutcome)
  | executeRefusedBlock (guestPc : GuestAddress) (maximum : UInt32)
      (result : Except Exception InterpretedBlockResult)
  | executeDiagnosticInterpreterBlock (maximum : UInt32)
      (result : Except Exception InterpretedBlockResult)

/-- A block is offered to the JIT. -/
def DolphinCall.offers : DolphinCall → Bool
  | .executeJitBlock _ => true
  | _ => false

/-- The outcome of a block some instructions of which were executed. -/
def DolphinCall.executed? : DolphinCall → Option JitBlockOutcome
  | .executeJitBlock (.ok outcome) =>
    if (outcome.kind = .compiled ∨ outcome.kind = .cacheHit) ∧ outcome.instructionCount ≠ 0 then
      some outcome
    else
      none
  | _ => none

/-- The session `S`, with a record of what it executed. -/
def ExecutingSession.recording {σ : Type*} (S : ExecutingSession σ) :
    ExecutingSession (σ × List DolphinCall) where
  installNativeHook key entry s :=
    ((S.installNativeHook key entry s.1).1, (S.installNativeHook key entry s.1).2, s.2)
  removeNativeHook key s := ((S.removeNativeHook key s.1).1, (S.removeNativeHook key s.1).2, s.2)
  executeOriginalOnce key s :=
    ((S.executeOriginalOnce key s.1).1, (S.executeOriginalOnce key s.1).2, s.2)
  hookTable s := S.hookTable s.1
  executeJitBlock s :=
    let (outcome, session) := S.executeJitBlock s.1
    (outcome, session, s.2 ++ [.executeJitBlock outcome])
  executeRefusedBlock guestPc maximum s :=
    let (result, session) := S.executeRefusedBlock guestPc maximum s.1
    (result, session, s.2 ++ [.executeRefusedBlock guestPc maximum result])
  executeDiagnosticInterpreterBlock maximum s :=
    let (result, session) := S.executeDiagnosticInterpreterBlock maximum s.1
    (result, session, s.2 ++ [.executeDiagnosticInterpreterBlock maximum result])
  invalidateGuestCode address size s := (S.invalidateGuestCode address size s.1, s.2)
  getExecutionIdentity s := S.getExecutionIdentity s.1

end PowerPC

/-- `DiagnosticsSink`: what an object with state `δ` returns or throws. -/
structure DiagnosticsSink (δ : Type) where
  onJitExecution : JitExecution → ExecutionStatistics → δ → Except Exception Unit × δ
  onFallback : JitRefusal → InterpretedBlock → ExecutionStatistics → δ →
    Except Exception Unit × δ
  onDiagnosticInterpreter : InterpretedBlock → ExecutionStatistics → δ →
    Except Exception Unit × δ

variable {σ φ δ : Type}

/-- The adapter and the sink that a session refers to. -/
def collaborators (S : ExecutingSession σ) (D : DiagnosticsSink δ) :
    Collaborators (DolphinRuntimeAdapter σ φ × δ) where
  executeJitBlock c := ((c.1.executeJitBlock S).1, (c.1.executeJitBlock S).2, c.2)
  executeRefusedBlock refusal limit c :=
    ((c.1.executeRefusedBlock S refusal limit).1, (c.1.executeRefusedBlock S refusal limit).2, c.2)
  executeDiagnosticInterpreterBlock limit c :=
    ((c.1.executeDiagnosticInterpreterBlock S limit).1,
      (c.1.executeDiagnosticInterpreterBlock S limit).2, c.2)
  onJitExecution execution st c :=
    ((D.onJitExecution execution st c.2).1, c.1, (D.onJitExecution execution st c.2).2)
  onFallback refusal execution st c :=
    ((D.onFallback refusal execution st c.2).1, c.1, (D.onFallback refusal execution st c.2).2)
  onDiagnosticInterpreter execution st c :=
    ((D.onDiagnosticInterpreter execution st c.2).1, c.1,
      (D.onDiagnosticInterpreter execution st c.2).2)

/-- The session with its adapter and its sink. -/
abbrev Stack (σ φ δ : Type) := ThrowingSession (DolphinRuntimeAdapter σ φ × δ)

/-- What a title does with it. -/
inductive StackCall (φ : Type) where
  | run (maximumDispatches : UInt64)
  | hook (allocations : Allocations) (call : AdapterCall φ)
  | invalidate (address : GuestAddress)

/-- What a title did, with what came back. -/
inductive StackEvent (σ φ : Type) where
  | run (answer : Except Exception RunResult)
  | hook (e : AdapterEvent σ φ)
  | invalidated (address : GuestAddress)

/-- The hook operations in a history. -/
def StackEvent.hook? : StackEvent σ φ → Option (AdapterEvent σ φ)
  | .hook e => some e
  | .run _ | .invalidated _ => none

/-- The hook operations of a history. -/
def hookLog (events : List (StackEvent σ φ)) : List (AdapterEvent σ φ) :=
  events.filterMap StackEvent.hook?

/-- The hook operations after one more event. -/
theorem hookLog_concat (events : List (StackEvent σ φ)) (e : StackEvent σ φ) :
    hookLog (events ++ [e]) = hookLog events ++ e.hook?.toList := by
  cases e <;> simp [hookLog, StackEvent.hook?]

namespace Stack

/-- The stack with another state of the adapter. -/
def setAdapter (s : Stack σ φ δ) (adapter : DolphinRuntimeAdapter σ φ) : Stack σ φ δ :=
  { s with collaborators := (adapter, s.collaborators.2) }

/-- One operation. -/
def step (S : ExecutingSession σ) (D : DiagnosticsSink δ) (A : Allocator φ)
    (call : StackCall φ) (s : Stack σ φ δ) : StackEvent σ φ × Stack σ φ δ :=
  match call with
  | .run maximumDispatches =>
    let (answer, s) := s.run (collaborators S D) maximumDispatches
    (.run answer, s)
  | .hook allocations call =>
    let (e, adapter) := s.collaborators.1.stepAllocating S.toRuntimeSession A (allocations, call)
    (.hook e, s.setAdapter adapter)
  | .invalidate address =>
    (.invalidated address, s.setAdapter (s.collaborators.1.invalidateInstruction S address))

end Stack

/-- A call that executes guest code, as the session makes it. -/
inductive BackendCall where
  | executeJitBlock (answer : Except Exception JitStep)
  | executeRefusedBlock (guestPc : GuestAddress) (maximum : UInt32)
      (answer : Except Exception InterpretedBlock)
  | executeDiagnosticInterpreterBlock (maximum : UInt32)
      (answer : Except Exception InterpretedBlock)

/-- The call of the backend in a crossing. -/
def backendCall : Crossing → Option BackendCall
  | .executeJitBlock _ answer => some (.executeJitBlock answer)
  | .executeRefusedBlock _ refusal limit answer =>
    some (.executeRefusedBlock refusal.guestPc limit answer)
  | .executeDiagnosticInterpreterBlock _ limit answer =>
    some (.executeDiagnosticInterpreterBlock limit answer)
  | _ => none

/-- A call of Dolphin, as the session sees it. -/
def seen : DolphinCall → BackendCall
  | .executeJitBlock outcome => .executeJitBlock (outcome.map jitStep)
  | .executeRefusedBlock guestPc maximum result =>
    .executeRefusedBlock guestPc maximum (result.map interpretedBlock)
  | .executeDiagnosticInterpreterBlock maximum result =>
    .executeDiagnosticInterpreterBlock maximum (result.map interpretedBlock)

/-- A block is offered in a call. -/
def BackendCall.offers : BackendCall → Bool
  | .executeJitBlock _ => true
  | _ => false

/-- The execution of some instructions in a call. -/
def BackendCall.executed? : BackendCall → Option JitExecution
  | .executeJitBlock (.ok (.execution execution)) =>
    if execution.instructionCount = 0 then none else some execution
  | _ => none

/-- An outcome, as the session sees it. -/
def seenExecution (outcome : JitBlockOutcome) : JitExecution :=
  ⟨outcome.guestPc, outcome.instructionCount, outcome.kind = .compiled⟩

section

variable {S : ExecutingSession σ} {D : DiagnosticsSink δ} {A : Allocator φ}

/-- To keep a record does not change what Dolphin promises of its table. -/
theorem recording_contract (hS : S.Contract) : S.recording.Contract where
  install_threw key entry s e s' h := by
    obtain ⟨he, rfl⟩ := Prod.mk.inj h
    exact hS.install_threw key entry s.1 e _ (Prod.ext he rfl)
  install_set key entry s s' h := by
    obtain ⟨he, rfl⟩ := Prod.mk.inj h
    exact hS.install_set key entry s.1 _ (Prod.ext he rfl)
  remove_table key s := hS.remove_table key s.1
  remove_answer key s := hS.remove_answer key s.1
  execute_table key s := hS.execute_table key s.1

/-- A settled adapter stays settled while the table does not change. -/
theorem Settled.congr {R : RuntimeSession σ} {m : Hooks.HookKey → Option (NativeHook φ)}
    {s : DolphinRuntimeAdapter σ φ} (h : Settled R m s) {session : σ}
    (htable : R.hookTable session = R.hookTable s.session) :
    Settled R m { s with session } := by
  refine ⟨?_, fun key entry hentry => h.function key entry (by rwa [← htable])⟩
  rw [lent_congr htable]
  exact h.owns

/-- The adapter executed nothing but what the crossing says, and kept its hooks. -/
structure Executed (S : ExecutingSession σ) (x : Crossing)
    (c c' : DolphinRuntimeAdapter (σ × List DolphinCall) φ) : Prop where
  calls : c'.session.2.map seen = c.session.2.map seen ++ (backendCall x).toList
  hooks : ∃ session, c' = { c with session } ∧
    S.recording.hookTable session = S.recording.hookTable c.session

/-- Every crossing executes what it says and keeps the hooks. -/
theorem executed_of_answers (hS : S.KeepsTable) {x : Crossing}
    {c c' : DolphinRuntimeAdapter (σ × List DolphinCall) φ × δ}
    (h : (collaborators S.recording D).Answers x c c') : Executed S x c.1 c'.1 := by
  obtain ⟨⟨⟨session, calls⟩, bindings, heap⟩, sink⟩ := c
  cases x with
  | executeJitBlock st answer =>
    obtain ⟨rfl, rfl⟩ := Prod.mk.inj h
    exact ⟨List.map_append, _, rfl, hS.executeJitBlock session⟩
  | executeRefusedBlock st refusal limit answer =>
    obtain ⟨rfl, rfl⟩ := Prod.mk.inj h
    exact ⟨List.map_append, _, rfl, hS.executeRefusedBlock refusal.guestPc limit session⟩
  | executeDiagnosticInterpreterBlock st limit answer =>
    obtain ⟨rfl, rfl⟩ := Prod.mk.inj h
    exact ⟨List.map_append, _, rfl, hS.executeDiagnosticInterpreterBlock limit session⟩
  | onJitExecution execution st answer =>
    obtain ⟨-, rfl⟩ := Prod.mk.inj h
    exact ⟨(List.append_nil _).symm, _, rfl, rfl⟩
  | onFallback refusal execution st answer =>
    obtain ⟨-, rfl⟩ := Prod.mk.inj h
    exact ⟨(List.append_nil _).symm, _, rfl, rfl⟩
  | onDiagnosticInterpreter execution st answer =>
    obtain ⟨-, rfl⟩ := Prod.mk.inj h
    exact ⟨(List.append_nil _).symm, _, rfl, rfl⟩
  | runEnded answer =>
    obtain rfl := h
    exact ⟨(List.append_nil _).symm, _, rfl, rfl⟩

/-- What every history of a stack keeps. -/
structure StackInvariant (configuration : RuntimeConfiguration)
    (s : Stack (σ × List DolphinCall) φ δ) : Prop where
  lawful : s.Lawful configuration
  calls : s.collaborators.1.session.2.map seen = s.log.filterMap backendCall

/-- What the collaborators do goes into the record. -/
theorem calls_of_plays (hS : S.KeepsTable)
    {c c' : DolphinRuntimeAdapter (σ × List DolphinCall) φ × δ} {log xs : List Crossing}
    (h : (collaborators S.recording D).Plays c xs c')
    (hcalls : c.1.session.2.map seen = log.filterMap backendCall) :
    c'.1.session.2.map seen = (log ++ xs).filterMap backendCall := by
  refine h.preserves (I := fun c log => c.1.session.2.map seen = log.filterMap backendCall)
    (fun x c c' log hx hcalls => ?_) hcalls
  rw [(executed_of_answers hS hx).calls, hcalls, List.filterMap_append]
  rfl

/-- What the collaborators do keeps the hooks. -/
theorem settled_of_plays (hS : S.KeepsTable) {m : Hooks.HookKey → Option (NativeHook φ)}
    {c c' : DolphinRuntimeAdapter (σ × List DolphinCall) φ × δ} {xs : List Crossing}
    (h : (collaborators S.recording D).Plays c xs c')
    (hsettled : Settled S.recording.toRuntimeSession m c.1) :
    Settled S.recording.toRuntimeSession m c'.1 := by
  induction h with
  | nil c => exact hsettled
  | cons hx _ ih =>
    obtain ⟨session, hc', htable⟩ := (executed_of_answers hS hx).hooks
    refine ih ?_
    rw [hc']
    exact hsettled.congr htable

/-- The hook operations execute nothing. -/
theorem calls_stepAllocating (S : ExecutingSession σ) (A : Allocator φ)
    (call : Allocations × AdapterCall φ) (s : DolphinRuntimeAdapter (σ × List DolphinCall) φ) :
    (s.stepAllocating S.recording.toRuntimeSession A call).2.session.2 = s.session.2 := by
  obtain ⟨⟨binding, node⟩, call⟩ := call
  cases call with
  | installHook key hook =>
    cases binding with
    | false => rfl
    | true =>
      rcases hi : S.recording.installNativeHook (toDolphin key) ⟨A.next s.heap, .bindingInvoke⟩
        s.session with ⟨e | ⟨⟩, session⟩
      · have hsession := congrArg (fun r => r.2.2) hi
        simp only [DolphinRuntimeAdapter.stepAllocating, DolphinRuntimeAdapter.installHook, hi]
        exact hsession.symm
      · have hsession := congrArg (fun r => r.2.2) hi
        simp only [DolphinRuntimeAdapter.stepAllocating, DolphinRuntimeAdapter.installHook, hi]
        cases hb : s.bindings[key]? <;> cases node <;> exact hsession.symm
  | removeHook key =>
    cases hb : s.bindings[key]? <;>
      simp only [DolphinRuntimeAdapter.stepAllocating, DolphinRuntimeAdapter.step,
        DolphinRuntimeAdapter.removeHook, hb] <;> rfl
  | armOriginalCall key => rfl

/-- **The step lemma of the stack.** -/
theorem StackInvariant.step (hkeeps : S.KeepsTable) (A : Allocator φ)
    {configuration : RuntimeConfiguration} {s : Stack (σ × List DolphinCall) φ δ}
    (h : StackInvariant configuration s) (call : StackCall φ) :
    StackInvariant configuration (Stack.step S.recording D A call s).2 := by
  obtain ⟨hlawful, hcalls⟩ := h
  cases call with
  | run n =>
    obtain ⟨entries, hx⟩ := ThrowingSession.extends_run (collaborators S.recording D) n s
    have hcalls := calls_of_plays hkeeps hx.plays hcalls
    rw [← hx.log] at hcalls
    exact ⟨hlawful.run n, hcalls⟩
  | hook allocations call =>
    refine ⟨⟨hlawful.configuration_eq, hlawful.history⟩, ?_⟩
    have hrecord := calls_stepAllocating S A (allocations, call) s.collaborators.1
    simp only [Stack.step, Stack.setAdapter, hrecord, hcalls]
  | invalidate address => exact ⟨⟨hlawful.configuration_eq, hlawful.history⟩, hcalls⟩

/-- A new stack keeps the invariant. -/
theorem StackInvariant.start {configuration : RuntimeConfiguration} {session : σ} {sink : δ}
    {s : Stack (σ × List DolphinCall) φ δ}
    (h : ThrowingSession.new configuration (.new (session, []), sink) = .ok s) :
    StackInvariant configuration s := by
  obtain ⟨hlog, -, hcollaborators, -⟩ := ThrowingSession.start_of_new h
  exact ⟨ThrowingSession.lawful_of_new h, by rw [hlog, hcollaborators]; rfl⟩

/-- The call, an install at least, loses no node. -/
def StackCall.KeepsNode (S : ExecutingSession σ) (A : Allocator φ) (call : StackCall φ)
    (s : Stack σ φ δ) : Prop :=
  ∀ allocations key hook, call = .hook allocations (.installHook key hook) →
    ¬LosesNode S.toRuntimeSession A allocations key s.collaborators.1

/-- **A step of the stack keeps the adapter settled**, with the hooks it has accepted. -/
theorem settled_stackStep (hS : S.Contract) (hkeeps : S.KeepsTable)
    {events : List (StackEvent (σ × List DolphinCall) φ)}
    {s : Stack (σ × List DolphinCall) φ δ} {call : StackCall φ}
    (hnode : call.KeepsNode S.recording A s)
    (h : Settled S.recording.toRuntimeSession (installedBy (hookLog events)) s.collaborators.1) :
    Settled S.recording.toRuntimeSession
      (installedBy (hookLog (events ++ [(Stack.step S.recording D A call s).1])))
      (Stack.step S.recording D A call s).2.collaborators.1 := by
  rw [hookLog_concat]
  cases call with
  | run n =>
    obtain ⟨entries, hx⟩ := ThrowingSession.extends_run (collaborators S.recording D) n s
    rw [Stack.step, StackEvent.hook?, Option.toList_none, List.append_nil]
    exact settled_of_plays hkeeps hx.plays h
  | hook allocations call =>
    have hkept : KeepsNode S.recording.toRuntimeSession A (allocations, call)
        s.collaborators.1 :=
      fun key hook hcall => hnode allocations key hook (congrArg _ hcall)
    have hstep := h.stepAllocating (recording_contract hS) hkept
    rwa [← installedBy_concat] at hstep
  | invalidate address =>
    rw [Stack.step, StackEvent.hook?, Option.toList_none, List.append_nil]
    exact h.congr (hkeeps.invalidateGuestCode address 4 _)

/-- The crossing in which a call of Dolphin was made. -/
theorem exists_crossing {calls : List DolphinCall} {log : List Crossing}
    (h : calls.map seen = log.filterMap backendCall) {before after : List DolphinCall}
    {call : DolphinCall} (hcalls : calls = before ++ call :: after) :
    ∃ before' x after', log = before' ++ x :: after' ∧ backendCall x = some (seen call) ∧
      before.map seen = before'.filterMap backendCall := by
  rw [hcalls, List.map_append, List.map_cons, List.append_eq_filterMap_iff] at h
  obtain ⟨before', rest, rfl, hbefore, hrest⟩ := h
  obtain ⟨skipped, x, after', rfl, hskipped, hx, -⟩ := List.filterMap_eq_cons_iff.1 hrest
  refine ⟨before' ++ skipped, x, after', by rw [List.append_assoc], hx, ?_⟩
  rw [List.filterMap_append, hbefore, List.filterMap_eq_nil_iff.2 hskipped, List.append_nil]

/-- What the session is told of an offered block is what Dolphin said of it. -/
theorem seen_eq_executeJitBlock_iff {call : DolphinCall} {step : JitStep} :
    seen call = .executeJitBlock (.ok step) ↔
      ∃ outcome, call = .executeJitBlock (.ok outcome) ∧ jitStep outcome = step := by
  match call with
  | .executeJitBlock (.ok outcome) => simp [seen, Except.map]
  | .executeJitBlock (.error e) => simp [seen, Except.map]
  | .executeRefusedBlock _ _ _ => simp [seen]
  | .executeDiagnosticInterpreterBlock _ _ => simp [seen]

/-- What the session was told of an offered block, Dolphin said. -/
theorem exists_outcome {calls : List DolphinCall} {log : List Crossing}
    (h : calls.map seen = log.filterMap backendCall) {st : ExecutionStatistics} {step : JitStep}
    (hx : .executeJitBlock st (.ok step) ∈ log) :
    ∃ outcome, .executeJitBlock (.ok outcome) ∈ calls ∧ jitStep outcome = step := by
  have hmem : .executeJitBlock (.ok step) ∈ calls.map seen := by
    rw [h]
    exact List.mem_filterMap.2 ⟨_, hx, rfl⟩
  obtain ⟨call, hcall, hseen⟩ := List.mem_map.1 hmem
  obtain ⟨outcome, rfl, hstep⟩ := seen_eq_executeJitBlock_iff.1 hseen
  exact ⟨outcome, hcall, hstep⟩

/-- What Dolphin said of the last block, the session was told. -/
theorem exists_last_outcome {before : List DolphinCall} {log : List Crossing}
    {st : ExecutionStatistics} {step : JitStep}
    (h : before.map seen =
      (log ++ [Crossing.executeJitBlock st (.ok step)]).filterMap backendCall) :
    ∃ before' outcome, before = before' ++ [.executeJitBlock (.ok outcome)] ∧
      jitStep outcome = step := by
  rw [List.filterMap_append] at h
  obtain ⟨before', last, rfl, -, hlast⟩ := List.map_eq_append_iff.1 h
  obtain ⟨call, rfl, hseen⟩ := List.map_eq_singleton_iff.1 hlast
  obtain ⟨outcome, rfl, hstep⟩ := seen_eq_executeJitBlock_iff.1 hseen
  exact ⟨before', outcome, rfl, hstep⟩

/-- The execution that the session sees in a call is the one Dolphin reported there. -/
theorem executed_seen (call : DolphinCall) :
    (seen call).executed? = call.executed?.map seenExecution := by
  match call with
  | .executeJitBlock (.ok outcome) =>
    cases hkind : outcome.kind <;>
      simp [seen, Except.map, jitStep, BackendCall.executed?, DolphinCall.executed?, hkind]
    all_goals split_ifs <;> simp [seenExecution, hkind]
  | .executeJitBlock (.error e) => rfl
  | .executeRefusedBlock _ _ _ => rfl
  | .executeDiagnosticInterpreterBlock _ _ => rfl

/-- The execution in a crossing is the one in its call. -/
theorem executed_backendCall (x : Crossing) :
    (backendCall x).bind BackendCall.executed? = x.executed? := by
  match x with
  | .executeJitBlock _ (.ok (.execution execution)) => rfl
  | .executeJitBlock _ (.ok (.refusal _)) | .executeJitBlock _ (.ok (.exit _))
  | .executeJitBlock _ (.ok (.fault _)) | .executeJitBlock _ (.error _)
  | .executeRefusedBlock .. | .executeDiagnosticInterpreterBlock .. | .onJitExecution ..
  | .onFallback .. | .onDiagnosticInterpreter .. | .runEnded _ => rfl

/-- The executions that the session counts are those of Dolphin. -/
theorem executed_of_seen {calls : List DolphinCall} {log : List Crossing}
    (h : calls.map seen = log.filterMap backendCall) : log.filterMap Crossing.executed? =
      (calls.filterMap DolphinCall.executed?).map seenExecution := by
  rw [List.map_filterMap, ← funext executed_backendCall, ← List.filterMap_filterMap, ← h,
    List.filterMap_map]
  exact List.filterMap_congr fun call _ => executed_seen call

/-- The blocks that the session counts as offered are those offered to Dolphin. -/
theorem countP_offers_of_seen {calls : List DolphinCall} {log : List Crossing}
    (h : calls.map seen = log.filterMap backendCall) :
    log.countP Crossing.offers = calls.countP DolphinCall.offers := by
  have hlog : log.countP Crossing.offers =
      (log.filterMap backendCall).countP BackendCall.offers := by
    rw [List.countP_filterMap]
    refine List.countP_congr fun x _ => ?_
    cases x <;> simp [Crossing.offers, backendCall, BackendCall.offers]
  rw [hlog, ← h, List.countP_map]
  refine List.countP_congr fun call _ => ?_
  cases call <;> simp [DolphinCall.offers, seen, BackendCall.offers]

end

/-- What a history of a stack guarantees of its two ends. -/
structure StackSound (configuration : RuntimeConfiguration)
    (s : Stack (σ × List DolphinCall) φ δ) (calls : List DolphinCall) : Prop where
  /-- The session is sound whatever was thrown. -/
  safe : ExceptionSafe configuration s
  /-- It made the calls that Dolphin got, and was told what Dolphin said. -/
  seen : calls.map Adapter.seen = s.log.filterMap backendCall
  /-- Dolphin is made to interpret a block only right after it refused that very block, for
  a reason that has a name and within the limit of the configuration. -/
  refused : ∀ before guestPc maximum result after,
    calls = before ++ .executeRefusedBlock guestPc maximum result :: after →
      (∃ before' outcome, before = before' ++ [.executeJitBlock (.ok outcome)] ∧
        outcome.kind = .refused ∧ outcome.guestPc = guestPc ∧
        outcome.refusalReason.byte.toNat < kJitRefusalReasonCount) ∧
      1 ≤ maximum ∧ maximum ≤ configuration.fallback.maximumInstructionsPerBlock
  /-- The diagnostic interpreter is for the diagnostic mode, which calls nothing else. -/
  jitMode : configuration.mode = .jit → ∀ maximum result,
    .executeDiagnosticInterpreterBlock maximum result ∉ calls
  diagnosticMode : configuration.mode = .diagnosticInterpreter → ∀ call ∈ calls, ∃ result,
    call = .executeDiagnosticInterpreterBlock configuration.diagnosticInstructionsPerDispatch
      result
  /-- The JIT counters count what Dolphin said. -/
  dispatches : s.statistics.jitDispatches = .ofNat (calls.countP DolphinCall.offers)
  executed : s.statistics.jitBlocksExecuted =
    .ofNat (calls.filterMap DolphinCall.executed?).length
  compiled : s.statistics.jitBlocksCompiled =
    .ofNat ((calls.filterMap DolphinCall.executed?).countP fun o => o.kind = .compiled)
  instructions : s.statistics.jitInstructionsExecuted =
    .ofNat ((calls.filterMap DolphinCall.executed?).map fun o => o.instructionCount.toNat).sum
  /-- A run that reports a fault ends right after Dolphin reported it, or said something of
  no known kind, and has the address and the text. -/
  faulted : ∀ before r after, s.log = before ++ .runEnded (.ok r) :: after →
    r.reason = .backendFault → ∃ before' outcome,
      before = before' ++ [.executeJitBlock r.statistics (.ok (jitStep outcome))] ∧
      .executeJitBlock (.ok outcome) ∈ calls ∧ outcome.guestPc = r.guestPc ∧
      ((outcome.kind = .backendFault ∧ outcome.detail = r.detail) ∨
        ((∃ value, outcome.kind = .other value) ∧
          r.detail = "Dolphin reported an unknown JitBlockKind"))
  /-- No run ends because a backend exits. -/
  exits : ∀ r, .runEnded (.ok r) ∈ s.log → r.reason ≠ .backendExit

section

variable {S : ExecutingSession σ} {configuration : RuntimeConfiguration}
  {s : Stack (σ × List DolphinCall) φ δ}

/-- What the invariant says of the two ends. -/
theorem StackInvariant.sound (h : StackInvariant configuration s) :
    StackSound configuration s s.collaborators.1.session.2 := by
  obtain ⟨hlawful, hseen⟩ := h
  have hsafe := hlawful.exceptionSafe
  have horderly := hlawful.history.orderly
  obtain ⟨hdispatches, hexecuted, hcompiled, hinstructions⟩ := hlawful.history.jitCounters
  have hexecutions := executed_of_seen hseen
  have hoffers := countP_offers_of_seen hseen
  have hcalls : ∀ call ∈ s.collaborators.1.session.2,
      ∃ x ∈ s.log, backendCall x = some (seen call) := by
    intro call hmem
    rw [← List.mem_filterMap, ← hseen]
    exact List.mem_map_of_mem hmem
  refine ⟨hsafe, hseen, ?_, ?_, ?_, ?_, ?_, ?_, ?_, ?_, ?_⟩
  · intro before guestPc maximum result after hcalls
    obtain ⟨before', x, after', hlog, hx, hbefore⟩ := exists_crossing hseen hcalls
    match x with
    | .executeRefusedBlock st refusal limit answer =>
      obtain ⟨rfl, rfl, -⟩ := BackendCall.executeRefusedBlock.inj (Option.some.inj hx)
      obtain ⟨⟨first, rfl⟩, hreason, hone, hlimit, -⟩ := hsafe.entry _ _ _ _ _ _ hlog
      refine ⟨?_, hone, hlimit⟩
      obtain ⟨before', outcome, rfl, hstep⟩ := exists_last_outcome hbefore
      obtain ⟨hkind, hpc, hrefusal⟩ := jitStep_eq_refusal_iff.1 hstep
      exact ⟨before', outcome, rfl, hkind, hpc, by rw [hrefusal]; exact hreason⟩
  · intro hmode maximum result hmem
    obtain ⟨x, hx, hcall⟩ := hcalls _ hmem
    match x with
    | .executeDiagnosticInterpreterBlock .. => exact hsafe.jitMode hmode _ hx
  · intro hmode call hmem
    obtain ⟨x, hx, hcall⟩ := hcalls call hmem
    match x with
    | .executeDiagnosticInterpreterBlock st limit answer =>
      obtain rfl : limit = _ := hsafe.diagnosticMode hmode _ hx
      match call with
      | .executeDiagnosticInterpreterBlock maximum result =>
        obtain ⟨rfl, -⟩ := BackendCall.executeDiagnosticInterpreterBlock.inj
          (Option.some.inj hcall)
        exact ⟨result, rfl⟩
    | .executeJitBlock .. | .executeRefusedBlock .. =>
      exact (hsafe.diagnosticMode hmode _ hx).elim
  · rw [hdispatches, hoffers]
  · rw [hexecuted, hexecutions, List.length_map]
  · rw [hcompiled, hexecutions, List.countP_map]
    rfl
  · rw [hinstructions, hexecutions, List.map_map]
    rfl
  · intro before r after hlog hr
    obtain ⟨x, before', rfl, hx⟩ := horderly.prev hlog fun h =>
      absurd (h.reason_eq.symm.trans hr) (by decide)
    obtain rfl := hx.faulted r rfl hr
    have hmem : .executeJitBlock r.statistics (.ok (.fault ⟨r.guestPc, r.detail⟩)) ∈ s.log := by
      rw [hlog]
      simp
    obtain ⟨outcome, hmem, hstep⟩ := exists_outcome hseen hmem
    obtain ⟨hpc, hkind⟩ := jitStep_eq_fault_iff.1 hstep
    exact ⟨before', outcome, by rw [hstep], hmem, hpc, hkind⟩
  · intro r hmem hr
    obtain ⟨before, after, hlog⟩ := List.append_of_mem hmem
    obtain ⟨x, before', rfl, hx⟩ := horderly.prev hlog fun h =>
      absurd (h.reason_eq.symm.trans hr) (by decide)
    obtain ⟨exit, rfl⟩ := hx.exited r rfl hr
    have hmem : .executeJitBlock r.statistics (.ok (.exit exit)) ∈ s.log := by
      rw [hlog]
      simp
    obtain ⟨outcome, -, hstep⟩ := exists_outcome hseen hmem
    exact jitStep_ne_exit exit hstep

/-- **The two ends of the stack agree**, after any history of runs, hook operations and
invalidations, whatever is thrown and whichever allocations fail; and if no install has
lost its node, a call through the entry for a key runs the hook last accepted there. -/
theorem stack_sound (hS : S.Contract) (hkeeps : S.KeepsTable) (D : DiagnosticsSink δ)
    (A : Allocator φ) (session : σ) (sink : δ) (hempty : ∀ key, S.hookTable session key = none)
    (h : ThrowingSession.new configuration (.new (session, []), sink) = .ok s)
    (calls : List (StackCall φ)) :
    StackSound configuration (runAll (Stack.step S.recording D A) calls s).2
        (runAll (Stack.step S.recording D A) calls s).2.collaborators.1.session.2 ∧
      ((∀ before call after, calls = before ++ call :: after →
          call.KeepsNode S.recording A (runAll (Stack.step S.recording D A) before s).2) →
        Serves S.recording.toRuntimeSession
          (runAll (Stack.step S.recording D A) calls s).2.collaborators.1
          (installedBy (hookLog (runAll (Stack.step S.recording D A) calls s).1))) := by
  have hinvariant : StackInvariant configuration (runAll (Stack.step S.recording D A) calls s).2 :=
    runAll_preserves (fun call _ h => h.step hkeeps A call) calls (.start h)
  refine ⟨hinvariant.sound, fun hnode => ?_⟩
  have hsettled := runAll_preserves_guarded
    (I := fun events s => Settled S.recording.toRuntimeSession (installedBy (hookLog events))
      s.collaborators.1) (P := StackCall.KeepsNode S.recording A)
    (fun call _ _ hnode h => settled_stackStep hS hkeeps hnode h) calls hnode ?_
  · intro _ _ _ E behaviour key m
    exact hsettled.follows.serves E behaviour key m
  · obtain ⟨-, -, hcollaborators, -⟩ := ThrowingSession.start_of_new h
    rw [hcollaborators]
    have hnew : ∀ key, S.recording.hookTable (session, []) key = none := hempty
    exact (settled_runCalls (recording_contract hS) A [] hnew).2

end

/-- A Dolphin that refuses the block at the address of `ownKey` and interprets it, until
there is a hook. -/
def refusesUnhooked : ExecutingSession (PowerPC.HookKey → Option NativeHookBinding) where
  toRuntimeSession := ownTable
  executeJitBlock table :=
    (.ok ⟨if (table (toDolphin ownKey)).isSome then .compiled else .refused, ownKey.address, 3,
      ⟨1⟩, ""⟩, table)
  executeRefusedBlock guestPc _ table := (.ok ⟨guestPc, 1⟩, table)
  executeDiagnosticInterpreterBlock _ table := (.ok ⟨ownKey.address, 1⟩, table)
  invalidateGuestCode _ _ table := table
  getExecutionIdentity _ := identityToDolphin ownKey.identity

/-- A sink that throws at the second event. -/
def throwsAtSecond : DiagnosticsSink ℕ where
  onJitExecution _ _ n := (if n = 1 then .error (.external "sink") else .ok (), n + 1)
  onFallback _ _ _ n := (if n = 1 then .error (.external "sink") else .ok (), n + 1)
  onDiagnosticInterpreter _ _ n := (if n = 1 then .error (.external "sink") else .ok (), n + 1)

/-- A block that is interpreted, hooked, compiled twice with an exception between, and
refused again.  The hook is the one that is served until it is removed; an install whose
`Binding` is not allocated changes nothing. -/
theorem stack_sound_refusesUnhooked :
    ∃ (events : List (StackEvent ((PowerPC.HookKey → Option NativeHookBinding) ×
        List DolphinCall) ℕ)) (s : Stack _ ℕ ℕ) (calls : List DolphinCall),
      s.statistics.jitDispatches = 4 ∧ s.statistics.jitBlocksCompiled = 2 ∧
        s.statistics.fallbackBlocks = 1 ∧ calls.length = 5 ∧
        StackSound { fallback := ⟨1, 4, 4⟩ } s calls ∧
        Serves refusesUnhooked.recording.toRuntimeSession s.collaborators.1
          (installedBy (hookLog events)) := by
  refine ⟨_, _, _, ?_, ?_, ?_, ?_, And.imp_right (fun hserves => hserves ?_)
    (stack_sound (tableSession_contract _)
      ⟨fun _ => rfl, fun _ _ _ => rfl, fun _ _ => rfl, fun _ _ _ => rfl⟩ throwsAtSecond
      (bumpAllocator ℕ) (fun _ => none) 0 (fun _ => rfl) rfl
      [.run 1, .hook {} (.installHook ownKey (some 0)), .run 2, .run 1, .invalidate 0x80003100,
        .hook ⟨false, true⟩ (.installHook ownKey (some 1)), .hook {} (.removeHook ownKey), .run 1])⟩
  · decide +kernel
  · decide +kernel
  · decide +kernel
  · decide +kernel
  · rintro before _ after hcalls allocations key hook rfl hnode
    have hmem : StackCall.hook allocations (.installHook key hook) ∈
        before ++ .hook allocations (.installHook key hook) :: after := by simp
    rw [← hcalls] at hmem
    simp only [List.mem_cons, reduceCtorEq, StackCall.hook.injEq, AdapterCall.installHook.injEq,
      List.not_mem_nil, and_false, or_false, false_or] at hmem
    rcases hmem with ⟨rfl, -⟩ | ⟨rfl, -⟩
    · cases hnode.node
    · cases hnode.binding

end Adapter
end GcnPort
