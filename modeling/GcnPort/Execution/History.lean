/-
# What a session can have done

`History` is the abstract session: a system whose states are statistics and a
log, and whose steps are dispatches that go on, dispatches that end their run,
and runs that use up their budget.  It knows no backend.  A dispatch and a run
lead from a session that is in such a state to one that is (`Lawful.dispatch`,
`Lawful.run`), so what holds of every `History` holds after any sequence of
`run` calls on any backend (`Reachable.lawful`).
-/

import GcnPort.Execution.Dispatch

namespace GcnPort
namespace Execution

open Foundation

/-- The abstract session: the statistics and logs that dispatches and returns
of `run` can lead to under a configuration, from any backend. -/
inductive History (configuration : RuntimeConfiguration) (ledger : FallbackLedger) :
    ExecutionStatistics → List Interaction → Prop
  | start : History configuration ledger {} []
  | dispatched {st st' : ExecutionStatistics} {log entries : List Interaction}
      (h : History configuration ledger st log)
      (hd : Dispatch configuration ledger st entries none st') :
      History configuration ledger st' (log ++ entries)
  | stopped {st st' : ExecutionStatistics} {log entries : List Interaction} {r : RunResult}
      (h : History configuration ledger st log)
      (hd : Dispatch configuration ledger st entries (some r) st') :
      History configuration ledger st' (log ++ entries ++ [.runReturned r])
  | exhausted {st : ExecutionStatistics} {log : List Interaction} (detail : String)
      (h : History configuration ledger st log) :
      History configuration ledger st
        (log ++ [.runReturned ⟨.dispatchBudgetExhausted, 0, detail, st⟩])

namespace Session

variable {β : Type*} {B : RuntimeBackend β} {s s' : Session β}

/-- The session is in a state of the abstract session, and every call in its
log was answered by `B`. -/
structure Lawful (B : RuntimeBackend β) (s : Session β) : Prop where
  history : History s.configuration s.fallbackLedger s.statistics s.log
  answers : ∀ i ∈ s.log, B.Answers i

/-- A new session is lawful. -/
theorem lawful_of_new {configuration : RuntimeConfiguration} {b : β}
    (h : new configuration b = .ok s) : s.Lawful B := by
  unfold new at h
  split at h
  · cases h
  · split_ifs at h
    obtain rfl := Except.ok.inj h
    exact ⟨.start, fun _ hi => absurd hi List.not_mem_nil⟩

/-- A new session keeps the configuration it is given. -/
theorem configuration_of_new {configuration : RuntimeConfiguration} {b : β}
    (h : new configuration b = .ok s) : s.configuration = configuration := by
  unfold new at h
  split at h
  · cases h
  · split_ifs at h
    obtain rfl := Except.ok.inj h
    rfl

/-- What a new session starts from. -/
theorem start_of_new {configuration : RuntimeConfiguration} {b : β}
    (h : new configuration b = .ok s) : s.log = [] ∧ s.statistics = {} ∧ s.backend = b := by
  unfold new at h
  split at h
  · cases h
  · split_ifs at h
    obtain rfl := Except.ok.inj h
    exact ⟨rfl, rfl, rfl⟩

/-- A dispatch that goes on leads from a lawful session to a lawful one. -/
theorem Lawful.dispatch (h : s.Lawful B) (hd : s.dispatch B = (none, s')) : s'.Lawful B := by
  obtain ⟨entries, hx, hdisp, ha⟩ := dispatch_spec B s
  rw [hd] at hx hdisp
  refine ⟨?_, fun i hi => ?_⟩
  · rw [hx.configuration, hx.fallbackLedger, hx.log]
    exact h.history.dispatched hdisp
  · rw [hx.log, List.mem_append] at hi
    exact hi.elim (h.answers i) (ha i)

/-- **The code refines the abstract session**: a run leads from a lawful
session to a lawful one. -/
theorem Lawful.run (h : s.Lawful B) (n : UInt64) : (s.run B n).2.Lawful B := by
  rcases run_cases B n s with ⟨s', hc, hr⟩ | ⟨k, -, s', r, s'', hc, hd, hr⟩ <;> rw [hr]
  · have h' : s'.Lawful B := hc.preserves (fun _ _ h hd => h.dispatch hd) h
    refine ⟨h'.history.exhausted _, fun i hi => ?_⟩
    rcases List.mem_append.1 hi with hi | hi
    · exact h'.answers i hi
    · rw [List.mem_singleton.1 hi]
      trivial
  · have h' : s'.Lawful B := hc.preserves (fun _ _ h hd => h.dispatch hd) h
    obtain ⟨entries, hx, hdisp, ha⟩ := dispatch_spec B s'
    rw [hd] at hx hdisp
    refine ⟨?_, fun i hi => ?_⟩
    · have := h'.history.stopped hdisp
      rw [← hx.log, ← hx.configuration, ← hx.fallbackLedger] at this
      exact this
    · change i ∈ s''.log ++ [.runReturned r] at hi
      rw [hx.log, List.append_assoc] at hi
      rcases List.mem_append.1 hi with hi | hi
      · exact h'.answers i hi
      · rcases List.mem_append.1 hi with hi | hi
        · exact ha i hi
        · rw [List.mem_singleton.1 hi]
          trivial

/-- A state reached from a session the constructor accepts, by any sequence of
`run` calls and any number of dispatches of a run that is still going on. -/
def Reachable (B : RuntimeBackend β) (configuration : RuntimeConfiguration)
    (s : Session β) : Prop :=
  ∃ b s₀ ns k, new configuration b = .ok s₀ ∧ Continues (Session.dispatch B) k (s₀.runs B ns).2 s

/-- One more dispatch extends the log further. -/
theorem Extends.dispatch {entries : List Interaction} {s'' : Session β} {r : Option RunResult}
    (h : s.Extends s' entries) (hd : s'.dispatch B = (r, s'')) :
    ∃ entries', s.Extends s'' (entries ++ entries') := by
  obtain ⟨entries', hx, -, -⟩ := dispatch_spec B s'
  rw [hd] at hx
  exact ⟨entries', h.trans hx⟩

/-- Dispatches only add to the log. -/
theorem extends_of_continues {k : ℕ} (hc : Continues (Session.dispatch B) k s s') :
    ∃ entries, s.Extends s' entries :=
  hc.preserves (I := fun t => ∃ entries, s.Extends t entries)
    (fun _ _ ⟨_, hx⟩ hd => (hx.dispatch hd).imp' _ fun _ h => h) ⟨[], .refl s⟩

/-- A run only adds to the log. -/
theorem extends_run (B : RuntimeBackend β) (n : UInt64) (s : Session β) :
    ∃ entries, s.Extends (s.run B n).2 entries := by
  rcases run_cases B n s with ⟨s', hc, hr⟩ | ⟨k, -, s', r, s'', hc, hd, hr⟩ <;> rw [hr]
  · obtain ⟨entries, hx⟩ := extends_of_continues hc
    exact ⟨_, hx.trans (extends_observe _ _)⟩
  · obtain ⟨entries, hx⟩ := extends_of_continues hc
    obtain ⟨entries', hx'⟩ := hx.dispatch hd
    exact ⟨_, hx'.trans (extends_observe _ _)⟩

namespace Reachable

variable {configuration : RuntimeConfiguration}

/-- A session that is reached extends a new one. -/
theorem extends_new (h : s.Reachable B configuration) :
    ∃ b s₀ entries, new configuration b = .ok s₀ ∧ s₀.Extends s entries := by
  obtain ⟨b, s₀, ns, k, hn, hc⟩ := h
  obtain ⟨entries, hx⟩ : ∃ entries, s₀.Extends (s₀.runs B ns).2 entries := by
    refine runAll_preserves (I := fun t => ∃ entries, s₀.Extends t entries) ?_ ns ⟨[], .refl s₀⟩
    rintro n t ⟨entries, hx⟩
    obtain ⟨entries', hx'⟩ := extends_run B n t
    exact ⟨_, hx.trans hx'⟩
  obtain ⟨entries', hx'⟩ := extends_of_continues hc
  exact ⟨b, s₀, _, hn, hx.trans hx'⟩

/-- A session keeps the configuration it was built with. -/
theorem configuration_eq (h : s.Reachable B configuration) : s.configuration = configuration := by
  obtain ⟨b, s₀, entries, hn, hx⟩ := h.extends_new
  rw [hx.configuration, configuration_of_new hn]

/-- A session's ledger keeps the budget it was built with. -/
theorem budget_eq (h : s.Reachable B configuration) :
    s.fallbackLedger.budget = configuration.fallback := by
  rw [s.ledger_budget, h.configuration_eq]

/-- **Every reachable session is lawful.** -/
theorem lawful (h : s.Reachable B configuration) : s.Lawful B := by
  obtain ⟨b, s₀, ns, k, hn, hc⟩ := h
  exact hc.preserves (fun _ _ h hd => h.dispatch hd)
    (runAll_preserves (fun n _ h => h.run n) ns (lawful_of_new hn))

end Reachable

/-- New sessions are reachable. -/
theorem reachable_runs (configuration : RuntimeConfiguration) (b : β)
    (h : new configuration b = .ok s) (ns : List UInt64) :
    (s.runs B ns).2.Reachable B configuration :=
  ⟨b, s, ns, 0, h, .zero _⟩

end Session

/-- **What holds of every entry of every dispatch** holds of every entry of a
log, given that it holds of what `run` returns. -/
theorem History.forall_mem {configuration : RuntimeConfiguration} {ledger : FallbackLedger}
    {st : ExecutionStatistics} {log : List Interaction} {P : Interaction → Prop}
    (h : History configuration ledger st log)
    (hd : ∀ st entries r st', Dispatch configuration ledger st entries r st' → ∀ i ∈ entries, P i)
    (hr : ∀ r, P (.runReturned r)) : ∀ i ∈ log, P i := by
  induction h with
  | start => exact fun _ hi => absurd hi List.not_mem_nil
  | dispatched _ hd' ih =>
    intro i hi
    exact (List.mem_append.1 hi).elim (ih i) (hd _ _ _ _ hd' i)
  | stopped _ hd' ih =>
    intro i hi
    rcases List.mem_append.1 hi with hi | hi
    · exact (List.mem_append.1 hi).elim (ih i) (hd _ _ _ _ hd' i)
    · exact List.mem_singleton.1 hi ▸ hr _
  | exhausted _ _ ih =>
    intro i hi
    rcases List.mem_append.1 hi with hi | hi
    · exact ih i hi
    · exact List.mem_singleton.1 hi ▸ hr _

end Execution
end GcnPort
