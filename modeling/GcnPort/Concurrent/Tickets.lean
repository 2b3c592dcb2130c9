/-
# Tickets that threads share

What the coordinator promises of its tickets when any number of threads use it, and
the registry beside it, in terms of what the callers see (`SafeTickets`): what was
returned, and what was called once something else had returned.  The moments at which
the methods take effect make a truthful log, and what the callers see is a part of it
in the same order.
-/

import GcnPort.Concurrent.Promises

namespace GcnPort
namespace Concurrent

open Execution Foundation Hooks Calls

variable {ι : Type*} {φ T : Type}

/-- The event of the coordinator. -/
def Event.ticketEvent : Event φ → Option TicketEvent
  | .ticket e => some e
  | .hook _ => none

/-- A call of `begin`. -/
def Call.isBegin : Call φ → Bool
  | .ticket call => call.isBegin
  | .hook _ => false

/-- A call that could claim or end the ticket. -/
def Call.uses (t : OriginalCallTicket) : Call φ → Bool
  | .ticket (.claimEntry t' _) | .ticket (.complete t') | .ticket (.cancel t') => t' = t
  | _ => false

/-- What the coordinator answered. -/
def ticketLog (l : List (Call φ × Event φ)) : List TicketEvent :=
  l.filterMap fun p => p.2.ticketEvent

/-- A part of a log has a part of its ticket events. -/
theorem ticketLog_sublist {l l' : List (Call φ × Event φ)} (h : l.Sublist l') :
    (ticketLog l).Sublist (ticketLog l') := h.filterMap _

/-- What the threads may rely on. -/
structure SafeTickets (history : List (T × Mark (Call φ) (Event φ))) : Prop where
  /-- The tickets returned are pairwise distinct. -/
  distinct : ((ticketLog (returned history)).filterMap TicketEvent.issued).Nodup
  /-- One thread at most claims a ticket, once. -/
  claimed_once : ∀ t, (ticketLog (returned history)).countP (TicketEvent.claims t) ≤ 1
  /-- One thread at most completes a ticket, once. -/
  completed_once : ∀ t, (ticketLog (returned history)).countP (TicketEvent.completes t) ≤ 1
  /-- A ticket is claimed with the key it was begun with. -/
  claim_key : ∀ t key key', .begin key (.ok t) ∈ ticketLog (returned history) →
    .claimEntry t key' true ∈ ticketLog (returned history) → key' = key
  /-- A ticket that was begun and then ended is neither claimed nor completed again. -/
  spent : ∀ t key k₁ k₂ k₃ e₂ e₃, Succession history
      [(k₁, .ticket (.begin key (.ok t))), (k₂, .ticket e₂), (k₃, .ticket e₃)] →
    e₂.ends t = true → e₃.claims t = false ∧ e₃.completes t = false
  /-- A ticket that was begun and that one thread only uses is there for it to claim. -/
  claimable : ∀ t key k₁ k₂ answer, Succession history
      [(k₁, .ticket (.begin key (.ok t))), (k₂, .ticket (.claimEntry t key answer))] →
    (called history).countP (Call.uses t) = 1 → answer = true

/-- A call of the coordinator moves it as the atomic model says; a call of the registry
only moves the invalidator. -/
theorem Shared.tracks_step (V : CodeInvalidator ι) (call : Call φ) {s : Shared ι φ}
    {log : List TicketEvent} (h : Tracks log s.coordinator)
    (hlt : consumed (log ++ (s.step V call).1.ticketEvent.toList) < 2 ^ 64) :
    Tracks (log ++ (s.step V call).1.ticketEvent.toList) (s.step V call).2.coordinator := by
  cases call with
  | hook call =>
    rw [show (s.step V (.hook call)).1.ticketEvent.toList = [] from rfl, List.append_nil]
    exact ⟨h.tickets, h.issued, h.next, h.truthful⟩
  | ticket call => exact h.step V call hlt

/-- An answer of the coordinator is no more often given than the calls that ask for it. -/
theorem countP_ticketEvents_le {V : CodeInvalidator ι} {p : TicketEvent → Bool}
    {q : Call φ → Bool} (h : ∀ (call : TicketCall) (c : OriginalCallCoordinator ι),
      p (c.step V call).1 = true → q (.ticket call) = true)
    (calls : List (Call φ)) (s : Shared ι φ) :
    ((runAll (Shared.step V) calls s).1.filterMap Event.ticketEvent).countP p ≤
      calls.countP q := by
  rw [List.countP_filterMap]
  refine countP_runAll_le (fun call s hp => ?_) calls s
  cases call with
  | hook call => cases hp
  | ticket call => exact h call _ hp

/-- The tickets used are no more than the calls of `begin`. -/
theorem consumed_ticketEvents_le (V : CodeInvalidator ι) (calls : List (Call φ))
    (s : Shared ι φ) :
    consumed ((runAll (Shared.step V) calls s).1.filterMap Event.ticketEvent) ≤
      calls.countP Call.isBegin :=
  countP_ticketEvents_le (fun call c h => by
    cases call with
    | begin key => rfl
    | _ => cases h) calls s

/-- **The coordinator keeps track of its tickets**, whatever is called besides. -/
theorem tracks_run (V : CodeInvalidator ι) (calls : List (Call φ)) (i : ι)
    (hlt : calls.countP Call.isBegin < 2 ^ 64) :
    Tracks ((runAll (Shared.step V) calls { invalidator := i }).1.filterMap Event.ticketEvent)
      (runAll (Shared.step V) calls { invalidator := i }).2.coordinator := by
  refine runAll_preserves_log (I := fun log s =>
    consumed (log.filterMap Event.ticketEvent) < 2 ^ 64 →
      Tracks (log.filterMap Event.ticketEvent) (Shared.coordinator s))
    (fun call log s h hlog => ?_) calls (fun _ => ?_)
    ((consumed_ticketEvents_le V calls _).trans_lt hlt)
  · have hone : (log ++ [(s.step V call).1]).filterMap Event.ticketEvent =
        log.filterMap Event.ticketEvent ++ (s.step V call).1.ticketEvent.toList := by
      rw [List.filterMap_append]
      cases h : (s.step V call).1.ticketEvent <;> simp [h]
    rw [hone] at hlog ⊢
    refine Shared.tracks_step V call (h ?_) hlog
    rw [consumed, List.countP_append] at hlog
    exact (Nat.le_add_right _ _).trans_lt hlog
  · exact ⟨fun t => by simp [Shared.coordinator, Phase.record],
      fun t ht => absurd rfl ht, rfl, everyPrefix_nil⟩

section

variable {V : CodeInvalidator ι} {log : List TicketEvent} {t : OriginalCallTicket}
  {key key' : HookKey}

/-- A ticket is begun once, under one key. -/
theorem key_of_begin (h : Truthful log) (hk : .begin key (.ok t) ∈ log)
    (hk' : .begin key' (.ok t) ∈ log) : key' = key := by
  have hpairwise := List.pairwise_filterMap.1 h.nodup_issued
  have : Std.Symm fun e e' : TicketEvent =>
      ∀ b, e.issued = some b → ∀ b', e'.issued = some b' → b ≠ b' :=
    ⟨fun e e' hr b hb b' hb' heq => hr b' hb' b hb heq.symm⟩
  by_contra hne
  exact hpairwise.forall hk hk' (by simpa using Ne.symm hne) t rfl t rfl rfl

/-- A pending ticket stays pending until it is claimed or ended. -/
theorem phase_pending_append {after : List TicketEvent} (h : phase t log = .pending key)
    (hafter : ∀ e ∈ after, e.claims t = false ∧ e.ends t = false) :
    phase t (log ++ after) = .pending key := by
  induction after using List.reverseRecOn with
  | nil => rwa [List.append_nil]
  | append_singleton after e ih =>
    rw [← List.append_assoc, phase_concat,
      ih fun e' he' => hafter e' (List.mem_append_left _ he'), Phase.next_eq_pending_iff]
    exact .inr ⟨rfl, hafter e (List.mem_append_right _ (List.mem_singleton_self e))⟩

/-- An event that a call about the ticket gives. -/
def uses (t : OriginalCallTicket) : TicketEvent → Bool
  | .claimEntry t' _ _ | .complete t' _ | .cancel t' _ => t' = t
  | .begin _ _ | .pendingCount _ => false

/-- A claim of the ticket is a use of it. -/
theorem uses_of_claims {e : TicketEvent} (h : e.claims t = true) : uses t e = true := by
  unfold TicketEvent.claims at h
  split at h
  · exact h
  · cases h

/-- What ends the ticket is a use of it. -/
theorem uses_of_ends {e : TicketEvent} (h : e.ends t = true) : uses t e = true := by
  unfold TicketEvent.ends at h
  split at h
  · exact h
  · exact h
  · cases h

/-- A ticket that was begun and that nobody has used is pending. -/
theorem phase_of_unused (h : Truthful log) (hk : .begin key (.ok t) ∈ log)
    (hunused : log.countP (uses t) = 0) : phase t log = .pending key := by
  obtain ⟨before, after, rfl⟩ := List.append_of_mem hk
  have hbegun : phase t (before ++ [.begin key (.ok t)]) = .pending key := by
    have hp : phase t before = .unissued := h before _ after rfl
    rw [phase_concat, hp]
    simp [Phase.next, TicketEvent.begun]
  rw [← List.singleton_append, ← List.append_assoc]
  refine phase_pending_append hbegun fun e he => ?_
  have hu := List.countP_eq_zero.1 hunused e (by simp [he])
  exact ⟨Bool.eq_false_iff.2 fun hc => hu (uses_of_claims hc),
    Bool.eq_false_iff.2 fun hc => hu (uses_of_ends hc)⟩

end

/-- What the coordinator returned has taken effect. -/
theorem countP_ticketLog_returned_le {V : CodeInvalidator ι} {s s' : Shared ι φ}
    {history marks : List (T × Mark (Call φ) (Event φ))} [DecidableEq T]
    (h : Linearization (Shared.step V) s history marks s') (p : TicketEvent → Bool) :
    (ticketLog (returned history)).countP p ≤ (ticketLog (effects marks)).countP p := by
  rw [ticketLog, ticketLog, List.countP_filterMap, List.countP_filterMap]
  exact h.countP_returned_le _

/-- A ticket is used no more often than it is called for. -/
theorem countP_uses_le {V : CodeInvalidator ι} {s s' : Shared ι φ}
    {history marks : List (T × Mark (Call φ) (Event φ))} [DecidableEq T]
    (h : Linearization (Shared.step V) s history marks s') (t : OriginalCallTicket) :
    (ticketLog (effects marks)).countP (uses t) ≤ (called history).countP (Call.uses t) := by
  have hle := h.countP_answers_le (p := fun e => (e.ticketEvent.map (uses t)).getD false)
    (q := Call.uses t) fun call s hp => ?_
  · rw [ticketLog, List.countP_filterMap]
    rwa [List.countP_map] at hle
  · cases call with
    | hook call => cases hp
    | ticket call => cases call <;> exact hp

/-- The last of some events comes after the others. -/
theorem split_of_sublist {α : Type*} {l log : List α} {x : α} (h : (l ++ [x]).Sublist log) :
    ∃ before after, log = before ++ x :: after ∧ l.Sublist before := by
  obtain ⟨r₁, r₂, rfl, hl, hx⟩ := List.append_sublist_iff.1 h
  obtain ⟨s, s', rfl⟩ := List.append_of_mem (List.singleton_sublist.1 hx)
  exact ⟨r₁ ++ s, s', by simp, hl.trans (List.sublist_append_left _ _)⟩

variable [DecidableEq T]

/-- **Tickets are safe to share.**  Whatever the schedule of whatever threads, with
fewer than `2^64` calls of `begin`, whatever tickets and keys are passed, whatever is
called of the registry, and whichever invalidations throw. -/
theorem original_calls_safe_to_share (V : CodeInvalidator ι) (i : ι)
    (schedule : List (Act T (Call φ)))
    (hlt : (schedule.filterMap Act.callee).countP Call.isBegin < 2 ^ 64) :
    SafeTickets ((start V φ T i).history schedule) := by
  obtain ⟨marks, s, h⟩ := exists_linearization V i schedule
  have hcalled := (Config.called_history_sublist schedule (start V φ T i)).countP_le
    (p := Call.isBegin)
  generalize (start V φ T i).history schedule = history at h hcalled ⊢
  have hlog : Truthful (ticketLog (effects marks)) := by
    have htracks := tracks_run (V := V) ((effects marks).map Prod.fst) i
      ((h.countP_effects_le _).trans_lt (hcalled.trans_lt hlt))
    rw [h.sequential] at htracks
    simpa [ticketLog, List.filterMap_map] using htracks.truthful
  have hcount := countP_ticketLog_returned_le h
  have hsubset : ticketLog (returned history) ⊆ ticketLog (effects marks) :=
    List.filterMap_subset _ h.returned_subset
  refine ⟨?_, fun t => (hcount _).trans (hlog.countP_claims t).1,
    fun t => (hcount _).trans (hlog.countP_completes t).1, fun t key key' hk hc => ?_,
    fun t key k₁ k₂ k₃ e₂ e₃ hs hends => ?_, fun t key k₁ k₂ answer hs hone => ?_⟩
  · rw [List.nodup_iff_count_le_one]
    intro t
    rw [List.count, List.countP_filterMap]
    refine (hcount _).trans ?_
    rw [← List.countP_filterMap]
    exact List.nodup_iff_count_le_one.1 hlog.nodup_issued t
  · obtain ⟨before, after, hsplit⟩ := List.append_of_mem (hsubset hc)
    obtain ⟨l, m, rfl, -⟩ := hlog.begun_of_claim hsplit
    exact key_of_begin hlog (hsubset hk) (by rw [hsplit]; simp)
  · have hsub : [.begin key (.ok t), e₂, e₃].Sublist (ticketLog (effects marks)) :=
      ticketLog_sublist (h.sublist_of_succession hs)
    obtain ⟨before, after, hsplit, hbefore⟩ := split_of_sublist (l := [_, _]) hsub
    obtain ⟨begun, ended, rfl, hbegun⟩ := split_of_sublist (l := [_]) hbefore
    refine hlog.of_ended hsplit ⟨begun, e₂ :: ended, rfl, ⟨_, List.singleton_sublist.1 hbegun, ?_⟩,
      e₂, List.mem_cons_self, hends⟩
    rw [TicketEvent.begun_eq_some_iff.2 rfl]
    rfl
  · have hsub : [.begin key (.ok t), .claimEntry t key answer].Sublist
        (ticketLog (effects marks)) :=
      ticketLog_sublist (h.sublist_of_succession hs)
    obtain ⟨before, after, hsplit, hbefore⟩ := split_of_sublist (l := [_]) hsub
    have huses := (countP_uses_le h t).trans hone.le
    have hclaim : answer = true ↔ phase t before = .pending key := hlog before _ after hsplit
    refine hclaim.2
      (phase_of_unused (hsplit ▸ hlog).of_append (List.singleton_sublist.1 hbefore) ?_)
    rw [hsplit, List.countP_append, List.countP_cons, uses, if_pos (by simp)] at huses
    omega

/-- Two threads claim the same ticket in steps that alternate, and one of them may. -/
theorem original_calls_safe_to_share_two :
    ∃ history : List (Bool × Mark (Call Unit) (Event Unit)),
      (returned history).length = 3 ∧
        (ticketLog (returned history)).countP (TicketEvent.claims ⟨1⟩) = 1 ∧
          SafeTickets history := by
  let key : HookKey := ⟨⟨⟨.replicate 32 1⟩, 0⟩, 0x80003100⟩
  let V : CodeInvalidator Unit := ⟨fun _ _ => (.ok (), ())⟩
  let claim (t : Bool) : List (Act Bool (Call Unit)) :=
    [.call t (.ticket (.claimEntry ⟨1⟩ key))]
  let turns (n : ℕ) : List (Act Bool (Call Unit)) :=
    (List.replicate n [.turn true, .turn false]).flatten
  refine ⟨_, ?_, ?_, original_calls_safe_to_share V ()
    (.call true (.ticket (.begin key)) :: turns 7 ++ claim false ++ claim true ++ turns 9)
    (by decide)⟩ <;>
    decide +kernel

end Concurrent
end GcnPort
