/-
# Tickets are used once

`SingleUse` is what a coordinator promises of its tickets, over every history
of calls.  A coordinator that keeps track of them has it: the promises about the
past are about truthful logs, and those about the next call follow from what is
stored.
-/

import GcnPort.Calls.Tracks

namespace GcnPort
namespace Calls

open Execution Foundation Hooks

variable {ι : Type*}

/-- What a coordinator with log `log` guarantees.  A value passed to `cancel`
before a `begin` returned it was no ticket then, and its cancelling is no end of
the ticket (`Ended`). -/
structure SingleUse (V : CodeInvalidator ι) (log : List TicketEvent)
    (c : OriginalCallCoordinator ι) : Prop where
  /-- The tickets returned are pairwise distinct. -/
  distinct : (log.filterMap TicketEvent.issued).Nodup
  /-- A ticket is claimed at most once. -/
  claimed_once : ∀ t, log.countP (TicketEvent.claims t) ≤ 1
  /-- It is claimed with the key it was begun with, before its end. -/
  claim : ∀ before t key after, log = before ++ .claimEntry t key true :: after →
    ∃ l m, before = l ++ .begin key (.ok t) :: m ∧ ∀ e ∈ m, e.ends t = false
  /-- It is completed at most once. -/
  completed_once : ∀ t, log.countP (TicketEvent.completes t) ≤ 1
  /-- `complete` returns exactly when the ticket was claimed, has not ended, and
  the invalidation succeeds. -/
  complete : ∀ t, (c.complete V t).1 = .ok () ↔ ∃ key, .claimEntry t key true ∈ log ∧
    ¬Ended t log ∧ (V.invalidateInstruction key.address c.invalidator).1 = .ok ()
  /-- A call that throws leaves all tickets as they were. -/
  threw : ∀ call, (c.step V call).1.threw = true → (c.step V call).2.tickets = c.tickets
  /-- A ticket that has ended is neither claimed nor completed again. -/
  spent : ∀ before e after t, log = before ++ e :: after → Ended t before →
    e.claims t = false ∧ e.completes t = false
  /-- `pending_count` is the number of outstanding tickets, whenever it is asked. -/
  pendingCount : c.pendingCount = (outstanding log).ncard ∧
    ∀ before answer after, log = before ++ .pendingCount answer :: after →
      answer = (outstanding before).ncard

/-- **Tickets are single-use, bound to their key, and never resurrected**, over
every history of calls with fewer than `2^64` calls of `begin`, whatever tickets
and keys are passed and whichever invalidations throw. -/
theorem original_calls_single_use (V : CodeInvalidator ι) (calls : List TicketCall) (i : ι)
    (hlt : calls.countP TicketCall.isBegin < 2 ^ 64) :
    SingleUse V (OriginalCallCoordinator.runCalls V calls i).1
      (OriginalCallCoordinator.runCalls V calls i).2 := by
  have h := tracks_runCalls V calls i hlt
  generalize (OriginalCallCoordinator.runCalls V calls i).1 = log at h ⊢
  generalize (OriginalCallCoordinator.runCalls V calls i).2 = c at h ⊢
  have ht := h.truthful
  refine ⟨ht.nodup_issued, fun t => (ht.countP_claims t).1, fun before t key after hlog => ?_,
    fun t => (ht.countP_completes t).1, fun t => ?_,
    fun call => c.tickets_step_of_threw V call, fun before e after t hlog hend => ?_,
    h.pendingCount_eq, fun before answer after hlog => ht before _ after hlog⟩
  · exact ht.begun_of_claim hlog
  · rcases OriginalCallCoordinator.complete_cases V t c with ⟨e, hf, hc⟩ |
      ⟨e, key, i, hf, hv, hc⟩ | ⟨key, i, hf, hv, hc⟩ <;> rw [h.tickets] at hf <;> rw [hc]
    · refine ⟨(nomatch ·), fun ⟨key, hmem, hend, _⟩ => absurd ?_ (hf key)⟩
      exact Phase.record_eq_claimed_iff.2 (ht.phase_eq_claimed_iff.2 ⟨hmem, hend⟩)
    · refine ⟨(nomatch ·), fun ⟨key', hmem, hend, hv'⟩ => ?_⟩
      have hp := ht.phase_eq_claimed_iff.2 ⟨hmem, hend⟩
      obtain rfl : key' = key := by simpa [hp, Phase.record] using hf
      rw [hv] at hv'
      cases hv'
    · have hp := ht.phase_eq_claimed_iff.1 (Phase.record_eq_claimed_iff.1 hf)
      exact ⟨fun _ => ⟨key, hp.1, hp.2, by rw [hv]⟩, fun _ => rfl⟩
  · exact ht.of_ended hlog hend

/-- An invalidator that throws where its script says so. -/
def scriptedInvalidator : CodeInvalidator (List Bool) where
  invalidateInstruction _ script :=
    match script with
    | true :: script => (.error (.external "invalidation failed"), script)
    | _ :: script => (.ok (), script)
    | [] => (.ok (), [])

/-- A `begin` that fails, one that succeeds, and a ticket that is claimed once,
is not completed while the invalidation fails, and is completed once. -/
theorem original_calls_single_use_scripted :
    ∃ (log : List TicketEvent) (c : OriginalCallCoordinator (List Bool)),
      log.countP (TicketEvent.claims ⟨2⟩) = 1 ∧ log.countP (TicketEvent.completes ⟨2⟩) = 1 ∧
        SingleUse scriptedInvalidator log c := by
  let key : HookKey := ⟨⟨⟨.replicate 32 1⟩, 0⟩, 0x80003100⟩
  refine ⟨_, _, ?_, ?_, original_calls_single_use scriptedInvalidator
    [.begin key, .begin key, .claimEntry ⟨2⟩ key, .claimEntry ⟨2⟩ key, .complete ⟨2⟩,
      .complete ⟨2⟩, .complete ⟨2⟩] [true, false, true] (by decide)⟩ <;>
    decide +kernel

end Calls
end GcnPort
