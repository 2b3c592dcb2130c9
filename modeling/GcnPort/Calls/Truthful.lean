/-
# Truthful logs

A log of calls is `Truthful` if every answer in it is the one the phases of the
tickets before it call for.  Whatever writes a truthful log issues no ticket
twice, lets none be claimed twice or completed twice, and none be used after
its end.  Nothing here depends on how the answers are found.
-/

import GcnPort.Calls.Lifecycle
import GcnPort.Foundation.Log
import Mathlib.Data.Set.Card

namespace GcnPort
namespace Calls

open Execution Foundation Hooks

/-- The tickets begun and not yet ended. -/
def outstanding (log : List TicketEvent) : Set OriginalCallTicket :=
  {t | (∃ e ∈ log, (e.begun t).isSome) ∧ ¬Ended t log}

/-- The outstanding tickets are those that are pending or claimed. -/
theorem mem_outstanding_iff {log : List TicketEvent} {t : OriginalCallTicket} :
    t ∈ outstanding log ↔ (phase t log).record ≠ none := by
  have hbegun : (∃ e ∈ log, (e.begun t).isSome) ↔ phase t log ≠ .unissued := by
    rw [Ne, phase_eq_unissued_iff]
    simp [Option.isSome_iff_ne_none]
  show (∃ e ∈ log, (e.begun t).isSome) ∧ ¬Ended t log ↔ _
  rw [hbegun, ← phase_eq_finished_iff]
  cases phase t log <;> simp [Phase.record]

/-- The answer is the one the phases before it call for. -/
def TicketEvent.Truthful (before : List TicketEvent) : TicketEvent → Prop
  | .begin _ (.ok t) => phase t before = .unissued
  | .claimEntry t key answer => answer = true ↔ phase t before = .pending key
  | .complete t (.ok ()) => ∃ key, phase t before = .claimed key
  | .pendingCount answer => answer = (outstanding before).ncard
  | _ => True

/-- Every answer in the log is the one the log before it calls for. -/
abbrev Truthful (log : List TicketEvent) : Prop :=
  EveryPrefix (fun before e => e.Truthful before) log

namespace Truthful

variable {t : OriginalCallTicket} {log before after : List TicketEvent} {e : TicketEvent}

/-- The last answer of a truthful log. -/
theorem last (h : Truthful (log ++ [e])) : e.Truthful log := h log e [] rfl

/-- A claim that succeeds is one of a pending ticket, under its key. -/
theorem phase_of_claims (h : e.Truthful log) (hc : e.claims t = true) :
    ∃ key, e = .claimEntry t key true ∧ phase t log = .pending key := by
  match e with
  | .claimEntry t' key true =>
    obtain rfl : t' = t := by simpa [TicketEvent.claims] using hc
    exact ⟨key, rfl, h.1 rfl⟩

/-- A ticket that is completed was claimed. -/
theorem phase_of_completes (h : e.Truthful log) (hc : e.completes t = true) :
    ∃ key, phase t log = .claimed key := by
  match e with
  | .complete t' (.ok ()) =>
    obtain rfl : t' = t := by simpa [TicketEvent.completes] using hc
    exact h

/-- **No ticket is issued twice.** -/
theorem nodup_issued (h : Truthful log) : (log.filterMap TicketEvent.issued).Nodup := by
  induction log using List.reverseRecOn with
  | nil => exact List.nodup_nil
  | append_singleton log e ih =>
    rw [List.filterMap_append]
    cases hi : e.issued with
    | none => simpa [hi] using ih h.of_append
    | some t =>
      obtain ⟨key, rfl⟩ := TicketEvent.issued_eq_some_iff.1 hi
      have hnew : ∀ e ∈ log, e.begun t = none := phase_eq_unissued_iff.1 h.last
      refine (ih h.of_append).append (List.nodup_singleton t) fun t' ht ht' => ?_
      obtain rfl : t' = t := List.mem_singleton.1 ht'
      obtain ⟨e, he, hissued⟩ := List.mem_filterMap.1 ht
      obtain ⟨key', rfl⟩ := TicketEvent.issued_eq_some_iff.1 hissued
      have := hnew _ he
      rw [TicketEvent.begun_eq_some_iff.2 rfl] at this
      cases this

/-- **No ticket is claimed twice**: a pending ticket has not been claimed. -/
theorem countP_claims (h : Truthful log) (t : OriginalCallTicket) :
    log.countP (TicketEvent.claims t) ≤ 1 ∧
      ((∃ key, phase t log = .pending key) ∨ phase t log = .unissued →
        log.countP (TicketEvent.claims t) = 0) := by
  induction log using List.reverseRecOn with
  | nil => simp
  | append_singleton log e ih =>
    obtain ⟨hle, hzero⟩ := ih h.of_append
    rw [List.countP_append, List.countP_singleton, phase_concat]
    by_cases hc : e.claims t = true
    · obtain ⟨key, -, hp⟩ := phase_of_claims h.last hc
      rw [hzero (.inl ⟨key, hp⟩), hp, Phase.next, if_pos hc]
      simp [hc]
    · rw [if_neg hc, Nat.add_zero]
      refine ⟨hle, fun hphase => hzero ?_⟩
      rcases hphase with ⟨key, hp⟩ | hp
      · rcases Phase.next_eq_pending_iff.1 hp with ⟨hp, -⟩ | ⟨hp, -⟩
        · exact .inr hp
        · exact .inl ⟨key, hp⟩
      · exact .inr (Phase.next_eq_unissued_iff.1 hp).1

/-- **No ticket is completed twice.** -/
theorem countP_completes (h : Truthful log) (t : OriginalCallTicket) :
    log.countP (TicketEvent.completes t) ≤ 1 ∧
      (phase t log ≠ .finished → log.countP (TicketEvent.completes t) = 0) := by
  induction log using List.reverseRecOn with
  | nil => simp
  | append_singleton log e ih =>
    obtain ⟨hle, hzero⟩ := ih h.of_append
    rw [List.countP_append, List.countP_singleton, phase_concat]
    by_cases hc : e.completes t = true
    · obtain ⟨key, hp⟩ := phase_of_completes h.last hc
      have hne : phase t log ≠ .finished := by rw [hp]; exact Phase.noConfusion
      rw [hzero hne, hp, Phase.next, if_pos (TicketEvent.ends_of_completes hc)]
      simp [hc]
    · rw [if_neg hc, Nat.add_zero]
      exact ⟨hle, fun hne => hzero fun hp => hne (Phase.next_eq_finished_iff.2 (.inl hp))⟩

/-- **A claim comes after the `begin` it names, and before the end.** -/
theorem begun_of_claim (h : Truthful log) {key : HookKey}
    (hlog : log = before ++ .claimEntry t key true :: after) :
    ∃ l m, before = l ++ .begin key (.ok t) :: m ∧ ∀ e ∈ m, e.ends t = false :=
  begun_of_phase (.inl ((h before _ after hlog).1 rfl))

/-- **A ticket that has ended is of no more use.** -/
theorem of_ended (h : Truthful log) (hlog : log = before ++ e :: after) (hend : Ended t before) :
    e.claims t = false ∧ e.completes t = false := by
  have hp := phase_eq_finished_iff.2 hend
  have he : e.Truthful before := h before e after hlog
  refine ⟨Bool.eq_false_iff.2 fun hc => ?_, Bool.eq_false_iff.2 fun hc => ?_⟩
  · obtain ⟨key, -, hpending⟩ := phase_of_claims he hc
    rw [hp] at hpending
    cases hpending
  · obtain ⟨key, hclaimed⟩ := phase_of_completes he hc
    rw [hp] at hclaimed
    cases hclaimed

/-- **A ticket is claimed** exactly while it has been claimed and has not
ended. -/
theorem phase_eq_claimed_iff (h : Truthful log) {key : HookKey} :
    phase t log = .claimed key ↔ .claimEntry t key true ∈ log ∧ ¬Ended t log := by
  rw [← phase_eq_finished_iff]
  refine ⟨fun hp => ⟨?_, by rw [hp]; exact Phase.noConfusion⟩, ?_⟩
  · induction log using List.reverseRecOn with
    | nil => cases hp
    | append_singleton log e ih =>
      rw [phase_concat, Phase.next_eq_claimed_iff] at hp
      rcases hp with ⟨hp, hc⟩ | ⟨hp, -⟩
      · obtain ⟨key', rfl, hp'⟩ := phase_of_claims h.last hc
        obtain rfl : key = key' := by simpa [hp] using hp'
        exact List.mem_append_right _ (List.mem_singleton_self _)
      · exact List.mem_append_left _ (ih h.of_append hp)
  · rintro ⟨hmem, hne⟩
    obtain ⟨before, after, rfl⟩ := List.append_of_mem hmem
    have hp : phase t before = .pending key := (h before _ after rfl).1 rfl
    have hnext : phase t (before ++ [.claimEntry t key true]) = .claimed key := by
      rw [phase_concat, hp]
      simp [Phase.next, TicketEvent.claims]
    have := phase_claimed_append hnext after
    rw [List.append_assoc, List.singleton_append] at this
    exact this.resolve_right hne

end Truthful
end Calls
end GcnPort
