/-
# The life of a ticket

What a ticket is for, told from the history of calls alone: it is issued once,
may then be claimed once under its key, and is finished by the first `complete`
or `cancel` that returns.  `phase t log` is where ticket `t` is after `log`, and no
event takes a ticket back (`phase_claimed_append`).  A ticket is outstanding while it
is pending or claimed, and then it was begun under its key and has not ended since
(`begun_of_phase`).
-/

import GcnPort.Calls.Coordinator

namespace GcnPort
namespace Calls

open Execution Hooks

namespace TicketEvent

/-- The ticket a call issued. -/
def issued : TicketEvent → Option OriginalCallTicket
  | .begin _ (.ok t) => some t
  | _ => none

/-- The key under which a call issued `t`. -/
def begun (t : OriginalCallTicket) : TicketEvent → Option HookKey
  | .begin key (.ok t') => if t' = t then some key else none
  | _ => none

/-- A `claim_entry` of `t` that returned true. -/
def claims (t : OriginalCallTicket) : TicketEvent → Bool
  | .claimEntry t' _ true => t' = t
  | _ => false

/-- A `complete` of `t` that returned. -/
def completes (t : OriginalCallTicket) : TicketEvent → Bool
  | .complete t' (.ok ()) => t' = t
  | _ => false

/-- A `complete` or `cancel` of `t` that returned. -/
def ends (t : OriginalCallTicket) : TicketEvent → Bool
  | .complete t' (.ok ()) | .cancel t' (.ok ()) => t' = t
  | _ => false

/-- The ticket a call is about, if any. -/
def ticket : TicketEvent → Option OriginalCallTicket
  | .begin _ (.ok t) | .claimEntry t _ _ | .complete t _ | .cancel t _ => some t
  | .begin _ (.error _) | .pendingCount _ => none

variable {t : OriginalCallTicket} {e : TicketEvent}

/-- A ticket is begun by the `begin` that returns it. -/
theorem begun_eq_some_iff {key : HookKey} : e.begun t = some key ↔ e = .begin key (.ok t) := by
  constructor
  · intro h
    unfold begun at h
    split at h
    · split_ifs at h with ht
      rw [ht, Option.some.inj h]
    · cases h
  · rintro rfl
    exact if_pos rfl

/-- A ticket is issued by a `begin` that returns it. -/
theorem issued_eq_some_iff : e.issued = some t ↔ ∃ key, e = .begin key (.ok t) := by
  constructor
  · intro h
    unfold issued at h
    split at h
    · exact ⟨_, by rw [Option.some.inj h]⟩
    · cases h
  · rintro ⟨key, rfl⟩
    rfl

/-- A claim ends nothing. -/
theorem ends_eq_false_of_claims (h : e.claims t = true) : e.ends t = false := by
  cases e <;> first | rfl | cases h

/-- To complete a ticket is to end it. -/
theorem ends_of_completes (h : e.completes t = true) : e.ends t = true := by
  unfold completes at h
  split at h
  · exact h
  · cases h

end TicketEvent

/-- Where a ticket is in its life. -/
inductive Phase where
  | unissued
  | pending (key : HookKey)
  | claimed (key : HookKey)
  | finished
deriving DecidableEq, Repr

namespace Phase

/-- Where an event takes ticket `t`.  A value that no `begin` has returned yet
is no ticket, and cancelling it changes nothing. -/
def next (t : OriginalCallTicket) (p : Phase) (e : TicketEvent) : Phase :=
  match p with
  | .unissued => (e.begun t).elim .unissued .pending
  | .pending key => if e.claims t then .claimed key else if e.ends t then .finished else p
  | .claimed _ => if e.ends t then .finished else p
  | .finished => .finished

/-- What is stored for a ticket in this phase. -/
def record : Phase → Option TicketRecord
  | .pending key => some ⟨key, .pending⟩
  | .claimed key => some ⟨key, .claimed⟩
  | .unissued | .finished => none

/-- A pending record is stored while the ticket is pending. -/
@[simp] theorem record_eq_pending_iff {p : Phase} {key : HookKey} :
    p.record = some ⟨key, .pending⟩ ↔ p = .pending key := by
  cases p <;> simp [record]

/-- A claimed record is stored while the ticket is claimed. -/
@[simp] theorem record_eq_claimed_iff {p : Phase} {key : HookKey} :
    p.record = some ⟨key, .claimed⟩ ↔ p = .claimed key := by
  cases p <;> simp [record]

/-- An event that does not concern a ticket leaves it where it is. -/
theorem next_of_idle {t : OriginalCallTicket} {e : TicketEvent} (hb : e.begun t = none)
    (hc : e.claims t = false) (he : e.ends t = false) (p : Phase) : p.next t e = p := by
  cases p <;> simp [next, hb, hc, he]

variable {p : Phase} {t : OriginalCallTicket} {e : TicketEvent} {key : HookKey}

/-- An event about another ticket leaves a ticket where it is. -/
theorem next_of_ticket_ne (h : e.ticket ≠ some t) (p : Phase) : p.next t e = p := by
  refine next_of_idle ?_ ?_ ?_ p
  · unfold TicketEvent.begun
    split
    · exact if_neg fun ht => h (congrArg some ht)
    · rfl
  · unfold TicketEvent.claims
    split
    · exact decide_eq_false fun ht => h (congrArg some ht)
    · rfl
  · unfold TicketEvent.ends
    split
    · exact decide_eq_false fun ht => h (congrArg some ht)
    · exact decide_eq_false fun ht => h (congrArg some ht)
    · rfl

/-- A ticket stays unissued until it is begun. -/
theorem next_eq_unissued_iff :
    p.next t e = .unissued ↔ p = .unissued ∧ e.begun t = none := by
  cases p with
  | unissued => cases hb : e.begun t <;> simp [next, hb]
  | pending key => simp only [next]; split_ifs <;> simp
  | claimed key => simp only [next]; split_ifs <;> simp
  | finished => simp [next]

/-- A ticket is pending from its `begin` until it is claimed or ended. -/
theorem next_eq_pending_iff : p.next t e = .pending key ↔
    p = .unissued ∧ e.begun t = some key ∨
      p = .pending key ∧ e.claims t = false ∧ e.ends t = false := by
  cases p with
  | unissued => cases hb : e.begun t <;> simp [next, hb]
  | pending key => simp only [next]; split_ifs <;> simp_all
  | claimed key => simp only [next]; split_ifs <;> simp
  | finished => simp [next]

/-- A ticket is claimed from its claim until it is ended. -/
theorem next_eq_claimed_iff : p.next t e = .claimed key ↔
    p = .pending key ∧ e.claims t = true ∨ p = .claimed key ∧ e.ends t = false := by
  cases p with
  | unissued => cases hb : e.begun t <;> simp [next, hb]
  | pending key => simp only [next]; split_ifs <;> simp_all
  | claimed key => simp only [next]; split_ifs <;> simp_all
  | finished => simp [next]

/-- A ticket is finished once it was issued and ended. -/
theorem next_eq_finished_iff : p.next t e = .finished ↔
    p = .finished ∨ p ≠ .unissued ∧ e.ends t = true := by
  cases p with
  | unissued => cases hb : e.begun t <;> simp [next, hb]
  | pending key =>
    simp only [next]
    split_ifs with hc he
    · simp [TicketEvent.ends_eq_false_of_claims hc]
    · simp [he]
    · simp [he]
  | claimed key => simp only [next]; split_ifs <;> simp_all
  | finished => simp [next]

/-- Nothing is stored for a ticket that an event ended. -/
theorem record_next_of_ends (he : e.ends t = true) (hp : p.record ≠ none) :
    (p.next t e).record = none := by
  have hne : p ≠ .unissued := fun h => hp (by rw [h]; rfl)
  rw [next_eq_finished_iff.2 (.inr ⟨hne, he⟩)]
  rfl

/-- Cancelling what is not stored changes nothing. -/
theorem next_cancel (hp : p.record = none) (t' : OriginalCallTicket)
    (answer : Except Exception Unit) : p.next t (.cancel t' answer) = p := by
  cases p <;> first | rfl | cases hp

end Phase

/-- Where ticket `t` is after a history. -/
def phase (t : OriginalCallTicket) (log : List TicketEvent) : Phase :=
  log.foldl (Phase.next t) .unissued

/-- Some call ended the ticket after a `begin` had returned it. -/
def Ended (t : OriginalCallTicket) (log : List TicketEvent) : Prop :=
  ∃ before after, log = before ++ after ∧ (∃ e ∈ before, (e.begun t).isSome) ∧
    ∃ e ∈ after, e.ends t = true

section

variable {t : OriginalCallTicket} {key : HookKey} {log before after : List TicketEvent}
  {e : TicketEvent}

/-- At first no ticket is issued. -/
@[simp] theorem phase_nil : phase t [] = .unissued := rfl

/-- Where a ticket is after one more event. -/
theorem phase_concat (t : OriginalCallTicket) (log : List TicketEvent) (e : TicketEvent) :
    phase t (log ++ [e]) = (phase t log).next t e := by
  rw [phase, List.foldl_append]
  rfl

/-- **A claimed ticket stays claimed** until it is finished. -/
theorem phase_claimed_append (h : phase t before = .claimed key) (after : List TicketEvent) :
    phase t (before ++ after) = .claimed key ∨ phase t (before ++ after) = .finished := by
  induction after using List.reverseRecOn with
  | nil => exact .inl (by rwa [List.append_nil])
  | append_singleton after e ih =>
    rw [← List.append_assoc, phase_concat]
    rcases ih with ih | ih <;> rw [ih]
    · by_cases he : e.ends t = true
      · exact .inr (if_pos he)
      · exact .inl (if_neg he)
    · exact .inr rfl

/-- A ticket is unissued while no `begin` has returned it. -/
theorem phase_eq_unissued_iff : phase t log = .unissued ↔ ∀ e ∈ log, e.begun t = none := by
  induction log using List.reverseRecOn with
  | nil => simp
  | append_singleton log e ih =>
    rw [phase_concat, Phase.next_eq_unissued_iff, List.forall_mem_append,
      List.forall_mem_singleton, ih]

/-- A ticket has ended once it ended before, or ends now. -/
theorem ended_concat_iff : Ended t (log ++ [e]) ↔
    Ended t log ∨ (∃ e' ∈ log, (e'.begun t).isSome) ∧ e.ends t = true := by
  constructor
  · rintro ⟨before, after, hlog, hb, e', he', hend⟩
    rcases List.eq_nil_or_concat' after with rfl | ⟨after, e'', rfl⟩
    · cases he'
    · rw [← List.append_assoc] at hlog
      obtain ⟨rfl, he⟩ := List.append_inj' hlog rfl
      obtain rfl : e = e'' := (List.cons.inj he).1
      rcases List.mem_append.1 he' with he' | he'
      · exact .inl ⟨before, after, rfl, hb, e', he', hend⟩
      · obtain rfl := List.mem_singleton.1 he'
        obtain ⟨b, hb, hsome⟩ := hb
        exact .inr ⟨⟨b, List.mem_append_left _ hb, hsome⟩, hend⟩
  · rintro (⟨before, after, rfl, hb, e', he', hend⟩ | ⟨hb, hend⟩)
    · exact ⟨before, after ++ [e], List.append_assoc .., hb, e', List.mem_append_left _ he', hend⟩
    · exact ⟨log, [e], rfl, hb, e, List.mem_singleton_self e, hend⟩

/-- **A ticket is finished once it has ended.** -/
theorem phase_eq_finished_iff : phase t log = .finished ↔ Ended t log := by
  induction log using List.reverseRecOn with
  | nil => simp [Ended]
  | append_singleton log e ih =>
    rw [phase_concat, Phase.next_eq_finished_iff, ended_concat_iff, ih, Ne,
      phase_eq_unissued_iff]
    simp [Option.isSome_iff_ne_none]

/-- **An outstanding ticket was begun under its key**, and has not ended since. -/
theorem begun_of_phase (h : phase t log = .pending key ∨ phase t log = .claimed key) :
    ∃ before after, log = before ++ .begin key (.ok t) :: after ∧
      ∀ e ∈ after, e.ends t = false := by
  induction log using List.reverseRecOn with
  | nil => simp at h
  | append_singleton log e ih =>
    rw [phase_concat, Phase.next_eq_pending_iff, Phase.next_eq_claimed_iff] at h
    have extend (hp : phase t log = .pending key ∨ phase t log = .claimed key)
        (he : e.ends t = false) : ∃ before after,
          log ++ [e] = before ++ .begin key (.ok t) :: after ∧ ∀ e ∈ after, e.ends t = false := by
      obtain ⟨before, after, rfl, hafter⟩ := ih hp
      refine ⟨before, after ++ [e], by simp, fun e' he' => ?_⟩
      rcases List.mem_append.1 he' with he' | he'
      · exact hafter e' he'
      · exact List.mem_singleton.1 he' ▸ he
    rcases h with (⟨-, hb⟩ | ⟨hp, -, he⟩) | (⟨hp, hc⟩ | ⟨hp, he⟩)
    · refine ⟨log, [], ?_, fun _ h => absurd h List.not_mem_nil⟩
      rw [TicketEvent.begun_eq_some_iff.1 hb]
    · exact extend (.inl hp) he
    · exact extend (.inl hp) (TicketEvent.ends_eq_false_of_claims hc)
    · exact extend (.inr hp) he

end

end Calls
end GcnPort
