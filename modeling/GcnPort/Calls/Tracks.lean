/-
# The coordinator keeps track of its tickets

The coordinator refines the life of each ticket: what its storage holds is what
the phases of its log call for (`Tracks`), and it writes a truthful log.  The
invariant behind it is that every ticket issued so far is below the counter, so
a new one is fresh as long as the counter has not wrapped, that is, for fewer
than `2^64` calls of `begin`.
-/

import GcnPort.Calls.Truthful
import GcnPort.Foundation.PartialMap

namespace GcnPort
namespace Calls

open Execution Foundation Hooks

/-- A call of `begin` that takes a ticket from the counter, whether or not it
returns it. -/
def TicketEvent.usesTicket : TicketEvent → Bool
  | .begin key _ => key.isValid
  | _ => false

/-- The tickets taken from the counter. -/
def consumed (log : List TicketEvent) : ℕ := log.countP TicketEvent.usesTicket

variable {ι : Type*}

/-- The coordinator stores what the phases of its log call for. -/
structure Tracks (log : List TicketEvent) (c : OriginalCallCoordinator ι) : Prop where
  tickets : ∀ t : OriginalCallTicket, c.tickets[t.value]? = (phase t log).record
  issued : ∀ t, phase t log ≠ .unissued → t.value.toNat ≤ consumed log
  next : c.nextTicket = UInt64.ofNat (consumed log + 1)
  truthful : Truthful log

namespace Tracks

variable {V : CodeInvalidator ι} {log : List TicketEvent} {c : OriginalCallCoordinator ι}
  {e : TicketEvent}

/-- The stored tickets are the outstanding ones. -/
theorem pendingCount_eq (h : Tracks log c) : c.pendingCount = (outstanding log).ncard := by
  have himage : (boundKeys fun v : UInt64 => c.tickets[v]?) =
      OriginalCallTicket.value '' outstanding log := by
    ext v
    refine ⟨fun hv => ⟨⟨v⟩, ?_, rfl⟩, ?_⟩
    · rw [mem_outstanding_iff, ← h.tickets]
      exact hv
    · rintro ⟨t, ht, rfl⟩
      rw [mem_outstanding_iff, ← h.tickets] at ht
      exact ht
  rw [OriginalCallCoordinator.pendingCount, size_eq_ncard, himage,
    Set.ncard_image_of_injective _ fun t t' ht => by cases t; cases t'; simpa using ht]

/-- The next ticket has not been issued, unless the counter has wrapped. -/
theorem phase_next (h : Tracks log c) (hlt : consumed log + 1 < 2 ^ 64) :
    phase ⟨c.nextTicket⟩ log = .unissued := by
  by_contra hne
  have hle := h.issued _ hne
  rw [h.next, UInt64.toNat_ofNat_of_lt' hlt] at hle
  omega

/-- One more event may use one more ticket. -/
theorem consumed_concat (log : List TicketEvent) (e : TicketEvent) :
    consumed (log ++ [e]) = consumed log + if e.usesTicket then 1 else 0 := by
  simp [consumed, List.countP_append, List.countP_singleton]

/-- An event that moves no ticket, on a coordinator that stores the same. -/
theorem idle (h : Tracks log c) (he : e.Truthful log)
    (hidle : ∀ t, (phase t log).next t e = phase t log) {c' : OriginalCallCoordinator ι}
    (htickets : c'.tickets = c.tickets)
    (hnext : c'.nextTicket = UInt64.ofNat (consumed (log ++ [e]) + 1)) :
    Tracks (log ++ [e]) c' := by
  refine ⟨fun t => ?_, fun t ht => ?_, hnext, h.truthful.concat he⟩
  · rw [phase_concat, hidle, htickets, h.tickets]
  · rw [phase_concat, hidle] at ht
    rw [consumed_concat]
    exact (h.issued t ht).trans (Nat.le_add_right _ _)

/-- An event that moves one ticket, on a coordinator that stores its new record
and otherwise the same. -/
theorem move (h : Tracks log c) (he : e.Truthful log) {t₀ : OriginalCallTicket}
    (ht₀ : e.ticket = some t₀) {c' : OriginalCallCoordinator ι}
    (htickets : ∀ v, c'.tickets[v]? =
      if t₀.value = v then ((phase t₀ log).next t₀ e).record else c.tickets[v]?)
    (hissued : t₀.value.toNat ≤ consumed (log ++ [e]))
    (hnext : c'.nextTicket = UInt64.ofNat (consumed (log ++ [e]) + 1)) :
    Tracks (log ++ [e]) c' := by
  have hother (t : OriginalCallTicket) (ht : t₀ ≠ t) (p : Phase) : p.next t e = p :=
    Phase.next_of_ticket_ne (by rw [ht₀, Ne, Option.some.injEq]; exact ht) p
  refine ⟨fun t => ?_, fun t ht => ?_, hnext, h.truthful.concat he⟩ <;> by_cases hne : t₀ = t
  · rw [phase_concat, htickets, ← hne, if_pos rfl]
  · rw [phase_concat, hother t hne, htickets, h.tickets, if_neg fun hv => hne ?_]
    cases t₀; cases t; simpa using hv
  · exact hne ▸ hissued
  · rw [phase_concat, hother t hne] at ht
    rw [consumed_concat]
    exact (h.issued t ht).trans (Nat.le_add_right _ _)

/-- The counter and the tickets used, after a `begin` with a valid key. -/
theorem next_begin (h : Tracks log c) {key : HookKey} (hk : key.isValid = true)
    (answer : Except Exception OriginalCallTicket) :
    c.nextTicket + 1 = UInt64.ofNat (consumed (log ++ [.begin key answer]) + 1) := by
  rw [consumed_concat, TicketEvent.usesTicket, hk, if_pos rfl, UInt64.ofNat_add, h.next]
  rfl

/-- The counter after any other call. -/
theorem next_of_not_usesTicket (h : Tracks log c) (he : e.usesTicket = false) :
    c.nextTicket = UInt64.ofNat (consumed (log ++ [e]) + 1) := by
  rw [consumed_concat, he, h.next]
  rfl

/-- `begin` keeps track, while there are fresh tickets. -/
theorem step_begin (h : Tracks log c) (V : CodeInvalidator ι) (key : HookKey)
    (hlt : consumed (log ++ [(c.step V (.begin key)).1]) < 2 ^ 64) :
    Tracks (log ++ [(c.step V (.begin key)).1]) (c.step V (.begin key)).2 := by
  rcases OriginalCallCoordinator.begin_cases V key c with ⟨e, hk, hb⟩ | ⟨e, i, hk, -, hb⟩ |
    ⟨i, hk, -, hb⟩ <;> simp only [OriginalCallCoordinator.step, hb] at hlt ⊢
  · exact h.idle (e := .begin key (.error e)) trivial
      (fun _ => Phase.next_of_ticket_ne (by simp [TicketEvent.ticket]) _) rfl
      (h.next_of_not_usesTicket hk)
  · exact h.idle (e := .begin key (.error e)) trivial
      (fun _ => Phase.next_of_ticket_ne (by simp [TicketEvent.ticket]) _) rfl
      (h.next_begin hk _)
  · rw [consumed_concat, TicketEvent.usesTicket, hk, if_pos rfl] at hlt
    have hnew := h.phase_next hlt
    refine h.move (e := .begin key (.ok ⟨c.nextTicket⟩)) hnew rfl (fun v => ?_) ?_
      (h.next_begin hk _)
    · have hnone : c.tickets[c.nextTicket]? = none := by
        have := h.tickets ⟨c.nextTicket⟩
        rwa [hnew] at this
      have hfree : c.nextTicket ∉ c.tickets := by
        rw [Std.ExtTreeMap.mem_iff_isSome_getElem?, hnone]
        exact Bool.false_ne_true
      rw [Std.ExtTreeMap.getElem?_insertIfNew, hnew]
      simp [hfree, Phase.next, Phase.record, TicketEvent.begun]
    · rw [consumed_concat, TicketEvent.usesTicket, hk, if_pos rfl, h.next,
        UInt64.toNat_ofNat_of_lt' hlt]

/-- A stored ticket has been issued. -/
theorem issued_of_record (h : Tracks log c) {t : OriginalCallTicket}
    (ht : (phase t log).record ≠ none) (he : e.usesTicket = false) :
    t.value.toNat ≤ consumed (log ++ [e]) := by
  rw [consumed_concat, he]
  exact h.issued t fun hp => ht (by rw [hp]; rfl)

/-- `claim_entry` keeps track. -/
theorem step_claimEntry (h : Tracks log c) (V : CodeInvalidator ι) (t : OriginalCallTicket)
    (key : HookKey) :
    Tracks (log ++ [(c.step V (.claimEntry t key)).1]) (c.step V (.claimEntry t key)).2 := by
  rcases OriginalCallCoordinator.claimEntry_cases t key c with ⟨hf, hc⟩ | ⟨hf, hc⟩ <;>
    rw [h.tickets] at hf <;> simp only [OriginalCallCoordinator.step, hc]
  · have hp : phase t log = .pending key := Phase.record_eq_pending_iff.1 hf
    refine h.move (e := .claimEntry t key true) (by simpa [TicketEvent.Truthful] using hp) rfl
      (fun v => ?_) (h.issued_of_record (by rw [hf]; exact Option.some_ne_none _) rfl)
      (h.next_of_not_usesTicket rfl)
    rw [Std.ExtTreeMap.getElem?_insert, hp]
    simp [Phase.next, Phase.record, TicketEvent.claims]
  · have hp : phase t log ≠ .pending key := fun hp => hf (Phase.record_eq_pending_iff.2 hp)
    refine h.idle (e := .claimEntry t key false) (by simpa [TicketEvent.Truthful] using hp)
      (fun _ => Phase.next_of_idle rfl rfl rfl _) rfl (h.next_of_not_usesTicket rfl)

/-- `complete` keeps track. -/
theorem step_complete (h : Tracks log c) (V : CodeInvalidator ι) (t : OriginalCallTicket) :
    Tracks (log ++ [(c.step V (.complete t)).1]) (c.step V (.complete t)).2 := by
  rcases OriginalCallCoordinator.complete_cases V t c with ⟨e, -, hc⟩ | ⟨e, key, i, -, -, hc⟩ |
    ⟨key, i, hf, -, hc⟩ <;> simp only [OriginalCallCoordinator.step, hc]
  · exact h.idle (e := .complete t (.error e)) trivial
      (fun _ => Phase.next_of_idle rfl rfl rfl _) rfl (h.next_of_not_usesTicket rfl)
  · exact h.idle (e := .complete t (.error e)) trivial
      (fun _ => Phase.next_of_idle rfl rfl rfl _) rfl (h.next_of_not_usesTicket rfl)
  · rw [h.tickets] at hf
    have hp : phase t log = .claimed key := Phase.record_eq_claimed_iff.1 hf
    refine h.move (e := .complete t (.ok ())) ⟨key, hp⟩ rfl (fun v => ?_)
      (h.issued_of_record (by rw [hf]; exact Option.some_ne_none _) rfl)
      (h.next_of_not_usesTicket rfl)
    rw [Std.ExtTreeMap.getElem?_erase, hp]
    simp [Phase.next, Phase.record, TicketEvent.ends]

/-- `cancel` keeps track. -/
theorem step_cancel (h : Tracks log c) (V : CodeInvalidator ι) (t : OriginalCallTicket) :
    Tracks (log ++ [(c.step V (.cancel t)).1]) (c.step V (.cancel t)).2 := by
  rcases OriginalCallCoordinator.cancel_cases V t c with ⟨hf, hc⟩ | ⟨e, found, i, -, -, hc⟩ |
    ⟨found, i, hf, -, hc⟩ <;> simp only [OriginalCallCoordinator.step, hc]
  · rw [h.tickets] at hf
    refine h.idle (e := .cancel t (.ok ())) trivial (fun t' => ?_) rfl
      (h.next_of_not_usesTicket rfl)
    by_cases ht : t = t'
    · exact Phase.next_cancel (ht ▸ hf) t _
    · exact Phase.next_of_ticket_ne (by simpa [TicketEvent.ticket] using ht) _
  · exact h.idle (e := .cancel t (.error e)) trivial
      (fun _ => Phase.next_of_idle rfl rfl rfl _) rfl (h.next_of_not_usesTicket rfl)
  · rw [h.tickets] at hf
    have hrecord : (phase t log).record ≠ none := by rw [hf]; exact Option.some_ne_none _
    refine h.move (e := .cancel t (.ok ())) trivial rfl (fun v => ?_)
      (h.issued_of_record hrecord rfl) (h.next_of_not_usesTicket rfl)
    have hends : TicketEvent.ends t (.cancel t (.ok ())) = true := by simp [TicketEvent.ends]
    rw [Std.ExtTreeMap.getElem?_erase, Phase.record_next_of_ends hends hrecord]
    simp

/-- **The step lemma of the coordinator.** -/
theorem step (h : Tracks log c) (V : CodeInvalidator ι) (call : TicketCall)
    (hlt : consumed (log ++ [(c.step V call).1]) < 2 ^ 64) :
    Tracks (log ++ [(c.step V call).1]) (c.step V call).2 := by
  cases call with
  | begin key => exact h.step_begin V key hlt
  | claimEntry t key => exact h.step_claimEntry V t key
  | complete t => exact h.step_complete V t
  | cancel t => exact h.step_cancel V t
  | pendingCount =>
    exact h.idle (e := .pendingCount c.pendingCount) h.pendingCount_eq
      (fun _ => Phase.next_of_ticket_ne (by simp [TicketEvent.ticket]) _) rfl
      (h.next_of_not_usesTicket rfl)

end Tracks

/-- A call of `begin`. -/
def TicketCall.isBegin : TicketCall → Bool
  | .begin _ => true
  | _ => false

/-- A history uses no more tickets than it has calls of `begin`. -/
theorem consumed_runAll_le (V : CodeInvalidator ι) (calls : List TicketCall)
    (c : OriginalCallCoordinator ι) :
    consumed (runAll (OriginalCallCoordinator.step V) calls c).1 ≤
      calls.countP TicketCall.isBegin := by
  induction calls generalizing c with
  | nil => exact Nat.zero_le _
  | cons call calls ih =>
    have := ih (c.step V call).2
    rw [runAll_cons, consumed, List.countP_cons, List.countP_cons]
    refine Nat.add_le_add this ?_
    cases call with
    | begin key => simp only [TicketCall.isBegin, if_true]; split_ifs <;> simp
    | _ => exact Nat.zero_le _

/-- **The coordinator refines the life of its tickets** after every history with
fewer than `2^64` calls of `begin`. -/
theorem tracks_runCalls (V : CodeInvalidator ι) (calls : List TicketCall) (i : ι)
    (hlt : calls.countP TicketCall.isBegin < 2 ^ 64) :
    Tracks (OriginalCallCoordinator.runCalls V calls i).1
      (OriginalCallCoordinator.runCalls V calls i).2 := by
  refine runAll_preserves_log (I := fun log c => consumed log < 2 ^ 64 → Tracks log c)
    (fun call log c h hlog => ?_) calls (fun _ => ?_)
    ((consumed_runAll_le V calls _).trans_lt hlt)
  · have hle := Nat.le_add_right (consumed log) (if (c.step V call).1.usesTicket then 1 else 0)
    rw [← Tracks.consumed_concat] at hle
    exact (h (hle.trans_lt hlog)).step V call hlog
  · exact ⟨fun t => by simp [OriginalCallCoordinator.new, Phase.record],
      fun t ht => absurd rfl ht, rfl, everyPrefix_nil⟩

end Calls
end GcnPort
