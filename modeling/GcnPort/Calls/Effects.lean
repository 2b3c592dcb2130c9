/-
# What a call does, step by step

`src/original_calls.cpp` again, this time for the order of things inside a call:
the invalidations it asks for, whether each returned, and the tickets that enter
and leave the table (`effects`).  That is the order in which the methods under
their mutex do these things (`Concurrent.effects_ticketMethod`).

`Bracket` is the abstract account: what a call may return and do, given the keys
of the tickets in the table before it.  Every call follows it, and its effects
are what it does to the table and asks of the invalidator (`accounted`).
Nothing later looks at the code again.
-/

import GcnPort.Calls.Coordinator

namespace GcnPort
namespace Calls

open Execution Foundation Hooks

/-- One thing a call does: it asks for an invalidation, which returns or throws,
or it changes the table. -/
inductive Effect where
  | invalidate (address : GuestAddress) (completed : Bool)
  | enter (ticket : OriginalCallTicket) (key : HookKey)
  | leave (ticket : OriginalCallTicket) (key : HookKey)
deriving DecidableEq, Repr

namespace Effect

/-- What an effect does to the keys of the tickets in the table. -/
def apply (keys : OriginalCallTicket → Option HookKey) :
    Effect → OriginalCallTicket → Option HookKey
  | .invalidate .. => keys
  | .enter t key => Function.update keys t (some key)
  | .leave t _ => Function.update keys t none

end Effect

/-- The keys after a list of effects. -/
def replay (effects : List Effect) (keys : OriginalCallTicket → Option HookKey) :
    OriginalCallTicket → Option HookKey :=
  effects.foldl Effect.apply keys

namespace OriginalCallCoordinator

variable {ι : Type*}

/-- The invalidator goes from `i` to `i'` through the invalidations among the
effects, and answers each as they say. -/
def Invalidates (V : CodeInvalidator ι) : List Effect → ι → ι → Prop
  | [], i, i' => i' = i
  | .invalidate address completed :: effects, i, i' =>
    (V.invalidateInstruction address i).1.isOk = completed ∧
      Invalidates V effects (V.invalidateInstruction address i).2 i'
  | .enter .. :: effects, i, i' | .leave .. :: effects, i, i' => Invalidates V effects i i'

/-- The effects of an invalidation, and of what comes after it if it returns. -/
def invalidating (V : CodeInvalidator ι) (address : GuestAddress) (i : ι)
    (after : List Effect) : List Effect :=
  match (V.invalidateInstruction address i).1 with
  | .error _ => [.invalidate address false]
  | .ok () => .invalidate address true :: after

/-- The effects of a call, in the order of the source.  `emplace` enters nothing
for a ticket that is in the table. -/
def effects (V : CodeInvalidator ι) (call : TicketCall) (c : OriginalCallCoordinator ι) :
    List Effect :=
  match call with
  | .begin key =>
    if !key.isValid then []
    else invalidating V key.address c.invalidator
      (if c.nextTicket ∈ c.tickets then [] else [.enter ⟨c.nextTicket⟩ key])
  | .claimEntry _ _ => []
  | .complete ticket =>
    match c.tickets[ticket.value]? with
    | none => []
    | some found =>
      if found.state ≠ .claimed then []
      else invalidating V found.key.address c.invalidator [.leave ticket found.key]
  | .cancel ticket =>
    match c.tickets[ticket.value]? with
    | none => []
    | some found =>
      invalidating V found.key.address c.invalidator [.leave ticket found.key]
  | .pendingCount => []

/-- The keys of the tickets in the table. -/
def keys (c : OriginalCallCoordinator ι) (t : OriginalCallTicket) : Option HookKey :=
  c.tickets[t.value]?.map TicketRecord.key

end OriginalCallCoordinator

/-- What a call may return and do, if the tickets in the table have these keys. -/
inductive Bracket (keys : OriginalCallTicket → Option HookKey) :
    TicketEvent → List Effect → Prop
  | begun (key : HookKey) (t : OriginalCallTicket) (free : keys t = none) :
      Bracket keys (.begin key (.ok t)) [.invalidate key.address true, .enter t key]
  | begunAgain (key : HookKey) (t : OriginalCallTicket) (taken : keys t ≠ none) :
      Bracket keys (.begin key (.ok t)) [.invalidate key.address true]
  | beginRejected (key : HookKey) (e : Exception) : Bracket keys (.begin key (.error e)) []
  | beginFailed (key : HookKey) (e : Exception) :
      Bracket keys (.begin key (.error e)) [.invalidate key.address false]
  | claimed (t : OriginalCallTicket) (key : HookKey) (stored : keys t = some key) :
      Bracket keys (.claimEntry t key true) []
  | notClaimed (t : OriginalCallTicket) (key : HookKey) : Bracket keys (.claimEntry t key false) []
  | completeRejected (t : OriginalCallTicket) (e : Exception) :
      Bracket keys (.complete t (.error e)) []
  | completeFailed (t : OriginalCallTicket) (key : HookKey) (e : Exception)
      (stored : keys t = some key) :
      Bracket keys (.complete t (.error e)) [.invalidate key.address false]
  | completed (t : OriginalCallTicket) (key : HookKey) (stored : keys t = some key) :
      Bracket keys (.complete t (.ok ())) [.invalidate key.address true, .leave t key]
  | cancelUnknown (t : OriginalCallTicket) (unknown : keys t = none) :
      Bracket keys (.cancel t (.ok ())) []
  | cancelFailed (t : OriginalCallTicket) (key : HookKey) (e : Exception)
      (stored : keys t = some key) :
      Bracket keys (.cancel t (.error e)) [.invalidate key.address false]
  | cancelled (t : OriginalCallTicket) (key : HookKey) (stored : keys t = some key) :
      Bracket keys (.cancel t (.ok ())) [.invalidate key.address true, .leave t key]
  | asked (n : ℕ) : Bracket keys (.pendingCount n) []

namespace OriginalCallCoordinator

variable {ι : Type*} {c : OriginalCallCoordinator ι}

/-- The keys are those of the stored records. -/
@[simp] theorem keys_mk (i : ι) (tickets : Std.ExtTreeMap UInt64 TicketRecord compare)
    (nextTicket : UInt64) (t : OriginalCallTicket) :
    keys ⟨i, tickets, nextTicket⟩ t = tickets[t.value]?.map TicketRecord.key := rfl

/-- A stored ticket has the key of its record. -/
theorem keys_of_stored {t : OriginalCallTicket} {key : HookKey} {state : TicketState}
    (h : c.tickets[t.value]? = some ⟨key, state⟩) : c.keys t = some key := by
  rw [keys, h]
  rfl

/-- Two tickets are the same if their values are. -/
theorem ticket_eq_iff {t t' : OriginalCallTicket} : t = t' ↔ t.value = t'.value := by
  cases t; cases t'; simp

/-- A change of the table at one ticket updates the keys there. -/
theorem keys_eq_update (c : OriginalCallCoordinator ι) (t : OriginalCallTicket)
    (record : Option TicketRecord) {i : ι}
    {tickets : Std.ExtTreeMap UInt64 TicketRecord compare} {nextTicket : UInt64}
    (h : ∀ v, tickets[v]? = if t.value = v then record else c.tickets[v]?) :
    keys ⟨i, tickets, nextTicket⟩ = Function.update c.keys t (record.map TicketRecord.key) := by
  funext t'
  rw [keys_mk, h, Function.update_apply]
  by_cases ht : t' = t
  · rw [if_pos ht, if_pos (ticket_eq_iff.1 ht.symm)]
  · rw [if_neg ht, if_neg fun h => ht (ticket_eq_iff.2 h.symm)]
    rfl

/-- Behind an invalidation that throws, nothing is done. -/
theorem invalidating_of_error {V : CodeInvalidator ι} {address : GuestAddress} {i i' : ι}
    {e : Exception} (h : V.invalidateInstruction address i = (.error e, i'))
    (after : List Effect) : invalidating V address i after = [.invalidate address false] := by
  rw [invalidating, h]

/-- Behind an invalidation that returns, the call goes on. -/
theorem invalidating_of_ok {V : CodeInvalidator ι} {address : GuestAddress} {i i' : ι}
    (h : V.invalidateInstruction address i = (.ok (), i')) (after : List Effect) :
    invalidating V address i after = .invalidate address true :: after := by
  rw [invalidating, h]

/-- A call did what it may do, and its effects are what it did to the table and
asked of the invalidator. -/
structure Accounted (V : CodeInvalidator ι) (call : TicketCall)
    (c : OriginalCallCoordinator ι) : Prop where
  bracket : Bracket c.keys (c.step V call).1 (c.effects V call)
  keys : (c.step V call).2.keys = replay (c.effects V call) c.keys
  invalidator : Invalidates V (c.effects V call) c.invalidator (c.step V call).2.invalidator

/-- An invalidation that throws moves the invalidator. -/
theorem invalidates_of_error {V : CodeInvalidator ι} {address : GuestAddress} {i i' : ι}
    {e : Exception} (h : V.invalidateInstruction address i = (.error e, i')) :
    Invalidates V [.invalidate address false] i i' := by
  simp [Invalidates, h, Except.isOk, Except.toBool]

/-- An invalidation that returns moves the invalidator, and then no other does. -/
theorem invalidates_of_ok {V : CodeInvalidator ι} {address : GuestAddress} {i i' : ι}
    (h : V.invalidateInstruction address i = (.ok (), i')) {after : List Effect}
    (hafter : Invalidates V after i' i') :
    Invalidates V (.invalidate address true :: after) i i' := by
  simpa [Invalidates, h, Except.isOk, Except.toBool] using hafter

/-- `begin` does what its effects say. -/
theorem accounted_begin (V : CodeInvalidator ι) (key : HookKey) (c : OriginalCallCoordinator ι) :
    c.Accounted V (.begin key) := by
  rcases begin_cases V key c with ⟨e, hk, hb⟩ | ⟨e, i, hk, hi, hb⟩ | ⟨i, hk, hi, hb⟩
  · have heffects : c.effects V (.begin key) = [] := by simp [effects, hk]
    constructor <;> rw [heffects, step, hb]
    · exact .beginRejected key e
    · rfl
    · rfl
  · have heffects : c.effects V (.begin key) = [.invalidate key.address false] := by
      simp [effects, hk, invalidating_of_error hi]
    constructor <;> rw [heffects, step, hb]
    · exact .beginFailed key e
    · rfl
    · exact invalidates_of_error hi
  · by_cases hmem : c.nextTicket ∈ c.tickets
    · have heffects : c.effects V (.begin key) = [.invalidate key.address true] := by
        simp [effects, hk, invalidating_of_ok hi, hmem]
      have hsame : c.tickets.insertIfNew c.nextTicket ⟨key, .pending⟩ = c.tickets := by
        ext v : 1
        rw [Std.ExtTreeMap.getElem?_insertIfNew]
        exact if_neg fun h => h.2 hmem
      constructor <;> rw [heffects, step, hb]
      · refine .begunAgain key _ ?_
        simpa [OriginalCallCoordinator.keys] using hmem
      · simp only [hsame]
        rfl
      · exact invalidates_of_ok hi rfl
    · have heffects : c.effects V (.begin key) =
          [.invalidate key.address true, .enter ⟨c.nextTicket⟩ key] := by
        simp [effects, hk, invalidating_of_ok hi, hmem]
      constructor <;> rw [heffects, step, hb]
      · refine .begun key _ ?_
        simpa [OriginalCallCoordinator.keys] using hmem
      · refine keys_eq_update c ⟨c.nextTicket⟩ (some ⟨key, .pending⟩) fun v => ?_
        rw [Std.ExtTreeMap.getElem?_insertIfNew]
        simp [hmem]
      · exact invalidates_of_ok hi rfl

/-- `claim_entry` does what its effects say. -/
theorem accounted_claimEntry (V : CodeInvalidator ι) (t : OriginalCallTicket) (key : HookKey)
    (c : OriginalCallCoordinator ι) : c.Accounted V (.claimEntry t key) := by
  rcases claimEntry_cases t key c with ⟨hf, hc⟩ | ⟨-, hc⟩ <;> constructor <;>
    rw [step, hc]
  · exact .claimed t key (keys_of_stored hf)
  · refine (keys_eq_update c t (some ⟨key, .claimed⟩) fun v => ?_).trans ?_
    · rw [Std.ExtTreeMap.getElem?_insert]
      simp
    · exact Function.update_eq_self_iff.2 (keys_of_stored hf).symm
  · rfl
  · exact .notClaimed t key
  · rfl
  · rfl

/-- `complete` does what its effects say. -/
theorem accounted_complete (V : CodeInvalidator ι) (t : OriginalCallTicket)
    (c : OriginalCallCoordinator ι) : c.Accounted V (.complete t) := by
  rcases complete_cases V t c with ⟨e, hf, hc⟩ | ⟨e, key, i, hf, hi, hc⟩ | ⟨key, i, hf, hi, hc⟩
  · have heffects : c.effects V (.complete t) = [] := by
      rcases hget : c.tickets[t.value]? with _ | ⟨key, _ | _⟩
      · simp [effects, hget]
      · simp [effects, hget]
      · exact absurd hget (hf key)
    constructor <;> rw [heffects, step, hc]
    · exact .completeRejected t e
    · rfl
    · rfl
  · have heffects : c.effects V (.complete t) = [.invalidate key.address false] := by
      simp [effects, hf, invalidating_of_error hi]
    constructor <;> rw [heffects, step, hc]
    · exact .completeFailed t key e (keys_of_stored hf)
    · rfl
    · exact invalidates_of_error hi
  · have heffects : c.effects V (.complete t) =
        [.invalidate key.address true, .leave t key] := by
      simp [effects, hf, invalidating_of_ok hi]
    constructor <;> rw [heffects, step, hc]
    · exact .completed t key (keys_of_stored hf)
    · refine keys_eq_update c t none fun v => ?_
      rw [Std.ExtTreeMap.getElem?_erase]
      simp
    · exact invalidates_of_ok hi rfl

/-- `cancel` does what its effects say. -/
theorem accounted_cancel (V : CodeInvalidator ι) (t : OriginalCallTicket)
    (c : OriginalCallCoordinator ι) : c.Accounted V (.cancel t) := by
  rcases cancel_cases V t c with ⟨hf, hc⟩ | ⟨e, found, i, hf, hi, hc⟩ | ⟨found, i, hf, hi, hc⟩
  · have heffects : c.effects V (.cancel t) = [] := by simp [effects, hf]
    constructor <;> rw [heffects, step, hc]
    · exact .cancelUnknown t (by rw [OriginalCallCoordinator.keys, hf]; rfl)
    · rfl
    · rfl
  · have heffects : c.effects V (.cancel t) = [.invalidate found.key.address false] := by
      simp [effects, hf, invalidating_of_error hi]
    constructor <;> rw [heffects, step, hc]
    · exact .cancelFailed t found.key e (keys_of_stored hf)
    · rfl
    · exact invalidates_of_error hi
  · have heffects : c.effects V (.cancel t) =
        [.invalidate found.key.address true, .leave t found.key] := by
      simp [effects, hf, invalidating_of_ok hi]
    constructor <;> rw [heffects, step, hc]
    · exact .cancelled t found.key (keys_of_stored hf)
    · refine keys_eq_update c t none fun v => ?_
      rw [Std.ExtTreeMap.getElem?_erase]
      simp
    · exact invalidates_of_ok hi rfl

/-- **The step lemma**: every call follows the account. -/
theorem accounted (V : CodeInvalidator ι) (call : TicketCall) (c : OriginalCallCoordinator ι) :
    c.Accounted V call := by
  cases call with
  | begin key => exact accounted_begin V key c
  | claimEntry t key => exact accounted_claimEntry V t key c
  | complete t => exact accounted_complete V t c
  | cancel t => exact accounted_cancel V t c
  | pendingCount => exact ⟨.asked c.pendingCount, rfl, rfl⟩

end OriginalCallCoordinator
end Calls
end GcnPort
