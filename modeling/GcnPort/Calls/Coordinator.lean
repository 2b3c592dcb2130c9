/-
# The original call coordinator

`include/gcnport/original_calls.h` and `src/original_calls.cpp`.  A ticket is
taken from a counter, stored once the code at its key's address has been
invalidated, claimed in place, and erased by `complete` or `cancel` after
another invalidation.  The invalidator may throw at any of its calls: a `begin`
that fails so has used up its ticket, and a `complete` or `cancel` that fails
so has changed nothing.
-/

import GcnPort.Hooks.Registry

namespace GcnPort
namespace Calls

open Execution Foundation Hooks

/-- `TicketState`. -/
inductive TicketState where
  | pending
  | claimed
deriving DecidableEq, Repr

/-- `TicketRecord`. -/
structure TicketRecord where
  key : HookKey
  state : TicketState := .pending
deriving DecidableEq, Repr

/-- `OriginalCallTicket`. -/
structure OriginalCallTicket where
  value : UInt64 := 0
deriving DecidableEq, Repr

/-- `OriginalCallCoordinator`, with the state of the invalidator it refers to. -/
structure OriginalCallCoordinator (ι : Type*) where
  invalidator : ι
  tickets : Std.ExtTreeMap UInt64 TicketRecord compare
  nextTicket : UInt64

namespace OriginalCallCoordinator

variable {ι : Type*}

/-- The constructor `OriginalCallCoordinator(invalidator)`. -/
def new (invalidator : ι) : OriginalCallCoordinator ι where
  invalidator := invalidator
  tickets := ∅
  nextTicket := 1

/-- `OriginalCallCoordinator::begin`. -/
def begin (V : CodeInvalidator ι) (key : HookKey) (c : OriginalCallCoordinator ι) :
    Except Exception OriginalCallTicket × OriginalCallCoordinator ι :=
  if !key.isValid then
    (.error (.invalidArgument
      "original call key requires an authenticated image and nonzero aligned PPC address"), c)
  else
    let ticket : OriginalCallTicket := ⟨c.nextTicket⟩
    let c := { c with nextTicket := c.nextTicket + 1 }
    match V.invalidateInstruction key.address c.invalidator with
    | (.error e, invalidator) => (.error e, { c with invalidator })
    | (.ok (), invalidator) =>
      (.ok ticket,
        { c with invalidator, tickets := c.tickets.insertIfNew ticket.value { key := key } })

/-- `OriginalCallCoordinator::claim_entry`. -/
def claimEntry (ticket : OriginalCallTicket) (key : HookKey) (c : OriginalCallCoordinator ι) :
    Bool × OriginalCallCoordinator ι :=
  match c.tickets[ticket.value]? with
  | none => (false, c)
  | some found =>
    if found.key ≠ key ∨ found.state ≠ .pending then
      (false, c)
    else
      (true, { c with tickets := c.tickets.insert ticket.value { found with state := .claimed } })

/-- `OriginalCallCoordinator::complete`. -/
def complete (V : CodeInvalidator ι) (ticket : OriginalCallTicket)
    (c : OriginalCallCoordinator ι) : Except Exception Unit × OriginalCallCoordinator ι :=
  let unclaimed := .logicError "original call ticket was not claimed exactly once"
  match c.tickets[ticket.value]? with
  | none => (.error unclaimed, c)
  | some found =>
    if found.state ≠ .claimed then
      (.error unclaimed, c)
    else
      match V.invalidateInstruction found.key.address c.invalidator with
      | (.error e, invalidator) => (.error e, { c with invalidator })
      | (.ok (), invalidator) =>
        (.ok (), { c with invalidator, tickets := c.tickets.erase ticket.value })

/-- `OriginalCallCoordinator::cancel`. -/
def cancel (V : CodeInvalidator ι) (ticket : OriginalCallTicket)
    (c : OriginalCallCoordinator ι) : Except Exception Unit × OriginalCallCoordinator ι :=
  match c.tickets[ticket.value]? with
  | none => (.ok (), c)
  | some found =>
    match V.invalidateInstruction found.key.address c.invalidator with
    | (.error e, invalidator) => (.error e, { c with invalidator })
    | (.ok (), invalidator) =>
      (.ok (), { c with invalidator, tickets := c.tickets.erase ticket.value })

/-- `OriginalCallCoordinator::pending_count`. -/
def pendingCount (c : OriginalCallCoordinator ι) : ℕ := c.tickets.size

end OriginalCallCoordinator

/-- A call of the coordinator's interface, with any ticket and any key. -/
inductive TicketCall where
  | begin (key : HookKey)
  | claimEntry (ticket : OriginalCallTicket) (key : HookKey)
  | complete (ticket : OriginalCallTicket)
  | cancel (ticket : OriginalCallTicket)
  | pendingCount
deriving DecidableEq, Repr

/-- A call and what it returned or threw. -/
inductive TicketEvent where
  | begin (key : HookKey) (answer : Except Exception OriginalCallTicket)
  | claimEntry (ticket : OriginalCallTicket) (key : HookKey) (answer : Bool)
  | complete (ticket : OriginalCallTicket) (answer : Except Exception Unit)
  | cancel (ticket : OriginalCallTicket) (answer : Except Exception Unit)
  | pendingCount (answer : ℕ)

/-- The call threw. -/
def TicketEvent.threw : TicketEvent → Bool
  | .begin _ (.error _) | .complete _ (.error _) | .cancel _ (.error _) => true
  | _ => false

namespace OriginalCallCoordinator

variable {ι : Type*}

/-- One call. -/
def step (V : CodeInvalidator ι) (call : TicketCall) (c : OriginalCallCoordinator ι) :
    TicketEvent × OriginalCallCoordinator ι :=
  match call with
  | .begin key =>
    let (answer, c) := c.begin V key
    (.begin key answer, c)
  | .claimEntry ticket key =>
    let (answer, c) := c.claimEntry ticket key
    (.claimEntry ticket key answer, c)
  | .complete ticket =>
    let (answer, c) := c.complete V ticket
    (.complete ticket answer, c)
  | .cancel ticket =>
    let (answer, c) := c.cancel V ticket
    (.cancel ticket answer, c)
  | .pendingCount => (.pendingCount c.pendingCount, c)

/-- The coordinator after a history of calls, with the log of the history. -/
def runCalls (V : CodeInvalidator ι) (calls : List TicketCall) (i : ι) :
    List TicketEvent × OriginalCallCoordinator ι :=
  runAll (step V) calls (new i)

/-- **What `begin` can do**: reject the key, use up a ticket and fail with the
invalidator, or store a ticket and return it. -/
theorem begin_cases (V : CodeInvalidator ι) (key : HookKey) (c : OriginalCallCoordinator ι) :
    (∃ e, key.isValid = false ∧ c.begin V key = (.error e, c)) ∨
    (∃ e i, key.isValid = true ∧
      V.invalidateInstruction key.address c.invalidator = (.error e, i) ∧
      c.begin V key = (.error e, ⟨i, c.tickets, c.nextTicket + 1⟩)) ∨
    ∃ i, key.isValid = true ∧
      V.invalidateInstruction key.address c.invalidator = (.ok (), i) ∧
      c.begin V key = (.ok ⟨c.nextTicket⟩,
        ⟨i, c.tickets.insertIfNew c.nextTicket ⟨key, .pending⟩, c.nextTicket + 1⟩) := by
  unfold begin
  cases hk : key.isValid
  · exact .inl ⟨_, rfl, rfl⟩
  · rcases hi : V.invalidateInstruction key.address c.invalidator with ⟨e | ⟨⟩, i⟩
    · exact .inr (.inl ⟨e, i, rfl, rfl, by simp [hi]⟩)
    · exact .inr (.inr ⟨i, rfl, rfl, by simp [hi]⟩)

/-- **What `claimEntry` can do**: mark a pending ticket of that very key, or
say no. -/
theorem claimEntry_cases (ticket : OriginalCallTicket) (key : HookKey)
    (c : OriginalCallCoordinator ι) :
    (c.tickets[ticket.value]? = some ⟨key, .pending⟩ ∧ c.claimEntry ticket key =
      (true, { c with tickets := c.tickets.insert ticket.value ⟨key, .claimed⟩ })) ∨
    (c.tickets[ticket.value]? ≠ some ⟨key, .pending⟩ ∧
      c.claimEntry ticket key = (false, c)) := by
  unfold claimEntry
  cases hf : c.tickets[ticket.value]? with
  | none => exact .inr ⟨(nomatch ·), rfl⟩
  | some found =>
    obtain ⟨key', state⟩ := found
    by_cases h : key' = key ∧ state = .pending
    · obtain ⟨rfl, rfl⟩ := h
      exact .inl ⟨rfl, by simp⟩
    · exact .inr ⟨by simpa using h, if_pos (not_and_or.1 h)⟩

/-- **What `complete` can do**: throw unless the ticket is claimed, fail with
the invalidator, or erase the ticket. -/
theorem complete_cases (V : CodeInvalidator ι) (ticket : OriginalCallTicket)
    (c : OriginalCallCoordinator ι) :
    (∃ e, (∀ key, c.tickets[ticket.value]? ≠ some ⟨key, .claimed⟩) ∧
      c.complete V ticket = (.error e, c)) ∨
    (∃ e key i, c.tickets[ticket.value]? = some ⟨key, .claimed⟩ ∧
      V.invalidateInstruction key.address c.invalidator = (.error e, i) ∧
      c.complete V ticket = (.error e, { c with invalidator := i })) ∨
    ∃ key i, c.tickets[ticket.value]? = some ⟨key, .claimed⟩ ∧
      V.invalidateInstruction key.address c.invalidator = (.ok (), i) ∧
      c.complete V ticket = (.ok (), ⟨i, c.tickets.erase ticket.value, c.nextTicket⟩) := by
  unfold complete
  cases hf : c.tickets[ticket.value]? with
  | none => exact .inl ⟨_, fun _ => (nomatch ·), rfl⟩
  | some found =>
    obtain ⟨key, _ | _⟩ := found
    · exact .inl ⟨_, by simp, rfl⟩
    · rcases hi : V.invalidateInstruction key.address c.invalidator with ⟨e | ⟨⟩, i⟩
      · exact .inr (.inl ⟨e, key, i, rfl, hi, by simp [hi]⟩)
      · exact .inr (.inr ⟨key, i, rfl, hi, by simp [hi]⟩)

/-- **What `cancel` can do**: find nothing, fail with the invalidator, or erase
the ticket. -/
theorem cancel_cases (V : CodeInvalidator ι) (ticket : OriginalCallTicket)
    (c : OriginalCallCoordinator ι) :
    (c.tickets[ticket.value]? = none ∧ c.cancel V ticket = (.ok (), c)) ∨
    (∃ e found i, c.tickets[ticket.value]? = some found ∧
      V.invalidateInstruction found.key.address c.invalidator = (.error e, i) ∧
      c.cancel V ticket = (.error e, { c with invalidator := i })) ∨
    ∃ found i, c.tickets[ticket.value]? = some found ∧
      V.invalidateInstruction found.key.address c.invalidator = (.ok (), i) ∧
      c.cancel V ticket = (.ok (), ⟨i, c.tickets.erase ticket.value, c.nextTicket⟩) := by
  unfold cancel
  cases hf : c.tickets[ticket.value]? with
  | none => exact .inl ⟨rfl, rfl⟩
  | some found =>
    rcases hi : V.invalidateInstruction found.key.address c.invalidator with ⟨e | ⟨⟩, i⟩
    · exact .inr (.inl ⟨e, found, i, rfl, hi, by simp [hi]⟩)
    · exact .inr (.inr ⟨found, i, rfl, hi, by simp [hi]⟩)

/-- **A call that throws leaves all tickets as they were.** -/
theorem tickets_step_of_threw (V : CodeInvalidator ι) (call : TicketCall)
    (c : OriginalCallCoordinator ι) (h : (c.step V call).1.threw = true) :
    (c.step V call).2.tickets = c.tickets := by
  cases call with
  | begin key =>
    rcases begin_cases V key c with ⟨e, -, hb⟩ | ⟨e, i, -, -, hb⟩ | ⟨i, -, -, hb⟩ <;>
      simp_all [step, TicketEvent.threw]
  | claimEntry ticket key => cases h
  | complete ticket =>
    rcases complete_cases V ticket c with ⟨e, -, hc⟩ | ⟨e, key, i, -, -, hc⟩ |
      ⟨key, i, -, -, hc⟩ <;> simp_all [step, TicketEvent.threw]
  | cancel ticket =>
    rcases cancel_cases V ticket c with ⟨-, hc⟩ | ⟨e, found, i, -, -, hc⟩ |
      ⟨found, i, -, -, hc⟩ <;> simp_all [step, TicketEvent.threw]
  | pendingCount => cases h

end OriginalCallCoordinator
end Calls
end GcnPort
