/-
# The methods under their locks

`NativeHookRegistry` guards its `Storage` with a `std::shared_mutex`, and
`OriginalCallCoordinator` its own with a `std::mutex`; both refer to one
`CodeInvalidator`, which no lock guards.  Here each method is the program that the
source writes (`hookMethod`, `ticketMethod`): the key is checked before
the lock is taken, each operation on the storage is a step, and so is the call of
the invalidator.

With nothing else running the methods do what the atomic model says, so the atomic
model on both objects at once, `Shared.step`, simulates them (`step_toWorld`); and what
the methods of the coordinator do on the way, in their order, are its `effects`
(`effects_ticketMethod`).
-/

import GcnPort.Calls.Effects
import GcnPort.Foundation.Linearizable

namespace GcnPort
namespace Concurrent

open Execution Foundation Hooks Calls

/-- What has a lock. -/
inductive Guarded where
  | registry
  | coordinator
deriving DecidableEq, Repr

/-- `NativeHookRegistry::Storage`, without its mutex. -/
abbrev HookStorage (φ : Type) := Std.ExtTreeMap HookKey (NativeHook φ) HookKey.cmp

/-- `OriginalCallCoordinator::Storage`, without its mutex. -/
structure TicketStorage where
  tickets : Std.ExtTreeMap UInt64 TicketRecord compare := ∅
  nextTicket : UInt64 := 1

/-- The members that a lock guards. -/
@[reducible]
def Storage (φ : Type) : Guarded → Type
  | .registry => HookStorage φ
  | .coordinator => TicketStorage

variable {ι : Type*} {φ : Type}

/-- The methods of `NativeHookRegistry`. -/
def hookMethod (V : CodeInvalidator ι) :
    HookCall φ → Method (HookStorage φ) ι (Except Exception Unit) (HookEvent φ)
  | .install key hook =>
    if !key.isValid then
      .reject (.install key hook (.error invalidKey))
    else if hook.isNone then
      .reject (.install key hook (.error emptyCallback))
    else
      .exclusive <| .effect (V.invalidateInstruction key.address) fun
        | .error e => .ret (.install key hook (.error e))
        | .ok () => .access (·.insert key hook) fun _ => .ret (.install key hook (.ok ()))
  | .remove key =>
    if !key.isValid then
      .reject (.remove key (.error invalidKey))
    else
      .exclusive <| .access id fun hooks =>
        if !hooks.contains key then
          .ret (.remove key (.ok false))
        else
          .effect (V.invalidateInstruction key.address) fun
            | .error e => .ret (.remove key (.error e))
            | .ok () => .access (·.erase key) fun _ => .ret (.remove key (.ok true))
  | .find key =>
    if !key.isValid then
      .reject (.find key (.error invalidKey))
    else
      .shared <| .read fun hooks =>
        if hooks.contains key then
          .read fun hooks => .ret (.find key (.ok hooks[key]?))
        else
          .ret (.find key (.ok none))
  | .size => .shared <| .read fun hooks => .ret (.size hooks.size)

/-- The methods of `OriginalCallCoordinator`. -/
def ticketMethod (V : CodeInvalidator ι) :
    TicketCall → Method TicketStorage ι (Except Exception Unit) TicketEvent
  | .begin key =>
    if !key.isValid then
      .reject (.begin key (.error (.invalidArgument
        "original call key requires an authenticated image and nonzero aligned PPC address")))
    else
      .exclusive <| .access (fun s => { s with nextTicket := s.nextTicket + 1 }) fun s =>
        .effect (V.invalidateInstruction key.address) fun
          | .error e => .ret (.begin key (.error e))
          | .ok () =>
            .access (fun s' => { s' with
              tickets := s'.tickets.insertIfNew s.nextTicket { key := key } }) fun _ =>
              .ret (.begin key (.ok ⟨s.nextTicket⟩))
  | .claimEntry ticket key =>
    .exclusive <| .access id fun s =>
      match s.tickets[ticket.value]? with
      | none => .ret (.claimEntry ticket key false)
      | some found =>
        if found.key ≠ key ∨ found.state ≠ .pending then
          .ret (.claimEntry ticket key false)
        else
          .access (fun s' => { s' with
            tickets := s'.tickets.insert ticket.value { found with state := .claimed } }) fun _ =>
            .ret (.claimEntry ticket key true)
  | .complete ticket =>
    let unclaimed := .logicError "original call ticket was not claimed exactly once"
    .exclusive <| .access id fun s =>
      match s.tickets[ticket.value]? with
      | none => .ret (.complete ticket (.error unclaimed))
      | some found =>
        if found.state ≠ .claimed then
          .ret (.complete ticket (.error unclaimed))
        else
          .effect (V.invalidateInstruction found.key.address) fun
            | .error e => .ret (.complete ticket (.error e))
            | .ok () =>
              .access (fun s' => { s' with tickets := s'.tickets.erase ticket.value }) fun _ =>
                .ret (.complete ticket (.ok ()))
  | .cancel ticket =>
    .exclusive <| .access id fun s =>
      match s.tickets[ticket.value]? with
      | none => .ret (.cancel ticket (.ok ()))
      | some found =>
        .effect (V.invalidateInstruction found.key.address) fun
          | .error e => .ret (.cancel ticket (.error e))
          | .ok () =>
            .access (fun s' => { s' with tickets := s'.tickets.erase ticket.value }) fun _ =>
              .ret (.cancel ticket (.ok ()))
  | .pendingCount => .exclusive <| .access id fun s => .ret (.pendingCount s.tickets.size)

/-- A call of either object. -/
inductive Call (φ : Type) where
  | hook (call : HookCall φ)
  | ticket (call : TicketCall)
deriving DecidableEq, Repr

/-- What a call of either object returned or threw. -/
inductive Event (φ : Type) where
  | hook (event : HookEvent φ)
  | ticket (event : TicketEvent)

/-- The object a call is about. -/
def Call.object : Call φ → Guarded
  | .hook _ => .registry
  | .ticket _ => .coordinator

/-- The methods of both objects. -/
def objects (V : CodeInvalidator ι) :
    Objects (Storage φ) ι (Except Exception Unit) (Call φ) (Event φ) where
  object := Call.object
  method
    | .hook call => (hookMethod V call).map .hook
    | .ticket call => (ticketMethod V call).map .ticket

/-- A registry and a coordinator that refer to one invalidator. -/
structure Shared (ι : Type*) (φ : Type) where
  invalidator : ι
  hooks : HookStorage φ := ∅
  tickets : TicketStorage := {}

namespace Shared

/-- The registry of the atomic model. -/
def registry (s : Shared ι φ) : NativeHookRegistry ι φ := ⟨s.invalidator, s.hooks⟩

/-- The coordinator of the atomic model. -/
def coordinator (s : Shared ι φ) : OriginalCallCoordinator ι :=
  ⟨s.invalidator, s.tickets.tickets, s.tickets.nextTicket⟩

/-- A call of the atomic model, on one of the objects. -/
def step (V : CodeInvalidator ι) (call : Call φ) (s : Shared ι φ) : Event φ × Shared ι φ :=
  match call with
  | .hook call =>
    let (event, r) := s.registry.step V call
    (.hook event, { s with invalidator := r.invalidator, hooks := r.hooks })
  | .ticket call =>
    let (event, c) := s.coordinator.step V call
    (.ticket event,
      { s with invalidator := c.invalidator, tickets := ⟨c.tickets, c.nextTicket⟩ })

/-- The members that the locks guard. -/
def toWorld (s : Shared ι φ) : World (Storage φ) ι where
  members
    | .registry => s.hooks
    | .coordinator => s.tickets
  collaborator := s.invalidator

end Shared

variable {V : CodeInvalidator ι}

/-- **The methods of the registry** do what the atomic model says. -/
theorem run_hookMethod (call : HookCall φ) (hooks : HookStorage φ) (i : ι) :
    (hookMethod V call).run hooks i =
      ((NativeHookRegistry.step V call ⟨i, hooks⟩).1,
        (NativeHookRegistry.step V call ⟨i, hooks⟩).2.hooks,
        (NativeHookRegistry.step V call ⟨i, hooks⟩).2.invalidator) := by
  cases call with
  | install key hook =>
    rw [hookMethod, NativeHookRegistry.step, NativeHookRegistry.install]
    split_ifs with hk hh
    · rfl
    · rfl
    · rcases hi : V.invalidateInstruction key.address i with ⟨e | ⟨⟩, i'⟩ <;>
        simp [Method.run, Body.run, Ending.run, hi]
  | remove key =>
    rw [hookMethod, NativeHookRegistry.step, NativeHookRegistry.remove]
    split_ifs with hk hc
    · rfl
    · have hc : hooks.contains key = false := by simpa using hc
      simp [Method.run, Body.run, hc]
    · have hc : hooks.contains key = true := by simpa using hc
      rcases hi : V.invalidateInstruction key.address i with ⟨e | ⟨⟩, i'⟩ <;>
        simp [Method.run, Body.run, Ending.run, hc, hi]
  | find key =>
    rw [hookMethod, NativeHookRegistry.step, NativeHookRegistry.find]
    split_ifs with hk
    · rfl
    · by_cases hc : hooks.contains key
      · simp [Method.run, Reading.run, hc]
      · have hnone : hooks[key]? = none := by simpa using hc
        simp [Method.run, Reading.run, hc, hnone]
  | size => rfl

/-- **The methods of the coordinator** do what the atomic model says. -/
theorem run_ticketMethod (call : TicketCall) (s : TicketStorage) (i : ι) :
    (ticketMethod V call).run s i =
      ((OriginalCallCoordinator.step V call ⟨i, s.tickets, s.nextTicket⟩).1,
        ⟨(OriginalCallCoordinator.step V call ⟨i, s.tickets, s.nextTicket⟩).2.tickets,
          (OriginalCallCoordinator.step V call ⟨i, s.tickets, s.nextTicket⟩).2.nextTicket⟩,
        (OriginalCallCoordinator.step V call ⟨i, s.tickets, s.nextTicket⟩).2.invalidator) := by
  cases call with
  | begin key =>
    rw [ticketMethod, OriginalCallCoordinator.step, OriginalCallCoordinator.begin]
    split_ifs with hk
    · rfl
    · rcases hi : V.invalidateInstruction key.address i with ⟨e | ⟨⟩, i'⟩ <;>
        simp [Method.run, Body.run, Ending.run, hi]
  | claimEntry ticket key =>
    rw [ticketMethod, OriginalCallCoordinator.step, OriginalCallCoordinator.claimEntry]
    cases hf : s.tickets[ticket.value]? with
    | none => simp [Method.run, Body.run, hf]
    | some found =>
      by_cases h : found.key ≠ key ∨ found.state ≠ .pending
      · simp [Method.run, Body.run, hf, h]
      · simp [Method.run, Body.run, hf, h]
  | complete ticket =>
    rw [ticketMethod, OriginalCallCoordinator.step, OriginalCallCoordinator.complete]
    cases hf : s.tickets[ticket.value]? with
    | none => simp [Method.run, Body.run, hf]
    | some found =>
      by_cases h : found.state ≠ .claimed
      · simp [Method.run, Body.run, hf, h]
      · rcases hi : V.invalidateInstruction found.key.address i with ⟨e | ⟨⟩, i'⟩ <;>
          simp [Method.run, Body.run, Ending.run, hf, h, hi]
  | cancel ticket =>
    rw [ticketMethod, OriginalCallCoordinator.step, OriginalCallCoordinator.cancel]
    cases hf : s.tickets[ticket.value]? with
    | none => simp [Method.run, Body.run, hf]
    | some found =>
      rcases hi : V.invalidateInstruction found.key.address i with ⟨e | ⟨⟩, i'⟩ <;>
        simp [Method.run, Body.run, Ending.run, hf, hi]
  | pendingCount => rfl

/-- The keys of the tickets in the table. -/
def TicketStorage.keys (s : TicketStorage) (t : OriginalCallTicket) : Option HookKey :=
  s.tickets[t.value]?.map TicketRecord.key

/-- A change of the table at one ticket updates the keys there. -/
theorem TicketStorage.keys_eq_update {s s' : TicketStorage} (t : OriginalCallTicket)
    (record : Option TicketRecord)
    (h : ∀ v, s'.tickets[v]? = if t.value = v then record else s.tickets[v]?) :
    s'.keys = Function.update s.keys t (record.map TicketRecord.key) := by
  have hkeys : OriginalCallCoordinator.keys ⟨(), s'.tickets, s'.nextTicket⟩ = _ :=
    OriginalCallCoordinator.keys_eq_update ⟨(), s.tickets, s.nextTicket⟩ t record h
  exact hkeys

/-- What a method does shows as these effects, one by one and in their order: a call of the
invalidator as an invalidation, and a change of the keys in the table as a ticket that
enters or leaves. -/
inductive Shows (V : CodeInvalidator ι) :
    List (Deed TicketStorage ι (Except Exception Unit)) → List Effect → Prop
  | nil : Shows V [] []
  | silent {s s' : TicketStorage} {deeds effects} (same : s'.keys = s.keys)
      (rest : Shows V deeds effects) : Shows V (.access s s' :: deeds) effects
  | enter {s s' : TicketStorage} {deeds effects} (t : OriginalCallTicket) (key : HookKey)
      (free : s.keys t = none) (change : s'.keys = Function.update s.keys t (some key))
      (rest : Shows V deeds effects) : Shows V (.access s s' :: deeds) (.enter t key :: effects)
  | leave {s s' : TicketStorage} {deeds effects} (t : OriginalCallTicket) (key : HookKey)
      (stored : s.keys t = some key) (change : s'.keys = Function.update s.keys t none)
      (rest : Shows V deeds effects) : Shows V (.access s s' :: deeds) (.leave t key :: effects)
  | invalidate {deeds effects} (address : GuestAddress) (i : ι) (rest : Shows V deeds effects) :
      Shows V (.effect (V.invalidateInstruction address) i :: deeds)
        (.invalidate address (V.invalidateInstruction address i).1.isOk :: effects)

/-- An invalidation that returns shows with what comes behind it. -/
theorem Shows.invalidating_ok {address : GuestAddress} {i i' : ι}
    (h : V.invalidateInstruction address i = (.ok (), i'))
    {deeds : List (Deed TicketStorage ι (Except Exception Unit))} {effects : List Effect}
    (rest : Shows V deeds effects) : Shows V (.effect (V.invalidateInstruction address) i :: deeds)
      (OriginalCallCoordinator.invalidating V address i effects) := by
  have hshows := Shows.invalidate address i rest
  rw [h] at hshows
  rwa [OriginalCallCoordinator.invalidating_of_ok h]

/-- An invalidation that throws is all that shows. -/
theorem Shows.invalidating_error {address : GuestAddress} {i i' : ι} {e : Exception}
    (h : V.invalidateInstruction address i = (.error e, i')) (effects : List Effect) :
    Shows V [.effect (V.invalidateInstruction address) i]
      (OriginalCallCoordinator.invalidating V address i effects) := by
  have hshows := Shows.invalidate (V := V) address i .nil
  rw [h] at hshows
  rwa [OriginalCallCoordinator.invalidating_of_error h]

/-- A ticket that is erased leaves. -/
theorem Shows.erase {s : TicketStorage} {ticket : OriginalCallTicket} {found : TicketRecord}
    (hf : s.tickets[ticket.value]? = some found) :
    Shows V [.access s { s with tickets := s.tickets.erase ticket.value }]
      [.leave ticket found.key] := by
  refine .leave ticket found.key (by rw [TicketStorage.keys, hf]; rfl)
    (TicketStorage.keys_eq_update ticket none fun v => ?_) .nil
  rw [Std.ExtTreeMap.getElem?_erase]
  simp

/-- A ticket that is stored enters, unless it is in the table already. -/
theorem Shows.emplace (s : TicketStorage) (ticket : OriginalCallTicket) (key : HookKey) :
    Shows V [.access s { s with tickets := s.tickets.insertIfNew ticket.value { key := key } }]
      (if ticket.value ∈ s.tickets then [] else [.enter ticket key]) := by
  split_ifs with hmem
  · refine .silent (funext fun t => ?_) .nil
    rw [TicketStorage.keys, TicketStorage.keys, Std.ExtTreeMap.getElem?_insertIfNew,
      if_neg fun h => h.2 hmem]
  · refine .enter ticket key (by simpa [TicketStorage.keys] using hmem)
      (TicketStorage.keys_eq_update ticket (some { key := key }) fun v => ?_) .nil
    rw [Std.ExtTreeMap.getElem?_insertIfNew]
    simp [hmem]

/-- A ticket that is claimed neither enters nor leaves. -/
theorem Shows.claim {s : TicketStorage} {ticket : OriginalCallTicket} {found : TicketRecord}
    (hf : s.tickets[ticket.value]? = some found) :
    Shows V [.access s { s with
      tickets := s.tickets.insert ticket.value { found with state := .claimed } }] [] := by
  refine .silent ((TicketStorage.keys_eq_update ticket (some { found with state := .claimed })
    fun v => ?_).trans (Function.update_eq_self_iff.2 ?_)) .nil
  · rw [Std.ExtTreeMap.getElem?_insert]
    simp
  · rw [TicketStorage.keys, hf]
    rfl

/-- **The effects of a call are what its method does**, in the order of the method. -/
theorem shows_effects (call : TicketCall) (s : TicketStorage) (i : ι) :
    Shows V ((ticketMethod V call).deeds s i)
      (OriginalCallCoordinator.effects V call ⟨i, s.tickets, s.nextTicket⟩) := by
  cases call with
  | begin key =>
    rw [ticketMethod, OriginalCallCoordinator.effects]
    cases hk : key.isValid with
    | false => exact .nil
    | true =>
      refine .silent rfl ?_
      rcases hi : V.invalidateInstruction key.address i with ⟨e | ⟨⟩, i'⟩
      · simpa [hi, Body.deeds, Ending.deeds] using .invalidating_error hi _
      · simpa [hi, Body.deeds, Ending.deeds] using .invalidating_ok hi
          (.emplace { s with nextTicket := s.nextTicket + 1 } ⟨s.nextTicket⟩ key)
  | claimEntry ticket key =>
    rw [OriginalCallCoordinator.effects]
    refine .silent rfl ?_
    cases hf : s.tickets[ticket.value]? with
    | none => simpa [hf] using .nil
    | some found =>
      by_cases h : found.key ≠ key ∨ found.state ≠ .pending
      · simpa [hf, h, Body.deeds] using .nil
      · simpa [hf, h, Body.deeds] using .claim hf
  | complete ticket =>
    rw [OriginalCallCoordinator.effects]
    refine .silent rfl ?_
    cases hf : s.tickets[ticket.value]? with
    | none => simpa [hf] using .nil
    | some found =>
      by_cases h : found.state ≠ .claimed
      · simpa [hf, h, Body.deeds] using .nil
      · rcases hi : V.invalidateInstruction found.key.address i with ⟨e | ⟨⟩, i'⟩
        · simpa [hf, h, hi, Body.deeds, Ending.deeds] using .invalidating_error hi _
        · simpa [hf, h, hi, Body.deeds, Ending.deeds] using .invalidating_ok hi (.erase hf)
  | cancel ticket =>
    rw [OriginalCallCoordinator.effects]
    refine .silent rfl ?_
    cases hf : s.tickets[ticket.value]? with
    | none => simpa [hf] using .nil
    | some found =>
      rcases hi : V.invalidateInstruction found.key.address i with ⟨e | ⟨⟩, i'⟩
      · simpa [hf, hi, Body.deeds, Ending.deeds] using .invalidating_error hi _
      · simpa [hf, hi, Body.deeds, Ending.deeds] using .invalidating_ok hi (.erase hf)
  | pendingCount => exact .silent rfl .nil

/-- **A call goes from one state of the atomic model to the next** by what its method does,
and shows as its effects on the way. -/
theorem effects_ticketMethod (call : TicketCall) (c : OriginalCallCoordinator ι) :
    ∃ deeds, deeds = (ticketMethod V call).deeds ⟨c.tickets, c.nextTicket⟩ c.invalidator ∧
      Shows V deeds (c.effects V call) ∧
        deeds.foldl Deed.after (⟨c.tickets, c.nextTicket⟩, c.invalidator) =
          (⟨(c.step V call).2.tickets, (c.step V call).2.nextTicket⟩,
            (c.step V call).2.invalidator) := by
  refine ⟨_, rfl, shows_effects call _ _, ?_⟩
  rw [Method.foldl_deeds, run_ticketMethod]

/-- **The atomic model simulates the methods.** -/
theorem step_toWorld (call : Call φ) (s : Shared ι φ) :
    (objects V).step call s.toWorld = ((s.step V call).1, (s.step V call).2.toWorld) := by
  cases call with
  | hook call =>
    have hrun := (hookMethod V call).run_map Event.hook s.hooks s.invalidator
    rw [run_hookMethod] at hrun
    exact step_eq hrun (funext fun o => by cases o <;> rfl)
  | ticket call =>
    have hrun := (ticketMethod V call).run_map (Event.ticket : _ → Event φ) s.tickets s.invalidator
    rw [run_ticketMethod] at hrun
    exact step_eq hrun (funext fun o => by cases o <;> rfl)

end Concurrent
end GcnPort
