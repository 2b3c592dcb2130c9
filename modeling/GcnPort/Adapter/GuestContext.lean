/-
# What a hook is given

`include/gcnport/guest_context.h` and `DolphinGuestContext` of
`src/dolphin_adapter.cpp`.  A hook may read and write the program counter, the link
register, the two register files and guest memory, and run the body it stands in for.
It is a program over these operations (`HookProgram`), and `guestContext` answers them
from Dolphin's state.

What belongs to Dolphin is a parameter: the paired single, the address map behind
`GetPointerForRange`, and `CallOriginalSynchronously`.  `Binding::Invoke` is
`noexcept`, so an exception that leaves the hook ends the process, as does a fault of
the body.
-/

import GcnPort.Adapter.RuntimeAdapter
import GcnPort.Foundation.Program

namespace GcnPort
namespace Adapter

open Execution Foundation Hooks PowerPC

/-- `HookAction`, an enumeration stored in an `int` that nothing checks. -/
structure HookAction where
  /-- The underlying `int`. -/
  value : Int32
deriving DecidableEq, Repr

namespace HookAction

def returnToCaller : HookAction := ⟨0⟩

def continueAtAddress : HookAction := ⟨1⟩

def callOriginalOnce : HookAction := ⟨2⟩

end HookAction

/-- `HookResult`. -/
structure HookResult where
  action : HookAction := .returnToCaller
  continuation : GuestAddress := 0
deriving DecidableEq, Repr

/-- `PowerPC::GcnPort::HookResult`, by the functions that make one. -/
inductive PowerPC.HookResult where
  | returnToCaller
  | continueAt (address : GuestAddress)
  | runOriginalOnce
deriving DecidableEq, Repr

/-- `to_dolphin(const HookResult &)`. -/
def resultToDolphin (result : HookResult) : PowerPC.HookResult :=
  if result.action = .returnToCaller then
    .returnToCaller
  else if result.action = .continueAtAddress then
    .continueAt result.continuation
  else if result.action = .callOriginalOnce then
    .runOriginalOnce
  else
    .runOriginalOnce

/-- An operation of `GuestContext`, where a `double` is a `D`. -/
inductive GuestOp (D : Type) where
  | programCounter
  | setProgramCounter (value : GuestAddress)
  | linkRegister
  | setLinkRegister (value : GuestAddress)
  | generalRegister (index : UInt64)
  | setGeneralRegister (index : UInt64) (value : UInt32)
  | floatingRegister (index : UInt64)
  | setFloatingRegister (index : UInt64) (value : D)
  | readMemory (address : GuestAddress) (size : ℕ)
  | writeMemory (address : GuestAddress) (source : List UInt8)
  | callOriginal (maximumInstructionCount : UInt32)
deriving DecidableEq, Repr

/-- What an operation returns or throws.  A read that fails leaves its destination
alone. -/
@[reducible]
def GuestOp.Answer {D : Type} : GuestOp D → Type
  | .programCounter | .linkRegister => GuestAddress
  | .setProgramCounter _ | .setLinkRegister _ => Unit
  | .generalRegister _ => Except Exception UInt32
  | .floatingRegister _ => Except Exception D
  | .setGeneralRegister _ _ | .setFloatingRegister _ _ => Except Exception Unit
  | .readMemory _ _ => Option (List UInt8)
  | .writeMemory _ _ => Bool
  | .callOriginal _ => InterpretedBlock

/-- One call of a hook: what it asks for, and what it returns or throws. -/
abbrev HookProgram (D : Type) :=
  Program (GuestOp.Answer (D := D)) (Except Exception HookResult)

/-- The members of `PowerPC::PowerPCState` that the adapter uses. -/
structure PowerPC.PowerPCState (P : Type) where
  pc : GuestAddress
  npc : GuestAddress
  spr : ℕ → UInt32
  gpr : Vector UInt32 32
  ps : Vector P 32

/-- Dolphin's state: the processor, the host memory behind guest memory, and the rest. -/
structure Machine (P ρ : Type) where
  state : PowerPCState P
  memory : Pointer → UInt8
  rest : ρ

/-- What the guest context uses of Dolphin. -/
structure Dolphin (D P ρ : Type) where
  ps0AsDouble : P → D
  setPS0 : D → P → P
  sprLR : ℕ
  getPointerForRange : GuestAddress → ℕ → ρ → Option Pointer
  callOriginalSynchronously : PowerPC.HookKey → UInt32 → Machine P ρ →
    Option (InterpretedBlock × Machine P ρ)

/-- `size` bytes from `source`. -/
def loadBytes (memory : Pointer → UInt8) (source : Pointer) (size : ℕ) : List UInt8 :=
  (List.range size).map fun i => memory (source + i)

/-- `memory` with `bytes` from `destination` on. -/
def storeBytes (memory : Pointer → UInt8) (destination : Pointer) (bytes : List UInt8) :
    Pointer → UInt8 := fun p =>
  if destination ≤ p then bytes[p - destination]?.getD (memory p) else memory p

/-- An index into a register file of `count` registers. -/
def checkedIndex (count : ℕ) (what : String) (index : UInt64) : Except Exception (Fin count) :=
  if h : index.toNat < count then .ok ⟨index.toNat, h⟩ else .error (.logicError what)

/-- `checked_register_index`.  `std::out_of_range` is a `std::logic_error`. -/
def checkedRegisterIndex (index : UInt64) : Except Exception (Fin 32) :=
  checkedIndex 32 "guest general register index out of range" index

/-- `checked_floating_register_index`. -/
def checkedFloatingRegisterIndex (index : UInt64) : Except Exception (Fin 32) :=
  checkedIndex 32 "guest floating-point register index out of range" index

namespace Machine

variable {P ρ : Type}

def setPc (m : Machine P ρ) (value : GuestAddress) : Machine P ρ :=
  { m with state := { m.state with pc := value, npc := value } }

def setSpr (m : Machine P ρ) (i : ℕ) (value : UInt32) : Machine P ρ :=
  { m with state := { m.state with spr := Function.update m.state.spr i value } }

def setGpr (m : Machine P ρ) (i : Fin 32) (value : UInt32) : Machine P ρ :=
  { m with state := { m.state with gpr := m.state.gpr.set i.val value i.isLt } }

def setPs (m : Machine P ρ) (i : Fin 32) (value : P) : Machine P ρ :=
  { m with state := { m.state with ps := m.state.ps.set i.val value i.isLt } }

end Machine

variable {D P ρ : Type}

/-- `DolphinGuestContext`, constructed with `key`. -/
def guestContext (E : Dolphin D P ρ) (key : PowerPC.HookKey) :
    Handler (GuestOp.Answer (D := D)) (Machine P ρ)
  | .programCounter, m => some (m.state.pc, m)
  | .setProgramCounter value, m => some ((), m.setPc value)
  | .linkRegister, m => some (m.state.spr E.sprLR, m)
  | .setLinkRegister value, m => some ((), m.setSpr E.sprLR value)
  | .generalRegister index, m =>
    match checkedRegisterIndex index with
    | .error e => some (.error e, m)
    | .ok i => some (.ok (m.state.gpr.get i), m)
  | .setGeneralRegister index value, m =>
    match checkedRegisterIndex index with
    | .error e => some (.error e, m)
    | .ok i => some (.ok (), m.setGpr i value)
  | .floatingRegister index, m =>
    match checkedFloatingRegisterIndex index with
    | .error e => some (.error e, m)
    | .ok i => some (.ok (E.ps0AsDouble (m.state.ps.get i)), m)
  | .setFloatingRegister index value, m =>
    match checkedFloatingRegisterIndex index with
    | .error e => some (.error e, m)
    | .ok i => some (.ok (), m.setPs i (E.setPS0 value (m.state.ps.get i)))
  | .readMemory address size, m =>
    match E.getPointerForRange address size m.rest with
    | none => some (none, m)
    | some source => some (some (loadBytes m.memory source size), m)
  | .writeMemory address source, m =>
    match E.getPointerForRange address source.length m.rest with
    | none => some (false, m)
    | some destination =>
      some (true, { m with memory := storeBytes m.memory destination source })
  | .callOriginal maximumInstructionCount, m =>
    E.callOriginalSynchronously key maximumInstructionCount m

/-- How a call of a hook ends. -/
inductive Invoked (D P ρ : Type) where
  | terminated
  | returned (result : PowerPC.HookResult) (asked : List (Asked (GuestOp.Answer (D := D))))
      (machine : Machine P ρ)

/-- `Binding::Invoke`.  A callable `φ` runs the program that `behaviour` says; an empty
`std::function` throws. -/
def Binding.invoke {φ : Type*} (E : Dolphin D P ρ) (behaviour : φ → HookProgram D)
    (binding : Binding φ) (m : Machine P ρ) : Invoked D P ρ :=
  match binding.hook with
  | none => .terminated
  | some hook =>
    match (behaviour hook).run (guestContext E binding.key) m with
    | none | some (.error _, _, _) => .terminated
    | some (.ok result, asked, m') => .returned (resultToDolphin result) asked m'

end Adapter
end GcnPort
