/-
# Execution types

`include/gcnport/execution_types.h`: the modes, the budgets, the answers a
backend gives, the counters of a session and the result of a run.

Counters and addresses keep the widths the header gives them (`std::uint64_t`,
`std::uint32_t`), so their arithmetic wraps as it does there.
`JitRefusalReason` is an `enum class` over `std::uint8_t`: every byte is a value
of it, four of them have a name, and `reasonIndex` reads the byte.
-/

import Mathlib.Data.Vector.Defs
import Mathlib.Tactic.Common

namespace GcnPort
namespace Execution

/-- An exception a constructor or an operation throws: the two standard classes
the sources use, with their texts, and whatever a collaborator throws. -/
inductive Exception where
  | invalidArgument (what : String)
  | logicError (what : String)
  | external (what : String)
deriving DecidableEq, Repr

/-- `GuestAddress`. -/
abbrev GuestAddress := UInt32

/-- `ExecutionMode`. -/
inductive ExecutionMode where
  | jit
  | diagnosticInterpreter
deriving DecidableEq, Repr

/-- `JitRefusalReason`: an enumeration stored in one byte that nothing checks,
so a backend can hand over any of the 256 values. -/
structure JitRefusalReason where
  /-- The underlying `std::uint8_t`. -/
  byte : UInt8
deriving DecidableEq, Repr

namespace JitRefusalReason

def unsupportedInstruction : JitRefusalReason := ⟨0⟩

def unsafeInstructionFetch : JitRefusalReason := ⟨1⟩

def unsafeHostExecution : JitRefusalReason := ⟨2⟩

def privilegedInstruction : JitRefusalReason := ⟨3⟩

end JitRefusalReason

/-- `kJitRefusalReasonCount`. -/
abbrev kJitRefusalReasonCount : ℕ := 4

/-- `reason_index`. -/
def reasonIndex (reason : JitRefusalReason) : ℕ := reason.byte.toNat

/-- `FallbackBudget`; all three limits are zero unless configured. -/
structure FallbackBudget where
  maximumBlocks : UInt64 := 0
  maximumTotalInstructions : UInt64 := 0
  maximumInstructionsPerBlock : UInt32 := 0
deriving DecidableEq, Repr

/-- `RuntimeConfiguration`. -/
structure RuntimeConfiguration where
  mode : ExecutionMode := .jit
  fallback : FallbackBudget := {}
  diagnosticInstructionsPerDispatch : UInt32 := 1
deriving DecidableEq, Repr

/-- `JitExecution`. -/
structure JitExecution where
  guestPc : GuestAddress := 0
  instructionCount : UInt32 := 0
  compiled : Bool := false
deriving DecidableEq, Repr

/-- `JitRefusal`. -/
structure JitRefusal where
  guestPc : GuestAddress := 0
  reason : JitRefusalReason := .unsupportedInstruction
deriving DecidableEq, Repr

/-- `BackendExit`. -/
structure BackendExit where
  detail : String := ""
deriving DecidableEq, Repr

/-- `BackendFault`. -/
structure BackendFault where
  guestPc : GuestAddress := 0
  detail : String := ""
deriving DecidableEq, Repr

/-- `JitStep`, the variant a backend answers `execute_jit_block` with. -/
inductive JitStep where
  | execution (execution : JitExecution)
  | refusal (refusal : JitRefusal)
  | exit (exit : BackendExit)
  | fault (fault : BackendFault)
deriving DecidableEq, Repr

/-- `InterpretedBlock`. -/
structure InterpretedBlock where
  guestPc : GuestAddress := 0
  instructionCount : UInt32 := 0
deriving DecidableEq, Repr

/-- `ExecutionStatistics`. -/
structure ExecutionStatistics where
  jitDispatches : UInt64 := 0
  jitBlocksCompiled : UInt64 := 0
  jitBlocksExecuted : UInt64 := 0
  jitInstructionsExecuted : UInt64 := 0
  fallbackBlocks : UInt64 := 0
  fallbackInstructions : UInt64 := 0
  fallbackBlocksByReason : Vector UInt64 kJitRefusalReasonCount := .replicate _ 0
  fallbackInstructionsByReason : Vector UInt64 kJitRefusalReasonCount := .replicate _ 0
  diagnosticInterpreterBlocks : UInt64 := 0
  diagnosticInterpreterInstructions : UInt64 := 0
deriving DecidableEq, Repr

/-- `RunStopReason`. -/
inductive RunStopReason where
  | backendExit
  | backendFault
  | dispatchBudgetExhausted
  | fallbackBudgetExceeded
  | invalidBackendResult
deriving DecidableEq, Repr

/-- `RunResult`. -/
structure RunResult where
  reason : RunStopReason := .backendExit
  guestPc : GuestAddress := 0
  detail : String := ""
  statistics : ExecutionStatistics := {}
deriving DecidableEq, Repr

end Execution
end GcnPort
