/-
# Dolphin as a backend

The other half of `src/dolphin_adapter.cpp`: `DolphinRuntimeAdapter` answers
`RuntimeBackend` and `CodeInvalidator` from Dolphin's session, and crosses between the
two vocabularies.

`PowerPC::GcnPort::JitBlockKind` is an enumeration of the submodule.  Four of its values
are named in the switch of `execute_jit_block`; the others are `other`.
-/

import GcnPort.Adapter.RuntimeAdapter
import GcnPort.Execution.Throwing

namespace GcnPort
namespace Adapter

open Execution Foundation Hooks PowerPC

namespace PowerPC

/-- `PowerPC::GcnPort::JitBlockKind`. -/
inductive JitBlockKind where
  | compiled
  | cacheHit
  | refused
  | backendFault
  | other (value : ℤ)
deriving DecidableEq, Repr

/-- `PowerPC::GcnPort::JitRefusalReason`, stored in one byte. -/
structure JitRefusalReason where
  /-- The underlying `std::uint8_t`. -/
  byte : UInt8
deriving DecidableEq, Repr

/-- `PowerPC::GcnPort::JitBlockOutcome`. -/
structure JitBlockOutcome where
  kind : JitBlockKind
  guestPc : GuestAddress := 0
  instructionCount : UInt32 := 0
  refusalReason : JitRefusalReason := ⟨0⟩
  detail : String := ""
deriving DecidableEq, Repr

/-- `PowerPC::GcnPort::InterpretedBlockResult`. -/
structure InterpretedBlockResult where
  guestPc : GuestAddress
  instructionCount : UInt32
deriving DecidableEq, Repr

/-- `PowerPC::GcnPort::RuntimeSession`, as far as the adapter reaches it: the hooks, and
what executes guest code. -/
structure ExecutingSession (σ : Type*) extends RuntimeSession σ where
  executeJitBlock : σ → Except Exception JitBlockOutcome × σ
  executeRefusedBlock : GuestAddress → UInt32 → σ →
    Except Exception InterpretedBlockResult × σ
  executeDiagnosticInterpreterBlock : UInt32 → σ → Except Exception InterpretedBlockResult × σ
  invalidateGuestCode : GuestAddress → UInt32 → σ → σ
  getExecutionIdentity : σ → ExecutionIdentity

/-- Only the hook operations change the table. -/
structure ExecutingSession.KeepsTable {σ : Type*} (S : ExecutingSession σ) : Prop where
  executeJitBlock : ∀ s, S.hookTable (S.executeJitBlock s).2 = S.hookTable s
  executeRefusedBlock : ∀ guestPc limit s,
    S.hookTable (S.executeRefusedBlock guestPc limit s).2 = S.hookTable s
  executeDiagnosticInterpreterBlock : ∀ limit s,
    S.hookTable (S.executeDiagnosticInterpreterBlock limit s).2 = S.hookTable s
  invalidateGuestCode : ∀ address size s,
    S.hookTable (S.invalidateGuestCode address size s) = S.hookTable s

end PowerPC

/-- `to_gcnport(PowerPC::GcnPort::JitRefusalReason)`. -/
def reasonToGcnport (reason : PowerPC.JitRefusalReason) : Execution.JitRefusalReason :=
  ⟨reason.byte⟩

/-- `to_dolphin(JitRefusalReason)`. -/
def reasonToDolphin (reason : Execution.JitRefusalReason) : PowerPC.JitRefusalReason :=
  ⟨reason.byte⟩

/-- `to_gcnport(const PowerPC::GcnPort::ImageIdentity &)`. -/
def imageToGcnport (image : PowerPC.ImageIdentity) : Hooks.ImageIdentity :=
  ⟨image.sha256⟩

/-- The switch of `DolphinRuntimeAdapter::execute_jit_block`. -/
def jitStep (outcome : JitBlockOutcome) : JitStep :=
  match outcome.kind with
  | .compiled => .execution ⟨outcome.guestPc, outcome.instructionCount, true⟩
  | .cacheHit => .execution ⟨outcome.guestPc, outcome.instructionCount, false⟩
  | .refused => .refusal ⟨outcome.guestPc, reasonToGcnport outcome.refusalReason⟩
  | .backendFault => .fault ⟨outcome.guestPc, outcome.detail⟩
  | .other _ => .fault ⟨outcome.guestPc, "Dolphin reported an unknown JitBlockKind"⟩

/-- What the adapter makes of a block that Dolphin interpreted. -/
def interpretedBlock (result : InterpretedBlockResult) : InterpretedBlock :=
  ⟨result.guestPc, result.instructionCount⟩

namespace DolphinRuntimeAdapter

variable {σ : Type*} {φ : Type*}

/-- `DolphinRuntimeAdapter::execute_jit_block`. -/
def executeJitBlock (S : ExecutingSession σ) (s : DolphinRuntimeAdapter σ φ) :
    Except Exception JitStep × DolphinRuntimeAdapter σ φ :=
  let (outcome, session) := S.executeJitBlock s.session
  (outcome.map jitStep, { s with session })

/-- `DolphinRuntimeAdapter::execute_refused_block`. -/
def executeRefusedBlock (S : ExecutingSession σ) (refusal : JitRefusal)
    (maximumInstructionCount : UInt32) (s : DolphinRuntimeAdapter σ φ) :
    Except Exception InterpretedBlock × DolphinRuntimeAdapter σ φ :=
  let (result, session) :=
    S.executeRefusedBlock refusal.guestPc maximumInstructionCount s.session
  (result.map interpretedBlock, { s with session })

/-- `DolphinRuntimeAdapter::execute_diagnostic_interpreter_block`. -/
def executeDiagnosticInterpreterBlock (S : ExecutingSession σ) (maximumInstructionCount : UInt32)
    (s : DolphinRuntimeAdapter σ φ) :
    Except Exception InterpretedBlock × DolphinRuntimeAdapter σ φ :=
  let (result, session) := S.executeDiagnosticInterpreterBlock maximumInstructionCount s.session
  (result.map interpretedBlock, { s with session })

/-- `kInstructionBytes`. -/
abbrev kInstructionBytes : UInt32 := 4

/-- `DolphinRuntimeAdapter::invalidate_instruction`. -/
def invalidateInstruction (S : ExecutingSession σ) (address : GuestAddress)
    (s : DolphinRuntimeAdapter σ φ) : DolphinRuntimeAdapter σ φ :=
  { s with session := S.invalidateGuestCode address kInstructionBytes s.session }

/-- `DolphinRuntimeAdapter::identity`. -/
def identity (S : ExecutingSession σ) (s : DolphinRuntimeAdapter σ φ) :
    Hooks.ExecutionIdentity where
  image := imageToGcnport (S.getExecutionIdentity s.session).image
  moduleGeneration := (S.getExecutionIdentity s.session).moduleGeneration

end DolphinRuntimeAdapter

/-- A key built from `identity` names the session's own identity. -/
theorem identityToDolphin_identity {σ : Type*} {φ : Type*} (S : ExecutingSession σ)
    (s : DolphinRuntimeAdapter σ φ) :
    identityToDolphin (s.identity S) = S.getExecutionIdentity s.session :=
  rfl

section

variable {outcome : JitBlockOutcome}

/-- **A refusal is Dolphin's own**, and names its address and its reason. -/
theorem jitStep_eq_refusal_iff {refusal : JitRefusal} : jitStep outcome = .refusal refusal ↔
    outcome.kind = .refused ∧ outcome.guestPc = refusal.guestPc ∧
      outcome.refusalReason = reasonToDolphin refusal.reason := by
  obtain ⟨pc, ⟨reason⟩⟩ := refusal
  obtain ⟨kind, guestPc, count, ⟨refusalReason⟩, detail⟩ := outcome
  cases kind <;> simp [jitStep, reasonToGcnport, reasonToDolphin]

/-- **A fault is Dolphin's own**, or the answer to an outcome of no known kind. -/
theorem jitStep_eq_fault_iff {fault : BackendFault} : jitStep outcome = .fault fault ↔
    outcome.guestPc = fault.guestPc ∧
      ((outcome.kind = .backendFault ∧ outcome.detail = fault.detail) ∨
        ((∃ value, outcome.kind = .other value) ∧
          fault.detail = "Dolphin reported an unknown JitBlockKind")) := by
  obtain ⟨pc, detail⟩ := fault
  cases hkind : outcome.kind <;> simp [jitStep, hkind, eq_comm]

/-- **The adapter never exits.** -/
theorem jitStep_ne_exit (exit : BackendExit) : jitStep outcome ≠ .exit exit := by
  rw [jitStep]
  split <;> exact JitStep.noConfusion

end

end Adapter
end GcnPort
