/-
# Dolphin's side of the adapter

The names of `Core/PowerPC/GcnPortRuntime.h` that `src/dolphin_adapter.cpp`
uses.  The header belongs to the Dolphin submodule, which is not part of this
repository: its key types are known from the designated initialisers of
`to_dolphin`, and its `RuntimeSession` is a parameter.

What the adapter relies on is `RuntimeSession.Contract`: the session keeps one
table from keys to a function pointer and a context pointer, and only
`InstallNativeHook` and `RemoveNativeHook` change it.
-/

import GcnPort.Hooks.Key

namespace GcnPort
namespace Adapter

open Execution

namespace PowerPC

/-- `PowerPC::GcnPort::ImageIdentity`. -/
structure ImageIdentity where
  sha256 : Vector UInt8 32
deriving DecidableEq, Repr

/-- `PowerPC::GcnPort::ExecutionIdentity`. -/
structure ExecutionIdentity where
  image : ImageIdentity
  moduleGeneration : UInt64
deriving DecidableEq, Repr

/-- `PowerPC::GcnPort::HookKey`. -/
structure HookKey where
  identity : ExecutionIdentity
  address : GuestAddress
deriving DecidableEq, Repr

/-- A `void *`. -/
abbrev Pointer := ℕ

/-- A pointer to a native hook function: the adapter's own `Binding::Invoke`, or
a function of someone else. -/
inductive HookFunction where
  | bindingInvoke
  | other (address : ℕ)
deriving DecidableEq, Repr

/-- `PowerPC::GcnPort::NativeHookBinding`. -/
structure NativeHookBinding where
  context : Pointer
  function : HookFunction
deriving DecidableEq, Repr

/-- `PowerPC::GcnPort::RuntimeSession`: an object with state `σ`, as far as the
hooks of the adapter reach it, and the table it dispatches through. -/
structure RuntimeSession (σ : Type*) where
  installNativeHook : HookKey → NativeHookBinding → σ → Except Exception Unit × σ
  removeNativeHook : HookKey → σ → Bool × σ
  executeOriginalOnce : HookKey → σ → Bool × σ
  hookTable : σ → HookKey → Option NativeHookBinding

/-- What the session promises of its table. -/
structure RuntimeSession.Contract {σ : Type*} (S : RuntimeSession σ) : Prop where
  install_threw : ∀ key entry s e s', S.installNativeHook key entry s = (.error e, s') →
    S.hookTable s' = S.hookTable s
  install_set : ∀ key entry s s', S.installNativeHook key entry s = (.ok (), s') →
    S.hookTable s' = Function.update (S.hookTable s) key (some entry)
  remove_table : ∀ key s, S.hookTable (S.removeNativeHook key s).2 =
    Function.update (S.hookTable s) key none
  remove_answer : ∀ key s, (S.removeNativeHook key s).1 = (S.hookTable s key).isSome
  execute_table : ∀ key s, S.hookTable (S.executeOriginalOnce key s).2 = S.hookTable s

end PowerPC

/-- `to_dolphin(const ExecutionIdentity &)`. -/
def identityToDolphin (identity : Hooks.ExecutionIdentity) : PowerPC.ExecutionIdentity where
  image := ⟨identity.image.sha256⟩
  moduleGeneration := identity.moduleGeneration

/-- `to_dolphin(const HookKey &)`. -/
def toDolphin (key : Hooks.HookKey) : PowerPC.HookKey where
  identity := identityToDolphin key.identity
  address := key.address

/-- **The two vocabularies mirror each other**: each key of Dolphin's is that of
exactly one key. -/
theorem toDolphin_bijective : Function.Bijective toDolphin := by
  refine ⟨fun key key' h => ?_, fun k => ⟨⟨⟨⟨k.identity.image.sha256⟩,
    k.identity.moduleGeneration⟩, k.address⟩, rfl⟩⟩
  obtain ⟨⟨⟨digest⟩, generation⟩, address⟩ := key
  obtain ⟨⟨⟨digest'⟩, generation'⟩, address'⟩ := key'
  simpa [toDolphin, identityToDolphin, and_assoc] using h

/-- Different keys are different keys of Dolphin's. -/
@[simp] theorem toDolphin_inj {key key' : Hooks.HookKey} :
    toDolphin key = toDolphin key' ↔ key = key' :=
  toDolphin_bijective.injective.eq_iff

end Adapter
end GcnPort
