/-
# Hook keys

`include/gcnport/native_hooks.h`: what a native hook or an original call is
keyed by, and `is_authenticated` and `is_valid` of `src/native_hooks.cpp`.

`HookKey::operator<=>` is defaulted, so it compares the members in the order
they are declared, and an `ImageIdentity` byte by byte.  `HookKey.cmp` is that
order, and it tells keys apart (`HookKey.cmp_eq_iff`): two keys that differ in
a byte of the digest, in the generation or in the address are different keys of
a `std::map`.
-/

import GcnPort.Execution.Types
import Mathlib

namespace GcnPort
namespace Hooks

open Execution

/-- `ImageIdentity`. -/
structure ImageIdentity where
  sha256 : Vector UInt8 32 := .replicate 32 0
deriving DecidableEq, Repr

/-- `ExecutionIdentity`. -/
structure ExecutionIdentity where
  image : ImageIdentity := {}
  moduleGeneration : UInt64 := 0
deriving DecidableEq, Repr

/-- `HookKey`. -/
structure HookKey where
  identity : ExecutionIdentity := {}
  address : GuestAddress := 0
deriving DecidableEq, Repr

/-- `ImageIdentity::is_authenticated`: some byte of the digest is not zero. -/
def ImageIdentity.isAuthenticated (image : ImageIdentity) : Bool :=
  image.sha256.any (· ≠ 0)

/-- `HookKey::is_valid`: an authenticated image and a nonzero address, aligned
to the four bytes of a `std::uint32_t`. -/
def HookKey.isValid (key : HookKey) : Bool :=
  key.identity.image.isAuthenticated && key.address ≠ 0 && key.address % 4 = 0

/-- `HookKey::operator<=>`. -/
def HookKey.cmp : HookKey → HookKey → Ordering :=
  compareLex (compareOn fun key => key.identity.image.sha256)
    (compareLex (compareOn fun key => key.identity.moduleGeneration)
      (compareOn fun key => key.address))

instance : Std.TransCmp HookKey.cmp :=
  inferInstanceAs (Std.TransCmp (compareLex _ (compareLex _ _)))

/-- **The order tells keys apart.** -/
theorem HookKey.cmp_eq_iff {key key' : HookKey} : HookKey.cmp key key' = .eq ↔ key = key' := by
  obtain ⟨⟨⟨digest⟩, generation⟩, address⟩ := key
  obtain ⟨⟨⟨digest'⟩, generation'⟩, address'⟩ := key'
  simp [HookKey.cmp, compareLex_eq_eq, compareOn, and_assoc]

instance : Std.LawfulEqCmp HookKey.cmp where
  compare_self := HookKey.cmp_eq_iff.2 rfl
  eq_of_compare := HookKey.cmp_eq_iff.1

end Hooks
end GcnPort
