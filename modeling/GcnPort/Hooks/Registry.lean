/-
# The native hook registry

`include/gcnport/native_hooks.h` and `src/native_hooks.cpp`.  The registry
holds its hooks in a `std::map` ordered by `HookKey.cmp`, and refers to a
`CodeInvalidator` that may throw.  An operation that throws leaves the state of
the invalidator as the throwing call left it; the hooks it leaves alone, since
every mutation invalidates first and stores last.

A `NativeHook` is a `std::function`: empty, or one of the callables `φ`.  Here a
method runs with nothing else running; the methods under their mutex, with any
number of threads, are those of `Concurrent.Methods`, which take effect at once as
these do.
-/

import GcnPort.Hooks.Key
import GcnPort.Foundation.Machine

namespace GcnPort
namespace Hooks

open Execution Foundation

/-- `NativeHook`, a `std::function` over callables `φ` that may be empty. -/
abbrev NativeHook (φ : Type*) := Option φ

/-- `CodeInvalidator`: an object with state `ι` whose one method may throw. -/
structure CodeInvalidator (ι : Type*) where
  invalidateInstruction : GuestAddress → ι → Except Exception Unit × ι

/-- `NativeHookRegistry`, with the state of the invalidator it refers to. -/
structure NativeHookRegistry (ι : Type*) (φ : Type*) where
  invalidator : ι
  hooks : Std.ExtTreeMap HookKey (NativeHook φ) HookKey.cmp

/-- What `validate_key` throws. -/
def invalidKey : Exception :=
  .invalidArgument "native hook key requires an authenticated image and nonzero aligned PPC address"

/-- What `install` throws for an empty callback. -/
def emptyCallback : Exception :=
  .invalidArgument "native hook callback is empty"

namespace NativeHookRegistry

variable {ι : Type*} {φ : Type*}

/-- The constructor `NativeHookRegistry(invalidator)`. -/
def new (invalidator : ι) : NativeHookRegistry ι φ where
  invalidator := invalidator
  hooks := ∅

/-- `NativeHookRegistry::install`. -/
def install (V : CodeInvalidator ι) (key : HookKey) (hook : NativeHook φ)
    (r : NativeHookRegistry ι φ) : Except Exception Unit × NativeHookRegistry ι φ :=
  if !key.isValid then
    (.error invalidKey, r)
  else if hook.isNone then
    (.error emptyCallback, r)
  else
    match V.invalidateInstruction key.address r.invalidator with
    | (.error e, invalidator) => (.error e, { r with invalidator })
    | (.ok (), invalidator) =>
      (.ok (), { invalidator, hooks := r.hooks.insert key hook })

/-- `NativeHookRegistry::remove`. -/
def remove (V : CodeInvalidator ι) (key : HookKey) (r : NativeHookRegistry ι φ) :
    Except Exception Bool × NativeHookRegistry ι φ :=
  if !key.isValid then
    (.error invalidKey, r)
  else if !r.hooks.contains key then
    (.ok false, r)
  else
    match V.invalidateInstruction key.address r.invalidator with
    | (.error e, invalidator) => (.error e, { r with invalidator })
    | (.ok (), invalidator) => (.ok true, { invalidator, hooks := r.hooks.erase key })

/-- `NativeHookRegistry::find`. -/
def find (key : HookKey) (r : NativeHookRegistry ι φ) :
    Except Exception (Option (NativeHook φ)) :=
  if !key.isValid then
    .error invalidKey
  else
    .ok r.hooks[key]?

/-- `NativeHookRegistry::size`. -/
def size (r : NativeHookRegistry ι φ) : ℕ := r.hooks.size

end NativeHookRegistry

/-- A call of the registry's interface. -/
inductive HookCall (φ : Type*) where
  | install (key : HookKey) (hook : NativeHook φ)
  | remove (key : HookKey)
  | find (key : HookKey)
  | size
deriving DecidableEq, Repr

/-- The key a call is about, if any. -/
def HookCall.key {φ : Type*} : HookCall φ → Option HookKey
  | .install key _ | .remove key | .find key => some key
  | .size => none

/-- A call and what it returned or threw. -/
inductive HookEvent (φ : Type*) where
  | install (key : HookKey) (hook : NativeHook φ) (answer : Except Exception Unit)
  | remove (key : HookKey) (answer : Except Exception Bool)
  | find (key : HookKey) (answer : Except Exception (Option (NativeHook φ)))
  | size (answer : ℕ)

namespace NativeHookRegistry

variable {ι : Type*} {φ : Type*}

/-- One call. -/
def step (V : CodeInvalidator ι) (call : HookCall φ) (r : NativeHookRegistry ι φ) :
    HookEvent φ × NativeHookRegistry ι φ :=
  match call with
  | .install key hook =>
    let (answer, r) := r.install V key hook
    (.install key hook answer, r)
  | .remove key =>
    let (answer, r) := r.remove V key
    (.remove key answer, r)
  | .find key => (.find key (r.find key), r)
  | .size => (.size r.size, r)

variable {V : CodeInvalidator ι} {key : HookKey} {hook : NativeHook φ}
  {r : NativeHookRegistry ι φ}

/-- **What `install` can do**: reject the call, fail with the invalidator, or
bind a valid key to a callback. -/
theorem install_cases (V : CodeInvalidator ι) (key : HookKey) (hook : NativeHook φ)
    (r : NativeHookRegistry ι φ) :
    (∃ e, (key.isValid = false ∨ hook = none) ∧ r.install V key hook = (.error e, r)) ∨
    (∃ e i, key.isValid ∧ hook ≠ none ∧
      V.invalidateInstruction key.address r.invalidator = (.error e, i) ∧
      r.install V key hook = (.error e, { r with invalidator := i })) ∨
    ∃ callback i, key.isValid ∧ hook = some callback ∧
      V.invalidateInstruction key.address r.invalidator = (.ok (), i) ∧
      r.install V key hook = (.ok (), ⟨i, r.hooks.insert key (some callback)⟩) := by
  unfold install
  cases hk : key.isValid
  · exact .inl ⟨_, .inl rfl, rfl⟩
  · cases hook with
    | none => exact .inl ⟨_, .inr rfl, rfl⟩
    | some callback =>
      rcases hi : V.invalidateInstruction key.address r.invalidator with ⟨e | ⟨⟩, i⟩
      · exact .inr (.inl ⟨e, i, rfl, Option.some_ne_none _, rfl, by simp⟩)
      · exact .inr (.inr ⟨callback, i, rfl, rfl, rfl, by simp⟩)

/-- **What `remove` can do**: reject the key, find nothing, fail with the
invalidator, or unbind a bound key. -/
theorem remove_cases (V : CodeInvalidator ι) (key : HookKey) (r : NativeHookRegistry ι φ) :
    (∃ e, key.isValid = false ∧ r.remove V key = (.error e, r)) ∨
    (key.isValid ∧ r.hooks[key]? = none ∧ r.remove V key = (.ok false, r)) ∨
    (∃ e i, key.isValid ∧ r.hooks[key]? ≠ none ∧
      V.invalidateInstruction key.address r.invalidator = (.error e, i) ∧
      r.remove V key = (.error e, { r with invalidator := i })) ∨
    ∃ i, key.isValid ∧ r.hooks[key]? ≠ none ∧
      V.invalidateInstruction key.address r.invalidator = (.ok (), i) ∧
      r.remove V key = (.ok true, ⟨i, r.hooks.erase key⟩) := by
  have hcontains : r.hooks.contains key = r.hooks[key]?.isSome :=
    Std.ExtTreeMap.contains_eq_isSome_getElem?
  unfold remove
  rw [hcontains]
  cases hk : key.isValid
  · exact .inl ⟨_, rfl, rfl⟩
  · cases hb : r.hooks[key]? with
    | none => exact .inr (.inl ⟨rfl, rfl, rfl⟩)
    | some bound =>
      rcases hi : V.invalidateInstruction key.address r.invalidator with ⟨e | ⟨⟩, i⟩
      · exact .inr (.inr (.inl ⟨e, i, rfl, Option.some_ne_none _, rfl, by simp⟩))
      · exact .inr (.inr (.inr ⟨i, rfl, Option.some_ne_none _, rfl, by simp⟩))

/-- `find` of a valid key looks it up. -/
theorem find_of_isValid (hk : key.isValid) : r.find key = .ok r.hooks[key]? := by
  rw [find, hk]
  rfl

/-- **A call leaves every other key alone.** -/
theorem getElem?_step_of_ne (V : CodeInvalidator ι) {call : HookCall φ}
    (h : call.key ≠ some key) : (r.step V call).2.hooks[key]? = r.hooks[key]? := by
  cases call with
  | install key' hook =>
    have hne : key' ≠ key := fun hk => h (congrArg some hk)
    rcases install_cases V key' hook r with ⟨e, -, hi⟩ | ⟨e, i, -, -, -, hi⟩ |
      ⟨callback, i, -, -, -, hi⟩ <;> simp only [step, hi]
    simp [Std.ExtTreeMap.getElem?_insert, hne]
  | remove key' =>
    have hne : key' ≠ key := fun hk => h (congrArg some hk)
    rcases remove_cases V key' r with ⟨e, -, hr⟩ | ⟨-, -, hr⟩ | ⟨e, i, -, -, -, hr⟩ |
      ⟨i, -, -, -, hr⟩ <;> simp only [step, hr]
    simp [Std.ExtTreeMap.getElem?_erase, hne]
  | find key' => rfl
  | size => rfl

end NativeHookRegistry
end Hooks
end GcnPort
