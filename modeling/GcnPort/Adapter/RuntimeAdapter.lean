/-
# The hooks of the Dolphin adapter

The hook operations of `include/gcnport/dolphin_adapter.h` and
`src/dolphin_adapter.cpp`.  Dolphin calls a hook through a raw function pointer
and a context pointer; the adapter owns the `Binding` behind the context
pointer, in `bindings_`.

Each operation is written as its primitive steps: a call of the session, an
allocation, a change of `bindings_`, a `delete`.  It hands out the states
between them (`points`), since the session could dispatch at any of them.  The
heap holds the `Binding`s that are alive; where the next one is allocated is up
to an `Allocator`, which may hand out an address again once it is free.
-/

import GcnPort.Adapter.Dolphin
import GcnPort.Hooks.Registry

namespace GcnPort
namespace Adapter

open Execution Foundation Hooks PowerPC

/-- `DolphinRuntimeAdapter::Binding`, without its pointers to the system and the
session, which are the same for all. -/
structure Binding (φ : Type*) where
  hook : NativeHook φ
  key : PowerPC.HookKey

/-- The `Binding`s that are alive, by address. -/
abbrev Heap (φ : Type*) := Std.ExtTreeMap Pointer (Binding φ) compare

/-- Where the next `Binding` is allocated: at an address not in use. -/
structure Allocator (φ : Type*) where
  next : Heap φ → Pointer
  next_free : ∀ heap : Heap φ, heap[next heap]? = none

/-- Which of the allocations of `install_hook` succeed: the `Binding`, and the
node of `bindings_` for a new key. -/
structure Allocations where
  binding : Bool := true
  node : Bool := true
deriving DecidableEq, Repr

/-- `DolphinRuntimeAdapter`, with the state of the session it refers to and the
heap its `Binding`s live on. -/
structure DolphinRuntimeAdapter (σ : Type*) (φ : Type*) where
  session : σ
  bindings : Std.ExtTreeMap Hooks.HookKey Pointer HookKey.cmp
  heap : Heap φ

/-- What an operation returned or threw, the states between its steps, and the
state after it. -/
structure Outcome (α : Type*) (σ : Type*) (φ : Type*) where
  answer : α
  points : List (DolphinRuntimeAdapter σ φ)
  state : DolphinRuntimeAdapter σ φ

namespace DolphinRuntimeAdapter

variable {σ : Type*} {φ : Type*}

/-- The constructor `DolphinRuntimeAdapter(system, session)`. -/
def new (session : σ) : DolphinRuntimeAdapter σ φ where
  session := session
  bindings := ∅
  heap := ∅

/-- `delete` of a `Binding`. -/
def free (s : DolphinRuntimeAdapter σ φ) (binding : Pointer) : DolphinRuntimeAdapter σ φ :=
  { s with heap := s.heap.erase binding }

/-- `bindings_` with another pointer under `key`. -/
def bind (s : DolphinRuntimeAdapter σ φ) (key : Hooks.HookKey) (binding : Pointer) :
    DolphinRuntimeAdapter σ φ :=
  { s with bindings := s.bindings.insert key binding }

/-- `bindings_` without `key`. -/
def unbind (s : DolphinRuntimeAdapter σ φ) (key : Hooks.HookKey) : DolphinRuntimeAdapter σ φ :=
  { s with bindings := s.bindings.erase key }

/-- What a failed allocation throws. -/
def badAlloc : Exception := .external "std::bad_alloc"

/-- `DolphinRuntimeAdapter::install_hook`. -/
def installHook (S : RuntimeSession σ) (A : Allocator φ) (allocations : Allocations)
    (key : Hooks.HookKey) (hook : NativeHook φ) (s : DolphinRuntimeAdapter σ φ) :
    Outcome (Except Exception Unit) σ φ :=
  if !allocations.binding then
    ⟨.error badAlloc, [], s⟩
  else
    let installed := A.next s.heap
    let s₁ := { s with heap := s.heap.insert installed ⟨hook, toDolphin key⟩ }
    match S.installNativeHook (toDolphin key) ⟨installed, .bindingInvoke⟩ s₁.session with
    | (.error e, session) =>
      -- unwinding destroys the local `std::unique_ptr`
      let s₂ := { s₁ with session }
      ⟨.error e, [s₁, s₂], s₂.free installed⟩
    | (.ok (), session) =>
      let s₂ := { s₁ with session }
      match s₂.bindings[key]? with
      | some replaced =>
        -- the assignment stores the new pointer, then deletes the old `Binding`
        let s₃ := s₂.bind key installed
        ⟨.ok (), [s₁, s₂, s₃], s₃.free replaced⟩
      | none =>
        if !allocations.node then
          ⟨.error badAlloc, [s₁, s₂], s₂.free installed⟩
        else
          ⟨.ok (), [s₁, s₂], s₂.bind key installed⟩

/-- `DolphinRuntimeAdapter::remove_hook`. -/
def removeHook (S : RuntimeSession σ) (key : Hooks.HookKey) (s : DolphinRuntimeAdapter σ φ) :
    Outcome Bool σ φ :=
  let (removed, session) := S.removeNativeHook (toDolphin key) s.session
  let s₁ := { s with session }
  match s₁.bindings[key]? with
  | some binding => ⟨removed, [s₁, s₁.unbind key], (s₁.unbind key).free binding⟩
  | none => ⟨removed, [], s₁⟩

/-- `DolphinRuntimeAdapter::hook_count`. -/
def hookCount (s : DolphinRuntimeAdapter σ φ) : ℕ := s.bindings.size

/-- `DolphinRuntimeAdapter::arm_original_call`. -/
def armOriginalCall (S : RuntimeSession σ) (key : Hooks.HookKey)
    (s : DolphinRuntimeAdapter σ φ) : Outcome Bool σ φ :=
  let (armed, session) := S.executeOriginalOnce (toDolphin key) s.session
  ⟨armed, [], { s with session }⟩

/-- One iteration of the loop in the destructor. -/
def uninstall (S : RuntimeSession σ) (key : Hooks.HookKey) (s : DolphinRuntimeAdapter σ φ) :
    DolphinRuntimeAdapter σ φ :=
  { s with session := (S.removeNativeHook (toDolphin key) s.session).2 }

/-- The destruction of one node of `bindings_`, which deletes its `Binding`. -/
def dropNode (key : Hooks.HookKey) (s : DolphinRuntimeAdapter σ φ) :
    DolphinRuntimeAdapter σ φ :=
  match s.bindings[key]? with
  | some binding => (s.unbind key).free binding
  | none => s

/-- Steps made for each key in turn, with the states after them. -/
def forEach (f : Hooks.HookKey → DolphinRuntimeAdapter σ φ → DolphinRuntimeAdapter σ φ) :
    List Hooks.HookKey → DolphinRuntimeAdapter σ φ →
      List (DolphinRuntimeAdapter σ φ) × DolphinRuntimeAdapter σ φ :=
  runAll fun key s => (f key s, f key s)

/-- `~DolphinRuntimeAdapter`: the loop over `bindings_`, and then its own
destruction. -/
def destroy (S : RuntimeSession σ) (s : DolphinRuntimeAdapter σ φ) : Outcome Unit σ φ :=
  let (uninstalled, s₁) := forEach (uninstall S) s.bindings.keys s
  let (dropped, s₂) := forEach dropNode s.bindings.keys s₁
  ⟨(), uninstalled ++ dropped, s₂⟩

end DolphinRuntimeAdapter

/-- A hook operation of the adapter, with any key and any callable. -/
inductive AdapterCall (φ : Type*) where
  | installHook (key : Hooks.HookKey) (hook : NativeHook φ)
  | removeHook (key : Hooks.HookKey)
  | armOriginalCall (key : Hooks.HookKey)
deriving DecidableEq, Repr

/-- An operation with what it returned or threw and the states between its
steps. -/
inductive AdapterEvent (σ : Type*) (φ : Type*) where
  | installHook (key : Hooks.HookKey) (hook : NativeHook φ) (answer : Except Exception Unit)
      (points : List (DolphinRuntimeAdapter σ φ))
  | removeHook (key : Hooks.HookKey) (answer : Bool) (points : List (DolphinRuntimeAdapter σ φ))
  | armOriginalCall (key : Hooks.HookKey) (answer : Bool)
      (points : List (DolphinRuntimeAdapter σ φ))

/-- The states between the steps of an operation. -/
def AdapterEvent.points {σ φ : Type*} : AdapterEvent σ φ → List (DolphinRuntimeAdapter σ φ)
  | .installHook _ _ _ points | .removeHook _ _ points | .armOriginalCall _ _ points => points

namespace DolphinRuntimeAdapter

variable {σ : Type*} {φ : Type*}

/-- One operation, with every allocation succeeding. -/
def step (S : RuntimeSession σ) (A : Allocator φ) (call : AdapterCall φ)
    (s : DolphinRuntimeAdapter σ φ) : AdapterEvent σ φ × DolphinRuntimeAdapter σ φ :=
  match call with
  | .installHook key hook =>
    let o := s.installHook S A {} key hook
    (.installHook key hook o.answer o.points, o.state)
  | .removeHook key =>
    let o := s.removeHook S key
    (.removeHook key o.answer o.points, o.state)
  | .armOriginalCall key =>
    let o := s.armOriginalCall S key
    (.armOriginalCall key o.answer o.points, o.state)

/-- The adapter after a history of operations, with the log of the history. -/
def runCalls (S : RuntimeSession σ) (A : Allocator φ) (calls : List (AdapterCall φ))
    (session : σ) : List (AdapterEvent σ φ) × DolphinRuntimeAdapter σ φ :=
  runAll (step S A) calls (new session)

end DolphinRuntimeAdapter
end Adapter
end GcnPort
