/-
# No pointer to a freed binding

Dolphin's table borrows the `Binding`s that `bindings_` owns.  Between
operations the two agree (`Settled`).  Inside an operation they do not: the
session is pointed at a new `Binding` before the old one is dropped, and away
from a `Binding` before it is freed, so that at no point between two steps does
the table hold a pointer to a `Binding` that is gone.
-/

import GcnPort.Adapter.RuntimeAdapter
import GcnPort.Foundation.Ownership
import GcnPort.Foundation.PartialMap

namespace GcnPort
namespace Adapter

open Execution Foundation Hooks PowerPC

variable {σ : Type*} {φ : Type*}

/-- The context pointers in the session's table. -/
def lent (S : RuntimeSession σ) (session : σ) : Hooks.HookKey → Option Pointer := fun key =>
  (S.hookTable session (toDolphin key)).map NativeHookBinding.context

/-- The pointers in `bindings_`. -/
def stored (bindings : Std.ExtTreeMap Hooks.HookKey Pointer HookKey.cmp) :
    Hooks.HookKey → Option Pointer := fun key => bindings[key]?

/-- The `Binding`s on the heap. -/
def living (heap : Heap φ) : Pointer → Option (Binding φ) := fun p => heap[p]?

/-- The `Binding`s that hold the callables of `m`. -/
def objects (m : Hooks.HookKey → Option (NativeHook φ)) :
    Hooks.HookKey → Option (Binding φ) := fun key =>
  (m key).map fun hook => ⟨hook, toDolphin key⟩

/-- Every context pointer in the session's table designates a `Binding` that is
alive. -/
def SessionSafe (S : RuntimeSession σ) (s : DolphinRuntimeAdapter σ φ) : Prop :=
  ∀ key entry, S.hookTable s.session key = some entry →
    ∃ binding, s.heap[entry.context]? = some binding

/-- The adapter between two operations: the session's table borrows exactly the
`Binding`s that `bindings_` owns, and they hold the callables of `m`. -/
structure Settled (S : RuntimeSession σ) (m : Hooks.HookKey → Option (NativeHook φ))
    (s : DolphinRuntimeAdapter σ φ) : Prop where
  owns : Owns (lent S s.session) (stored s.bindings) (living s.heap) (objects m)
  function : ∀ key entry, S.hookTable s.session key = some entry →
    entry.function = .bindingInvoke

section

variable {S : RuntimeSession σ} {A : Allocator φ} {s : DolphinRuntimeAdapter σ φ}
  {session session' : σ} {m : Hooks.HookKey → Option (NativeHook φ)}

/-- Safety, told of the loans and of what is alive. -/
theorem sessionSafe_iff :
    SessionSafe S s ↔ NoDangling (lent S s.session) (living s.heap) := by
  refine ⟨fun h key p hp => ?_, fun h key entry hentry => ?_⟩
  · obtain ⟨entry, hentry, rfl⟩ := Option.map_eq_some_iff.1 hp
    obtain ⟨binding, hb⟩ := h _ entry hentry
    exact Option.ne_none_iff_exists'.2 ⟨binding, hb⟩
  · obtain ⟨key, rfl⟩ := toDolphin_bijective.surjective key
    exact Option.ne_none_iff_exists'.1
      (h key entry.context (Option.map_eq_some_iff.2 ⟨entry, hentry, rfl⟩))

/-- What is lent depends on the table alone. -/
theorem lent_congr (h : S.hookTable session' = S.hookTable session) :
    lent S session' = lent S session := by
  funext key
  rw [lent, lent, h]

/-- A change of the session's table at one key is a change of what it borrows
there. -/
theorem lent_eq_update {key : Hooks.HookKey} {value : Option NativeHookBinding}
    (h : S.hookTable session' = Function.update (S.hookTable session) (toDolphin key) value) :
    lent S session' =
      Function.update (lent S session) key (value.map NativeHookBinding.context) := by
  funext key'
  rw [lent, h]
  by_cases hk : key' = key
  · subst hk
    simp
  · rw [Function.update_of_ne hk, Function.update_of_ne (toDolphin_inj.not.2 hk), lent]

/-- An insertion, as a map. -/
theorem stored_insert (bindings : Std.ExtTreeMap Hooks.HookKey Pointer HookKey.cmp)
    (key : Hooks.HookKey) (p : Pointer) :
    stored (bindings.insert key p) = Function.update (stored bindings) key (some p) :=
  getElem?_insert_eq_update ..

/-- A removal, as a map. -/
theorem stored_erase (bindings : Std.ExtTreeMap Hooks.HookKey Pointer HookKey.cmp)
    (key : Hooks.HookKey) :
    stored (bindings.erase key) = Function.update (stored bindings) key none :=
  getElem?_erase_eq_update ..

/-- An allocation, as a map. -/
theorem living_insert (heap : Heap φ) (p : Pointer) (b : Binding φ) :
    living (heap.insert p b) = Function.update (living heap) p (some b) :=
  getElem?_insert_eq_update ..

/-- A deallocation, as a map. -/
theorem living_erase (heap : Heap φ) (p : Pointer) :
    living (heap.erase p) = Function.update (living heap) p none :=
  getElem?_erase_eq_update ..

/-- The objects for a changed map of hooks. -/
theorem objects_update (m : Hooks.HookKey → Option (NativeHook φ)) (key : Hooks.HookKey)
    (value : Option (NativeHook φ)) : objects (Function.update m key value) =
      Function.update (objects m) key (value.map fun hook => ⟨hook, toDolphin key⟩) := by
  funext key'
  by_cases h : key' = key
  · subst h
    simp [objects]
  · simp [objects, Function.update_of_ne h]

/-- A settled adapter is safe. -/
theorem Settled.sessionSafe (h : Settled S m s) : SessionSafe S s :=
  sessionSafe_iff.2 h.owns.noDangling

/-- The session's functions after a change at one key. -/
theorem Settled.function_of_update (h : Settled S m s) {k : PowerPC.HookKey}
    {value : Option NativeHookBinding}
    (htable : S.hookTable session = Function.update (S.hookTable s.session) k value)
    (hvalue : ∀ entry ∈ value, entry.function = .bindingInvoke) (key : PowerPC.HookKey)
    (entry : NativeHookBinding) (hentry : S.hookTable session key = some entry) :
    entry.function = .bindingInvoke := by
  rw [htable, Function.update_apply] at hentry
  split_ifs at hentry
  · exact hvalue entry hentry
  · exact h.function key entry hentry

/-- **`install_hook` never dangles**, and binds its key exactly when the session
accepts the hook. -/
theorem Settled.installHook (h : Settled S m s) (hS : S.Contract) (A : Allocator φ)
    (key : Hooks.HookKey) (hook : NativeHook φ) :
    (∀ t ∈ (s.installHook S A {} key hook).points, SessionSafe S t) ∧
      ((∃ e, (s.installHook S A {} key hook).answer = .error e) ∧
          Settled S m (s.installHook S A {} key hook).state ∨
        (s.installHook S A {} key hook).answer = .ok () ∧
          Settled S (Function.update m key (some hook))
            (s.installHook S A {} key hook).state) := by
  have hfree : living s.heap (A.next s.heap) = none := A.next_free s.heap
  -- the new `Binding` is alive, and the session has not heard of it
  have halloc := h.owns.noDangling.alloc (A.next s.heap) ⟨hook, toDolphin key⟩
  unfold DolphinRuntimeAdapter.installHook
  rcases hi : S.installNativeHook (toDolphin key) ⟨A.next s.heap, .bindingInvoke⟩ s.session with
    ⟨e | ⟨⟩, session⟩ <;> simp only [hi, Bool.not_true, Bool.false_eq_true, if_false]
  · have htable := hS.install_threw _ _ _ _ _ hi
    refine ⟨?_, .inl ⟨⟨e, rfl⟩, ?_, ?_⟩⟩
    · simp only [List.forall_mem_cons, sessionSafe_iff, living_insert, lent_congr htable]
      exact ⟨halloc, halloc, fun _ h => absurd h List.not_mem_nil⟩
    · simp only [DolphinRuntimeAdapter.free, living_erase, living_insert, lent_congr htable,
        Function.update_idem]
      rw [← hfree, Function.update_eq_self]
      exact h.owns
    · intro key' entry hentry
      rw [DolphinRuntimeAdapter.free, htable] at hentry
      exact h.function key' entry hentry
  · have htable := hS.install_set _ _ _ _ hi
    have hlend := halloc.lend key (p := A.next s.heap) (by simp)
    have hfunction := h.function_of_update htable (by simp)
    cases hb : s.bindings[key]? with
    | some replaced =>
      refine ⟨?_, .inr ⟨rfl, ?_, hfunction⟩⟩
      · simp only [List.forall_mem_cons, sessionSafe_iff, DolphinRuntimeAdapter.bind, living_insert,
          lent_eq_update htable]
        exact ⟨halloc, hlend, hlend, fun _ h => absurd h List.not_mem_nil⟩
      · simp only [DolphinRuntimeAdapter.free, DolphinRuntimeAdapter.bind, living_erase,
          living_insert, stored_insert, lent_eq_update htable, objects_update]
        exact h.owns.replace hb hfree
    | none =>
      refine ⟨?_, .inr ⟨rfl, ?_, hfunction⟩⟩
      · simp only [List.forall_mem_cons, sessionSafe_iff, living_insert, lent_eq_update htable]
        exact ⟨halloc, hlend, fun _ h => absurd h List.not_mem_nil⟩
      · simp only [DolphinRuntimeAdapter.bind, living_insert, stored_insert,
          lent_eq_update htable, objects_update]
        exact h.owns.install hb hfree

/-- **`remove_hook` never dangles**, unbinds its key and says whether it was
bound. -/
theorem Settled.removeHook (h : Settled S m s) (hS : S.Contract) (key : Hooks.HookKey) :
    (∀ t ∈ (s.removeHook S key).points, SessionSafe S t) ∧
      (s.removeHook S key).answer = (m key).isSome ∧
      Settled S (Function.update m key none) (s.removeHook S key).state := by
  have hanswer : (S.removeNativeHook (toDolphin key) s.session).1 = (m key).isSome := by
    have halive := congrArg Option.isSome (h.owns.alive key)
    rw [Option.isSome_map, Option.isSome_map, ← h.owns.borrowed_eq] at halive
    rw [hS.remove_answer]
    simpa [lent, objects] using halive
  have htable := hS.remove_table (toDolphin key) s.session
  have hfunction := h.function_of_update htable (by simp)
  have htake := h.owns.noDangling.takeBack key
  cases hb : s.bindings[key]? with
  | some binding =>
    simp only [DolphinRuntimeAdapter.removeHook, hb]
    refine ⟨?_, hanswer, ?_, hfunction⟩
    · simp only [List.forall_mem_cons, sessionSafe_iff, DolphinRuntimeAdapter.unbind,
        lent_eq_update htable]
      exact ⟨htake, htake, fun _ h => absurd h List.not_mem_nil⟩
    · simp only [DolphinRuntimeAdapter.free, DolphinRuntimeAdapter.unbind, living_erase,
        stored_erase, lent_eq_update htable, objects_update]
      exact h.owns.remove hb
  | none =>
    simp only [DolphinRuntimeAdapter.removeHook, hb]
    refine ⟨fun _ h => absurd h List.not_mem_nil, hanswer, ?_, hfunction⟩
    simp only [lent_eq_update htable, objects_update]
    exact h.owns.removeAbsent hb

/-- `arm_original_call` leaves the table alone. -/
theorem Settled.armOriginalCall (h : Settled S m s) (hS : S.Contract) (key : Hooks.HookKey) :
    (s.armOriginalCall S key).points = [] ∧ Settled S m (s.armOriginalCall S key).state := by
  have htable := hS.execute_table (toDolphin key) s.session
  refine ⟨rfl, ?_, fun key' entry hentry => ?_⟩
  · simp only [DolphinRuntimeAdapter.armOriginalCall, lent_congr htable]
    exact h.owns
  · rw [DolphinRuntimeAdapter.armOriginalCall, htable] at hentry
    exact h.function key' entry hentry

end
end Adapter
end GcnPort
