/-
# No stale translated decision

Translated code remembers what `find` returned for the keys it was compiled
under.  `CodeCache` is any invalidator that keeps such decisions: a call that
returns has discarded every decision at its address, and a call that throws may
have discarded any.  Nothing else is assumed of it.

The registry invalidates before it stores, and only when it is going to store,
so a decision that survives a call is about a key whose selection did not
change: `Coherent` is an invariant of every history of calls and captures.
-/

import GcnPort.Hooks.Registry

namespace GcnPort
namespace Hooks

open Execution Foundation

variable {ι : Type*} {φ : Type*}

/-- A decision of translated code: a key, and what `find` returned for it. -/
structure Decision (φ : Type*) where
  key : HookKey
  selected : Option (NativeHook φ)

/-- An invalidator that is a cache of translated code, with the decisions it
holds. -/
structure CodeCache (ι : Type*) (φ : Type*) extends CodeInvalidator ι where
  alive : ι → Set (Decision φ)
  capture : Decision φ → ι → ι
  alive_capture : ∀ d i, alive (capture d i) ⊆ insert d (alive i)
  returned : ∀ address i i', invalidateInstruction address i = (.ok (), i') →
    ∀ d ∈ alive i', d ∈ alive i ∧ d.key.address ≠ address
  threw : ∀ address i e i', invalidateInstruction address i = (.error e, i') →
    alive i' ⊆ alive i

/-- What happens to the registry and the cache: a call of the registry, or the
translation of code that asks for a key. -/
inductive CacheStep (φ : Type*) where
  | call (call : HookCall φ)
  | translate (key : HookKey)

/-- Translating code looks its key up and captures the decision; a key `find`
rejects is not captured. -/
def NativeHookRegistry.translate (C : CodeCache ι φ) (key : HookKey)
    (r : NativeHookRegistry ι φ) : NativeHookRegistry ι φ :=
  match r.find key with
  | .ok selected => { r with invalidator := C.capture ⟨key, selected⟩ r.invalidator }
  | .error _ => r

/-- One step of the registry and its cache. -/
def NativeHookRegistry.cacheStep (C : CodeCache ι φ) (s : CacheStep φ)
    (r : NativeHookRegistry ι φ) : Unit × NativeHookRegistry ι φ :=
  match s with
  | .call call => ((), (r.step C.toCodeInvalidator call).2)
  | .translate key => ((), r.translate C key)

/-- Every decision alive is what `find` returns for its key now. -/
def Coherent (C : CodeCache ι φ) (r : NativeHookRegistry ι φ) : Prop :=
  ∀ d ∈ C.alive r.invalidator, r.find d.key = .ok d.selected

section

variable {C : CodeCache ι φ} {r : NativeHookRegistry ι φ}

/-- Decisions that survive, about keys whose selection did not change, stay
coherent. -/
theorem Coherent.of_subset (h : Coherent C r) {r' : NativeHookRegistry ι φ}
    (hr : ∀ d ∈ C.alive r'.invalidator, d ∈ C.alive r.invalidator ∧
      r'.hooks[d.key]? = r.hooks[d.key]?) : Coherent C r' := fun d hd => by
  have := h d (hr d hd).1
  rwa [NativeHookRegistry.find, ← (hr d hd).2] at this

/-- To translate a block keeps what is translated coherent. -/
theorem Coherent.translate (h : Coherent C r) (key : HookKey) :
    Coherent C (r.translate C key) := by
  unfold NativeHookRegistry.translate
  cases hf : r.find key with
  | error e => exact h
  | ok selected =>
    intro d hd
    rcases C.alive_capture _ _ hd with rfl | hd
    · exact hf
    · exact h d hd

/-- **The step lemma of coherence.**  A call that changes the selection of a
key has first discarded every decision at the key's address. -/
theorem Coherent.step (h : Coherent C r) (call : HookCall φ) :
    Coherent C (r.step C.toCodeInvalidator call).2 := by
  have hother {key : HookKey} {i : ι} (hcall : call.key = some key)
      (hr : (r.step C.toCodeInvalidator call).2.invalidator = i)
      (hv : C.invalidateInstruction key.address r.invalidator = (.ok (), i)) :
      Coherent C (r.step C.toCodeInvalidator call).2 := by
    refine h.of_subset fun d hd => ?_
    rw [hr] at hd
    obtain ⟨hd, hne⟩ := C.returned _ _ _ hv d hd
    refine ⟨hd, NativeHookRegistry.getElem?_step_of_ne _ fun hk => hne ?_⟩
    rw [hcall, Option.some.injEq] at hk
    rw [hk]
  cases call with
  | install key hook =>
    rcases NativeHookRegistry.install_cases C.toCodeInvalidator key hook r with ⟨e, -, hi⟩ |
      ⟨e, i, -, -, hv, hi⟩ | ⟨callback, i, -, -, hv, hi⟩
    · simpa only [NativeHookRegistry.step, hi] using h
    · simp only [NativeHookRegistry.step, hi]
      exact h.of_subset fun d hd => ⟨C.threw _ _ _ _ hv hd, rfl⟩
    · exact hother rfl (by simp only [NativeHookRegistry.step, hi]) hv
  | remove key =>
    rcases NativeHookRegistry.remove_cases C.toCodeInvalidator key r with ⟨e, -, hr⟩ |
      ⟨-, -, hr⟩ | ⟨e, i, -, -, hv, hr⟩ | ⟨i, -, -, hv, hr⟩
    · simpa only [NativeHookRegistry.step, hr] using h
    · simpa only [NativeHookRegistry.step, hr] using h
    · simp only [NativeHookRegistry.step, hr]
      exact h.of_subset fun d hd => ⟨C.threw _ _ _ _ hv hd, rfl⟩
    · exact hother rfl (by simp only [NativeHookRegistry.step, hr]) hv
  | find key => exact h
  | size => exact h

end

/-- **Hook changes leave no stale decision alive.**  After any history of
registry calls, failed ones among them, and translations, a registry built over
an empty cache answers for every decision still alive as it did when the
decision was captured. -/
theorem hook_changes_coherent (C : CodeCache ι φ) {i : ι} (hi : C.alive i = ∅)
    (steps : List (CacheStep φ)) :
    Coherent C (runAll (NativeHookRegistry.cacheStep C) steps (.new i)).2 := by
  refine runAll_preserves (I := Coherent C) (fun s r h => ?_) steps fun d hd => ?_
  · cases s with
    | call call => exact h.step call
    | translate key => exact h.translate key
  · rw [NativeHookRegistry.new, hi] at hd
    exact absurd hd (Set.notMem_empty d)

/-- A cache that keeps its decisions in a list.  Its script says what each
invalidation does: return, or throw and keep what a predicate admits. -/
structure ScriptedCache (φ : Type*) where
  decisions : List (Decision φ)
  script : List (Option (Decision φ → Bool))

/-- The scripted cache is a `CodeCache`; when the script runs out it returns. -/
def CodeCache.scripted : CodeCache (ScriptedCache φ) φ where
  invalidateInstruction address i :=
    match i.script with
    | some keep :: script =>
      (.error (.external "invalidation failed"), ⟨i.decisions.filter keep, script⟩)
    | none :: script => (.ok (), ⟨i.decisions.filter fun d => d.key.address ≠ address, script⟩)
    | [] => (.ok (), ⟨i.decisions.filter fun d => d.key.address ≠ address, []⟩)
  alive i := {d | d ∈ i.decisions}
  capture d i := { i with decisions := d :: i.decisions }
  alive_capture d i d' hd := List.mem_cons.1 hd
  returned address i i' h d hd := by
    split at h
    · cases h
    · obtain rfl := (Prod.mk.inj h).2
      simpa using hd
    · obtain rfl := (Prod.mk.inj h).2
      simpa using hd
  threw address i e i' h d hd := by
    split at h
    · obtain rfl := (Prod.mk.inj h).2
      exact (List.mem_filter.1 hd).1
    · cases h
    · cases h

/-- A hook that is translated, and whose replacement fails in the invalidator:
the decision is still alive, and still right. -/
theorem hook_changes_coherent_scripted :
    ∃ r : NativeHookRegistry (ScriptedCache ℕ) ℕ, r.invalidator.decisions.length = 1 ∧
      Coherent CodeCache.scripted r := by
  let key : HookKey := ⟨⟨⟨.replicate 32 1⟩, 0⟩, 0x80003100⟩
  refine ⟨_, ?_, hook_changes_coherent CodeCache.scripted (i := ⟨[], [none, some fun _ => true]⟩)
    (by ext d; simp [CodeCache.scripted])
    [.call (.install key (some 0)), .translate key, .call (.install key (some 1))]⟩
  decide +kernel

end Hooks
end GcnPort
