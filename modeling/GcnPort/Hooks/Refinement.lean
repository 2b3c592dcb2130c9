/-
# The registry is a partial map

What the registry is for: a partial map from valid keys to callbacks that are
not empty.  `Refines r m` says that the storage of `r` is the map `m`, and
`boundBy` reads a map off the history alone, from the calls that succeeded.
Every history leads to a registry that refines the map of its own log
(`refines_boundBy`), whatever the invalidator does, so the registry answers as
that map does.
-/

import GcnPort.Hooks.Registry
import GcnPort.Foundation.PartialMap

namespace GcnPort
namespace Hooks

open Execution Foundation

/-- The keys a hook can be bound to. -/
abbrev ValidKey := {key : HookKey // key.isValid = true}

variable {ι : Type*} {φ : Type*}

namespace HookEvent

/-- What a call changed: the key it bound or unbound, if it succeeded. -/
def change : HookEvent φ → Option (Change ValidKey φ)
  | .install key (some callback) (.ok ()) =>
    if h : key.isValid = true then some ⟨⟨key, h⟩, some callback⟩ else none
  | .remove key (.ok true) =>
    if h : key.isValid = true then some ⟨⟨key, h⟩, none⟩ else none
  | _ => none

/-- An install that throws changes nothing. -/
@[simp] theorem change_install_error (key : HookKey) (hook : NativeHook φ) (e : Exception) :
    (install key hook (.error e)).change = none := by
  cases hook <;> rfl

/-- A key is bound by an install that returned, and by nothing else. -/
theorem change_eq_bind_iff {e : HookEvent φ} {k : ValidKey} {callback : φ} :
    e.change = some ⟨k, some callback⟩ ↔ e = .install k.val (some callback) (.ok ()) := by
  obtain ⟨key, hk⟩ := k
  constructor
  · intro h
    unfold change at h
    split at h
    · split_ifs at h
      simp_all
    · split_ifs at h
      simp_all
    · cases h
  · rintro rfl
    simp [change, hk]

end HookEvent

/-- The map a history leads to: what its calls bound and unbound, in order. -/
def boundBy (log : List (HookEvent φ)) : ValidKey → Option φ :=
  applyAll (fun _ => none) (log.filterMap HookEvent.change)

/-- The registry holds the bindings of `m`, and no others. -/
structure Refines (r : NativeHookRegistry ι φ) (m : ValidKey → Option φ) : Prop where
  bound : ∀ k : ValidKey, r.hooks[k.val]? = (m k).map some
  valid : ∀ key : HookKey, r.hooks[key]? ≠ none → key.isValid = true

section

variable {V : CodeInvalidator ι} {r : NativeHookRegistry ι φ} {m : ValidKey → Option φ}

/-- A valid key that has no hook is one that the map leaves unbound. -/
theorem Refines.unbound (h : Refines r m) (k : ValidKey) :
    r.hooks[k.val]? = none ↔ m k = none := by
  rw [h.bound k, Option.map_eq_none_iff]

/-- An insertion at a valid key binds it. -/
theorem Refines.insert (h : Refines r m) (i : ι) (k : ValidKey) (callback : φ) :
    Refines ⟨i, r.hooks.insert k.val (some callback)⟩ (Function.update m k (some callback)) := by
  refine ⟨fun k' => ?_, fun key hkey => ?_⟩
  · rw [Std.ExtTreeMap.getElem?_insert]
    by_cases hk : k = k'
    · subst hk
      simp
    · simp [hk, Subtype.val_inj, Function.update_of_ne (Ne.symm hk), h.bound k']
  · rw [Std.ExtTreeMap.getElem?_insert] at hkey
    split_ifs at hkey with hk
    · rw [← Std.LawfulEqCmp.eq_of_compare hk]
      exact k.property
    · exact h.valid key hkey

/-- A removal at a valid key unbinds it. -/
theorem Refines.erase (h : Refines r m) (i : ι) (k : ValidKey) :
    Refines ⟨i, r.hooks.erase k.val⟩ (Function.update m k none) := by
  refine ⟨fun k' => ?_, fun key hkey => ?_⟩
  · rw [Std.ExtTreeMap.getElem?_erase]
    by_cases hk : k = k'
    · subst hk
      simp
    · simp [hk, Subtype.val_inj, Function.update_of_ne (Ne.symm hk), h.bound k']
  · rw [Std.ExtTreeMap.getElem?_erase] at hkey
    split_ifs at hkey with hk
    · exact absurd rfl hkey
    · exact h.valid key hkey

/-- **The registry counts the bound keys.** -/
theorem Refines.size (h : Refines r m) : r.size = (boundKeys m).ncard := by
  have hne : ∀ k : ValidKey, r.hooks[k.val]? ≠ none ↔ m k ≠ none := fun k =>
    not_congr (h.unbound k)
  have himage : (boundKeys fun key : HookKey => r.hooks[key]?) = Subtype.val '' boundKeys m := by
    ext key
    constructor
    · intro hkey
      exact ⟨⟨key, h.valid key hkey⟩, (hne ⟨key, h.valid key hkey⟩).1 hkey, rfl⟩
    · rintro ⟨k, hk, rfl⟩
      exact (hne k).2 hk
  rw [NativeHookRegistry.size, size_eq_ncard, himage,
    Set.ncard_image_of_injective _ Subtype.val_injective]

/-- **The step lemma.**  A call does to the storage what its event says it
changed. -/
theorem Refines.step (h : Refines r m) (V : CodeInvalidator ι) (call : HookCall φ) :
    Refines (r.step V call).2 (applyAll m (r.step V call).1.change.toList) := by
  cases call with
  | install key hook =>
    rcases NativeHookRegistry.install_cases V key hook r with ⟨e, -, hi⟩ | ⟨e, i, -, -, -, hi⟩ |
      ⟨callback, i, hk, rfl, -, hi⟩ <;> simp only [NativeHookRegistry.step, hi]
    · simpa using h
    · simpa using (⟨h.bound, h.valid⟩ : Refines { r with invalidator := i } m)
    · simp only [HookEvent.change, hk, dif_pos]
      exact h.insert i ⟨key, hk⟩ callback
  | remove key =>
    rcases NativeHookRegistry.remove_cases V key r with ⟨e, -, hr⟩ | ⟨-, -, hr⟩ |
      ⟨e, i, -, -, -, hr⟩ | ⟨i, hk, -, -, hr⟩ <;> simp only [NativeHookRegistry.step, hr]
    · exact h
    · exact h
    · exact ⟨h.bound, h.valid⟩
    · simp only [HookEvent.change, hk, dif_pos]
      exact h.erase i ⟨key, hk⟩
  | find key => exact h
  | size => exact h

end

/-- The registry after a history of calls, with the log of the history. -/
def NativeHookRegistry.runCalls (V : CodeInvalidator ι) (calls : List (HookCall φ)) (i : ι) :
    List (HookEvent φ) × NativeHookRegistry ι φ :=
  runAll (NativeHookRegistry.step V) calls (.new i)

/-- The map of a log with one more event. -/
theorem boundBy_concat (log : List (HookEvent φ)) (e : HookEvent φ) :
    boundBy (log ++ [e]) = applyAll (boundBy log) e.change.toList :=
  applyAll_filterMap_concat HookEvent.change log e

/-- **Every history leads to the map of its log.** -/
theorem refines_boundBy (V : CodeInvalidator ι) (calls : List (HookCall φ)) (i : ι) :
    Refines (NativeHookRegistry.runCalls V calls i).2
      (boundBy (NativeHookRegistry.runCalls V calls i).1) := by
  refine runAll_preserves_log (I := fun log r => Refines r (boundBy log))
    (fun call log r h => ?_) calls ⟨fun k => ?_, fun key hkey => ?_⟩
  · rw [boundBy_concat]
    exact h.step V call
  · simp [NativeHookRegistry.new, boundBy]
  · simp [NativeHookRegistry.new] at hkey

/-- **What a key is bound to** is what the last call that changed it bound it
to. -/
theorem boundBy_eq_some_iff {log : List (HookEvent φ)} {k : ValidKey} {callback : φ} :
    boundBy log k = some callback ↔ ∃ before after,
      log = before ++ .install k.val (some callback) (.ok ()) :: after ∧
        ∀ e ∈ after, ∀ c ∈ e.change, c.key ≠ k := by
  rw [boundBy, applyAll_filterMap_eq_some_iff]
  constructor
  · rintro ⟨before, e, after, rfl, he, hafter⟩
    exact ⟨before, after, by rw [HookEvent.change_eq_bind_iff.1 he], hafter⟩
  · rintro ⟨before, after, rfl, hafter⟩
    exact ⟨before, _, after, rfl, HookEvent.change_eq_bind_iff.2 rfl, hafter⟩

/-- A registry with log `log` is a partial map from valid keys to callbacks. -/
structure IsPartialMap (V : CodeInvalidator ι) (log : List (HookEvent φ))
    (r : NativeHookRegistry ι φ) : Prop where
  /-- `install` binds exactly its key, or throws and changes nothing. -/
  install : ∀ key hook,
    (∃ (hk : key.isValid = true) (callback : φ), hook = some callback ∧
      (V.invalidateInstruction key.address r.invalidator).1 = .ok () ∧
      (r.install V key hook).1 = .ok () ∧
      Refines (r.install V key hook).2
        (Function.update (boundBy log) ⟨key, hk⟩ (some callback))) ∨
    ((key.isValid = false ∨ hook = none ∨
        ∃ e, (V.invalidateInstruction key.address r.invalidator).1 = .error e) ∧
      (∃ e, (r.install V key hook).1 = .error e) ∧ (r.install V key hook).2.hooks = r.hooks)
  /-- `remove` unbinds exactly its key, or says that it is unbound, or throws
  and changes nothing; an invalidation that throws is one of a bound key. -/
  remove : ∀ key,
    (∃ hk : key.isValid = true, boundBy log ⟨key, hk⟩ ≠ none ∧
      (V.invalidateInstruction key.address r.invalidator).1 = .ok () ∧
      (r.remove V key).1 = .ok true ∧
      Refines (r.remove V key).2 (Function.update (boundBy log) ⟨key, hk⟩ none)) ∨
    (∃ hk : key.isValid = true, boundBy log ⟨key, hk⟩ = none ∧
      r.remove V key = (.ok false, r)) ∨
    ((key.isValid = false ∨ ∃ hk : key.isValid = true, boundBy log ⟨key, hk⟩ ≠ none ∧
        ∃ e, (V.invalidateInstruction key.address r.invalidator).1 = .error e) ∧
      (∃ e, (r.remove V key).1 = .error e) ∧ (r.remove V key).2.hooks = r.hooks)
  /-- `find` looks a valid key up in the map. -/
  find : ∀ k : ValidKey, r.find k.val = .ok ((boundBy log k).map some)
  /-- What `find` returns is the callback of the last `install` that succeeded
  at the key and that no `remove` undid. -/
  last : ∀ (k : ValidKey) (callback : φ), r.find k.val = .ok (some (some callback)) ↔
    ∃ before after, log = before ++ .install k.val (some callback) (.ok ()) :: after ∧
      ∀ e ∈ after, ∀ c ∈ e.change, c.key ≠ k
  /-- A call about another key does not change what `find` returns. -/
  others : ∀ call key, call.key ≠ some key → (r.step V call).2.find key = r.find key
  /-- `size` is the number of bound keys. -/
  size : r.size = (boundKeys (boundBy log)).ncard
  /-- Every stored key is valid and has a callback. -/
  stored : ∀ (key : HookKey) (hook : NativeHook φ), r.hooks[key]? = some hook →
    key.isValid = true ∧ hook ≠ none

/-- **The registry refines a partial map** from valid keys to callbacks, after
every history of calls and whatever the invalidator does. -/
theorem native_hooks_refine_partial_map (V : CodeInvalidator ι) (calls : List (HookCall φ))
    (i : ι) :
    IsPartialMap V (NativeHookRegistry.runCalls V calls i).1
      (NativeHookRegistry.runCalls V calls i).2 := by
  have h := refines_boundBy V calls i
  generalize (NativeHookRegistry.runCalls V calls i).1 = log at h ⊢
  generalize (NativeHookRegistry.runCalls V calls i).2 = r at h ⊢
  have hfind : ∀ k : ValidKey, r.find k.val = .ok ((boundBy log k).map some) := fun k => by
    rw [NativeHookRegistry.find_of_isValid k.property, h.bound k]
  refine ⟨fun key hook => ?_, fun key => ?_, hfind, fun k callback => ?_,
    fun call key hkey => ?_, h.size, fun key hook hkey => ?_⟩
  · rcases NativeHookRegistry.install_cases V key hook r with ⟨e, hc, hi⟩ |
      ⟨e, i, hk, hn, hv, hi⟩ | ⟨callback, i, hk, rfl, hv, hi⟩ <;> rw [hi]
    · exact .inr ⟨hc.imp_right .inl, ⟨e, rfl⟩, rfl⟩
    · exact .inr ⟨.inr (.inr ⟨e, by rw [hv]⟩), ⟨e, rfl⟩, rfl⟩
    · exact .inl ⟨hk, callback, rfl, by rw [hv], rfl, h.insert i ⟨key, hk⟩ callback⟩
  · rcases NativeHookRegistry.remove_cases V key r with ⟨e, hk, hr⟩ | ⟨hk, hb, hr⟩ |
      ⟨e, i, hk, hb, hv, hr⟩ | ⟨i, hk, hb, hv, hr⟩ <;> rw [hr]
    · exact .inr (.inr ⟨.inl hk, ⟨e, rfl⟩, rfl⟩)
    · exact .inr (.inl ⟨hk, (h.unbound ⟨key, hk⟩).1 hb, rfl⟩)
    · exact .inr (.inr ⟨.inr ⟨hk, mt (h.unbound ⟨key, hk⟩).2 hb, e, by rw [hv]⟩, ⟨e, rfl⟩, rfl⟩)
    · exact .inl ⟨hk, mt (h.unbound ⟨key, hk⟩).2 hb, by rw [hv], rfl, h.erase i ⟨key, hk⟩⟩
  · rw [hfind, ← boundBy_eq_some_iff]
    simp [Option.map_eq_some_iff]
  · rw [NativeHookRegistry.find, NativeHookRegistry.find,
      NativeHookRegistry.getElem?_step_of_ne V hkey]
  · have hk := h.valid key (by rw [hkey]; exact Option.some_ne_none _)
    have := h.bound ⟨key, hk⟩
    rw [hkey] at this
    obtain ⟨callback, -, rfl⟩ := Option.map_eq_some_iff.1 this.symm
    exact ⟨hk, Option.some_ne_none _⟩

end Hooks
end GcnPort
