/-
# The life of an adapter

From its construction over a session with an empty table to its destruction.
Every history of operations leads from one settled state to another
(`settled_runCalls`), and a settled adapter can be destroyed, so
`adapter_never_dangles` covers every point in between.
-/

import GcnPort.Adapter.Destruction

namespace GcnPort
namespace Adapter

open Execution Foundation Hooks PowerPC

variable {σ : Type*} {φ : Type*}

/-- What an operation changed: the key it bound, if the session accepted the
hook, or the key it unbound. -/
def AdapterEvent.change : AdapterEvent σ φ → Option (Change Hooks.HookKey (NativeHook φ))
  | .installHook key hook (.ok ()) _ => some ⟨key, some hook⟩
  | .removeHook key _ _ => some ⟨key, none⟩
  | .installHook _ _ (.error _) _ | .armOriginalCall _ _ _ => none

/-- The callables a history leaves installed. -/
def installedBy (log : List (AdapterEvent σ φ)) : Hooks.HookKey → Option (NativeHook φ) :=
  applyAll (fun _ => none) (log.filterMap AdapterEvent.change)

section

variable {S : RuntimeSession σ} {A : Allocator φ} {s : DolphinRuntimeAdapter σ φ}
  {m : Hooks.HookKey → Option (NativeHook φ)}

/-- **The step lemma of the adapter.** -/
theorem Settled.step (h : Settled S m s) (hS : S.Contract) (A : Allocator φ)
    (call : AdapterCall φ) :
    (∀ t ∈ (s.step S A call).1.points, SessionSafe S t) ∧
      Settled S (applyAll m (s.step S A call).1.change.toList) (s.step S A call).2 := by
  cases call with
  | installHook key hook =>
    obtain ⟨hpoints, hstate⟩ := h.installHook hS A key hook
    refine ⟨hpoints, ?_⟩
    rcases hstate with ⟨⟨e, he⟩, hstate⟩ | ⟨hok, hstate⟩
    · simp only [DolphinRuntimeAdapter.step, AdapterEvent.change, he]
      exact hstate
    · simp only [DolphinRuntimeAdapter.step, AdapterEvent.change, hok]
      exact hstate
  | removeHook key =>
    obtain ⟨hpoints, -, hstate⟩ := h.removeHook hS key
    exact ⟨hpoints, hstate⟩
  | armOriginalCall key =>
    obtain ⟨hpoints, hstate⟩ := h.armOriginalCall hS key
    refine ⟨fun t ht => ?_, hstate⟩
    simp [AdapterEvent.points, DolphinRuntimeAdapter.step, hpoints] at ht

/-- **Every history leads to a settled adapter**, and is safe at every point. -/
theorem settled_runCalls (hS : S.Contract) (A : Allocator φ) (calls : List (AdapterCall φ))
    {session : σ} (hempty : ∀ key, S.hookTable session key = none) :
    (∀ e ∈ (DolphinRuntimeAdapter.runCalls S A calls session).1,
        ∀ t ∈ e.points, SessionSafe S t) ∧
      Settled S (installedBy (DolphinRuntimeAdapter.runCalls S A calls session).1)
        (DolphinRuntimeAdapter.runCalls S A calls session).2 := by
  refine runAll_preserves_log
    (I := fun log s => (∀ e ∈ log, ∀ t ∈ e.points, SessionSafe S t) ∧
      Settled S (installedBy log) s) (fun call log s h => ?_) calls ?_
  · obtain ⟨hlog, hs⟩ := h
    obtain ⟨hpoints, hstate⟩ := hs.step hS A call
    refine ⟨fun e he => ?_, ?_⟩
    · rcases List.mem_append.1 he with he | he
      · exact hlog e he
      · exact List.mem_singleton.1 he ▸ hpoints
    · rwa [installedBy, applyAll_filterMap_concat]
  · refine ⟨fun _ he => absurd he List.not_mem_nil, ?_, fun key entry hentry => ?_⟩
    · have hlent : lent S session = fun _ => none := by
        funext key
        rw [lent, hempty, Option.map_none]
      have hstored : stored ∅ = fun _ => none := by
        funext key
        simp [stored]
      have hliving : living (∅ : Heap φ) = fun _ => none := by
        funext p
        simp [living]
      simp only [DolphinRuntimeAdapter.new, hlent, hstored, hliving]
      exact Owns.empty
    · rw [DolphinRuntimeAdapter.new, hempty] at hentry
      cases hentry

/-- What a history of operations guarantees of the adapter. -/
structure NeverDangles (S : RuntimeSession σ) (log : List (AdapterEvent σ φ))
    (s : DolphinRuntimeAdapter σ φ) : Prop where
  /-- At every point inside an operation, the session's pointers are alive. -/
  during : ∀ e ∈ log, ∀ t ∈ e.points, SessionSafe S t
  /-- Between operations, each entry of the session is the `Binding` stored under
  the same key, which holds that key and the callable last accepted there. -/
  between : ∀ (key : Hooks.HookKey) entry, S.hookTable s.session (toDolphin key) = some entry →
    entry.function = .bindingInvoke ∧ s.bindings[key]? = some entry.context ∧
      ∃ hook, s.heap[entry.context]? = some ⟨hook, toDolphin key⟩ ∧
        ∃ before points after, log = before ++ .installHook key hook (.ok ()) points :: after ∧
          ∀ e ∈ after, ∀ c ∈ e.change, c.key ≠ key
  /-- `hook_count` is the number of entries of the session. -/
  hookCount : s.hookCount = (boundKeys (S.hookTable s.session)).ncard
  /-- The session's pointers are alive between operations too. -/
  settled : SessionSafe S s
  /-- They are alive at every point of the destruction. -/
  destroying : ∀ t ∈ (s.destroy S).points, SessionSafe S t
  /-- After it, the session's table is empty, and every `Binding` is freed. -/
  destroyed : (∀ key, S.hookTable (s.destroy S).state.session key = none) ∧
    ∀ p : Pointer, (s.destroy S).state.heap[p]? = none

/-- The entries of the session, counted. -/
theorem Settled.hookCount (h : Settled S m s) :
    s.hookCount = (boundKeys (S.hookTable s.session)).ncard := by
  have himage : boundKeys (S.hookTable s.session) = toDolphin '' boundKeys (stored s.bindings) := by
    rw [← h.owns.borrowed_eq]
    ext key
    obtain ⟨key, rfl⟩ := toDolphin_bijective.surjective key
    simp [boundKeys, lent]
  rw [himage, Set.ncard_image_of_injective _ toDolphin_bijective.injective]
  exact size_eq_ncard s.bindings

/-- A key is bound by an install that was accepted, and by nothing else. -/
theorem AdapterEvent.change_eq_install_iff {e : AdapterEvent σ φ} {key : Hooks.HookKey}
    {hook : NativeHook φ} : e.change = some ⟨key, some hook⟩ ↔
      ∃ points, e = .installHook key hook (.ok ()) points := by
  constructor
  · intro h
    match e with
    | .installHook key' hook' (.ok ()) points =>
      obtain ⟨rfl, rfl⟩ : key' = key ∧ hook' = hook := by simpa [change] using h
      exact ⟨points, rfl⟩
    | .removeHook .. => simp [change] at h
  · rintro ⟨points, rfl⟩
    rfl

/-- An entry of the session is the stored `Binding` of the last accepted hook. -/
theorem Settled.entry {log : List (AdapterEvent σ φ)} (h : Settled S (installedBy log) s)
    {key : Hooks.HookKey} {entry : NativeHookBinding}
    (hentry : S.hookTable s.session (toDolphin key) = some entry) :
    s.bindings[key]? = some entry.context ∧
      ∃ hook, s.heap[entry.context]? = some ⟨hook, toDolphin key⟩ ∧
        ∃ before points after, log = before ++ .installHook key hook (.ok ()) points :: after ∧
          ∀ e ∈ after, ∀ c ∈ e.change, c.key ≠ key := by
  have hstored : stored s.bindings key = some entry.context := by
    rw [← h.owns.borrowed_eq, lent, hentry]
    rfl
  obtain ⟨binding, hobject, hheap⟩ := h.owns.heap_eq hstored
  obtain ⟨hook, hhook, rfl⟩ := Option.map_eq_some_iff.1 hobject
  obtain ⟨before, e, after, rfl, he, hafter⟩ := applyAll_filterMap_eq_some_iff.1 hhook
  obtain ⟨points, rfl⟩ := AdapterEvent.change_eq_install_iff.1 he
  exact ⟨hstored, hook, hheap, before, points, after, rfl, hafter⟩

end

/-- **The adapter never leaves Dolphin a pointer to freed hook storage.**  Over
any session that keeps its table as promised, and for any history of operations
followed by destruction, every context pointer in the session's table designates
a `Binding` that is alive, between operations and at every point inside them. -/
theorem adapter_never_dangles {S : RuntimeSession σ} (hS : S.Contract) (A : Allocator φ)
    (calls : List (AdapterCall φ)) {session : σ}
    (hempty : ∀ key, S.hookTable session key = none) :
    NeverDangles S (DolphinRuntimeAdapter.runCalls S A calls session).1
      (DolphinRuntimeAdapter.runCalls S A calls session).2 := by
  obtain ⟨hpoints, hs⟩ := settled_runCalls hS A calls hempty
  obtain ⟨hdestroying, hdestroyed⟩ := hs.destroy hS
  exact ⟨hpoints, fun key entry hentry => ⟨hs.function _ _ hentry, hs.entry hentry⟩,
    hs.hookCount, hs.sessionSafe, hdestroying, hdestroyed⟩

/-- A session that keeps its table as a function and refuses every key of
another identity. -/
def tableSession (identity : PowerPC.ExecutionIdentity) :
    RuntimeSession (PowerPC.HookKey → Option NativeHookBinding) where
  installNativeHook key entry table :=
    if key.identity = identity then (.ok (), Function.update table key (some entry))
    else (.error (.external "hook key carries another identity"), table)
  removeNativeHook key table := ((table key).isSome, Function.update table key none)
  executeOriginalOnce key table := ((table key).isSome, table)
  hookTable := id

/-- A session that is nothing but its table keeps it as promised. -/
theorem tableSession_contract (identity : PowerPC.ExecutionIdentity) :
    (tableSession identity).Contract where
  install_threw key entry s e s' h := by
    simp only [tableSession] at h
    split_ifs at h
    · cases (Prod.mk.inj h).1
    · exact (Prod.mk.inj h).2.symm
  install_set key entry s s' h := by
    simp only [tableSession] at h
    split_ifs at h
    · exact (Prod.mk.inj h).2.symm
    · cases (Prod.mk.inj h).1
  remove_table _ _ := rfl
  remove_answer _ _ := rfl
  execute_table _ _ := rfl

/-- A valid key. -/
def ownKey : Hooks.HookKey := ⟨⟨⟨.replicate 32 1⟩, 0⟩, 0x80003100⟩

/-- The session of that key's identity. -/
abbrev ownTable : RuntimeSession (PowerPC.HookKey → Option NativeHookBinding) :=
  tableSession (identityToDolphin ownKey.identity)

/-- Allocates past every address in use. -/
def bumpAllocator (φ : Type*) : Allocator φ where
  next heap := heap.keys.sum + 1
  next_free heap := by
    by_contra h
    have hmem : heap.keys.sum + 1 ∈ heap.keys := by
      rw [Std.ExtTreeMap.mem_keys, Std.ExtTreeMap.mem_iff_isSome_getElem?,
        Option.isSome_iff_ne_none]
      exact h
    exact absurd (List.le_sum_of_mem hmem) (Nat.not_succ_le_self _)

/-- A hook that is installed, replaced, refused under a foreign identity and
armed: one entry is left. -/
theorem adapter_never_dangles_table :
    ∃ (log : List (AdapterEvent _ ℕ)) (s : DolphinRuntimeAdapter _ ℕ), s.hookCount = 1 ∧
      NeverDangles (tableSession ⟨⟨.replicate 32 1⟩, 0⟩) log s := by
  let key : Hooks.HookKey := ⟨⟨⟨.replicate 32 1⟩, 0⟩, 0x80003100⟩
  let foreign : Hooks.HookKey := ⟨⟨⟨.replicate 32 2⟩, 0⟩, 0x80003100⟩
  have hempty : ∀ k, (tableSession ⟨⟨.replicate 32 1⟩, 0⟩).hookTable (fun _ => none) k = none :=
    fun _ => rfl
  refine ⟨_, _, ?_, adapter_never_dangles (tableSession_contract _) (bumpAllocator ℕ)
    [.installHook key (some 0), .installHook key (some 1), .installHook foreign (some 2),
      .removeHook foreign, .armOriginalCall key] hempty⟩
  decide +kernel

end Adapter
end GcnPort
