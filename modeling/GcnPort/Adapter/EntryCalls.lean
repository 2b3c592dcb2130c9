/-
# The hook behind an entry

Where Dolphin runs a hook, it calls the function of the table's entry with the context
pointer of the entry, and the adapter finds the hook behind that pointer.  `callEntry` is
this call at any point, and `Serves` says that it runs, for every key, the hook that is
installed there, with a guest context for that same key.  When Dolphin makes the call is
up to Dolphin: a dispatch that an armed ticket sends to the original body makes none.

Between operations the installed hooks are those of the history.  Inside an operation a
call sees the hooks before it or those after it, and inside the destructor a hook or no
entry.  All of it holds as long as no install loses its node (`entries_always_serve`); an
entry whose node is lost dangles (`LosesNode.callEntry`).
-/

import GcnPort.Adapter.AllOrNothing
import GcnPort.Adapter.Confinement

namespace GcnPort
namespace Adapter

open Execution Foundation Hooks PowerPC

variable {σ φ D P ρ : Type}

/-- What a call through the entry for a key comes to. -/
inductive EntryCall (D P ρ : Type) where
  | unhooked
  | foreign
  | dangling
  | invoked (outcome : Invoked D P ρ)

/-- Dolphin calls through the entry for `key`. -/
def DolphinRuntimeAdapter.callEntry (S : RuntimeSession σ) (E : Dolphin D P ρ)
    (behaviour : φ → HookProgram D) (s : DolphinRuntimeAdapter σ φ) (key : PowerPC.HookKey)
    (m : Machine P ρ) : EntryCall D P ρ :=
  match S.hookTable s.session key with
  | none => .unhooked
  | some entry =>
    match entry.function with
    | .other _ => .foreign
    | .bindingInvoke =>
      match s.heap[entry.context]? with
      | none => .dangling
      | some binding => .invoked (binding.invoke E behaviour m)

/-- What the hook that `installed` has for `key` comes to. -/
def expected (E : Dolphin D P ρ) (behaviour : φ → HookProgram D)
    (installed : Hooks.HookKey → Option (NativeHook φ)) (key : Hooks.HookKey) (m : Machine P ρ) :
    EntryCall D P ρ :=
  match installed key with
  | none => .unhooked
  | some hook => .invoked (Binding.invoke E behaviour ⟨hook, toDolphin key⟩ m)

/-- A call through the entry for any key runs the hook that is installed there. -/
def Serves (S : RuntimeSession σ) (s : DolphinRuntimeAdapter σ φ)
    (installed : Hooks.HookKey → Option (NativeHook φ)) : Prop :=
  ∀ {D P ρ : Type} (E : Dolphin D P ρ) (behaviour : φ → HookProgram D) (key : Hooks.HookKey)
    (m : Machine P ρ),
    s.callEntry S E behaviour (toDolphin key) m = expected E behaviour installed key m

/-- The entry for `key`, and the `Binding` behind it. -/
def followed (S : RuntimeSession σ) (session : σ) (heap : Heap φ) (key : Hooks.HookKey) :
    Option (HookFunction × Option (Binding φ)) :=
  (S.hookTable session (toDolphin key)).map fun entry => (entry.function, heap[entry.context]?)

/-- Every entry leads to the `Binding` of the hook that is installed. -/
def Follows (S : RuntimeSession σ) (session : σ) (heap : Heap φ)
    (installed : Hooks.HookKey → Option (NativeHook φ)) : Prop :=
  ∀ key, followed S session heap key =
    (objects installed key).map fun binding => (.bindingInvoke, some binding)

section

variable {S : RuntimeSession σ} {A : Allocator φ} {s t : DolphinRuntimeAdapter σ φ}
  {session session' : σ} {heap : Heap φ} {installed : Hooks.HookKey → Option (NativeHook φ)}
  {key : Hooks.HookKey}

/-- A session that follows a map of hooks serves it. -/
theorem Follows.serves (h : Follows S s.session s.heap installed) : Serves S s installed := by
  intro D P ρ E behaviour key m
  have hkey := h key
  rw [DolphinRuntimeAdapter.callEntry, expected]
  cases htable : S.hookTable s.session (toDolphin key) with
  | none =>
    rw [followed, htable] at hkey
    cases hi : installed key with
    | none => rfl
    | some hook => simp [objects, hi] at hkey
  | some entry =>
    rw [followed, htable] at hkey
    cases hi : installed key with
    | none => simp [objects, hi] at hkey
    | some hook =>
      obtain ⟨hfunction, hheap⟩ : entry.function = .bindingInvoke ∧
          s.heap[entry.context]? = some ⟨hook, toDolphin key⟩ := by simpa [objects, hi] using hkey
      simp only [hfunction, hheap]

/-- **Between operations** every entry leads to its hook. -/
theorem Settled.follows (h : Settled S installed s) : Follows S s.session s.heap installed := by
  intro key
  rw [followed]
  have halive := h.owns.alive key
  rw [← h.owns.borrowed_eq, lent, Option.map_map] at halive
  cases htable : S.hookTable s.session (toDolphin key) with
  | none =>
    rw [htable] at halive
    cases hi : installed key with
    | none => simp [objects, hi]
    | some hook => simp [objects, hi] at halive
  | some entry =>
    rw [htable] at halive
    cases hi : installed key with
    | none => simp [objects, hi] at halive
    | some hook =>
      have hheap : s.heap[entry.context]? = some ⟨hook, toDolphin key⟩ := by
        simpa [objects, hi, living] using halive
      simp [objects, hi, hheap, h.function _ _ htable]

/-- A `Binding` that nothing leads to. -/
theorem Follows.alloc (h : Follows S session heap installed) {p : Pointer}
    (hfree : heap[p]? = none) (b : Binding φ) : Follows S session (heap.insert p b) installed := by
  intro key
  rw [← h key, followed, followed]
  cases htable : S.hookTable session (toDolphin key) with
  | none => rfl
  | some entry =>
    have hkey := h key
    rw [followed, htable] at hkey
    have hne : p ≠ entry.context := by
      rintro rfl
      cases hi : installed key <;> simp [objects, hi, hfree] at hkey
    simp [Std.ExtTreeMap.getElem?_insert, hne]

/-- A change of the entry for `key`, to a `Binding` of a hook or to nothing. -/
theorem Follows.update (h : Follows S session heap installed) (hook : Option (NativeHook φ))
    {entry : Option NativeHookBinding}
    (htable : S.hookTable session' = Function.update (S.hookTable session) (toDolphin key) entry)
    (hentry : entry.map (fun entry => (entry.function, heap[entry.context]?)) =
      hook.map fun hook => (.bindingInvoke, some ⟨hook, toDolphin key⟩)) :
    Follows S session' heap (Function.update installed key hook) := by
  intro key'
  rw [followed, htable, objects_update]
  by_cases hk : key' = key
  · subst hk
    rw [Function.update_self, Function.update_self, hentry, Option.map_map]
    rfl
  · rw [Function.update_of_ne hk, Function.update_of_ne (toDolphin_inj.not.2 hk), ← h key']
    rfl

/-- What a session follows depends on its table alone. -/
theorem Follows.congr (h : Follows S session heap installed)
    (htable : S.hookTable session' = S.hookTable session) : Follows S session' heap installed := by
  intro key
  rw [← h key, followed, followed, htable]

/-- **Inside `install_hook`** a call sees the hooks before it or those after it. -/
theorem Settled.follows_installHook (h : Settled S installed s) (hS : S.Contract)
    (A : Allocator φ) (key : Hooks.HookKey) (hook : NativeHook φ) :
    ∀ t ∈ (s.installHook S A {} key hook).points, Follows S t.session t.heap installed ∨
      ((s.installHook S A {} key hook).answer = .ok () ∧
        Follows S t.session t.heap (Function.update installed key (some hook))) := by
  have halloc := h.follows.alloc (A.next_free s.heap) ⟨hook, toDolphin key⟩
  unfold DolphinRuntimeAdapter.installHook
  rcases hi : S.installNativeHook (toDolphin key) ⟨A.next s.heap, .bindingInvoke⟩ s.session with
    ⟨e | ⟨⟩, session⟩ <;> simp only [hi, Bool.not_true, Bool.false_eq_true, if_false]
  · have hthrew := halloc.congr (hS.install_threw _ _ _ _ _ hi)
    simp only [List.forall_mem_cons]
    exact ⟨.inl halloc, .inl hthrew, fun _ h => absurd h List.not_mem_nil⟩
  · have hset := halloc.update (some hook) (hS.install_set _ _ _ _ hi) (by simp)
    cases hb : s.bindings[key]? with
    | some replaced =>
      simp only [List.forall_mem_cons]
      exact ⟨.inl halloc, .inr ⟨trivial, hset⟩, .inr ⟨trivial, hset⟩,
        fun _ h => absurd h List.not_mem_nil⟩
    | none =>
      simp only [List.forall_mem_cons]
      exact ⟨.inl halloc, .inr ⟨trivial, hset⟩, fun _ h => absurd h List.not_mem_nil⟩

/-- **Inside `remove_hook`** a call sees the hooks after it. -/
theorem Settled.follows_removeHook (h : Settled S installed s) (hS : S.Contract)
    (key : Hooks.HookKey) :
    ∀ t ∈ (s.removeHook S key).points,
      Follows S t.session t.heap (Function.update installed key none) := by
  have hremoved := h.follows.update none (hS.remove_table (toDolphin key) s.session) rfl
  cases hb : s.bindings[key]? with
  | some binding =>
    simp only [DolphinRuntimeAdapter.removeHook, hb, List.forall_mem_cons]
    exact ⟨hremoved, hremoved, fun _ h => absurd h List.not_mem_nil⟩
  | none =>
    simp only [DolphinRuntimeAdapter.removeHook, hb]
    exact fun _ h => absurd h List.not_mem_nil

/-- The hooks after one more operation. -/
theorem installedBy_concat (log : List (AdapterEvent σ φ)) (e : AdapterEvent σ φ) :
    installedBy (log ++ [e]) = applyAll (installedBy log) e.change.toList :=
  applyAll_filterMap_concat AdapterEvent.change log e

/-- **Inside an operation** a call sees the hooks before it or those after it. -/
theorem Settled.follows_step (h : Settled S installed s) (hS : S.Contract) (A : Allocator φ)
    (call : AdapterCall φ) :
    ∀ t ∈ (s.step S A call).1.points, Follows S t.session t.heap installed ∨
      Follows S t.session t.heap (applyAll installed (s.step S A call).1.change.toList) := by
  intro t ht
  cases call with
  | installHook key hook =>
    refine (h.follows_installHook hS A key hook t ht).imp_right fun ⟨hok, ht⟩ => ?_
    simp only [DolphinRuntimeAdapter.step, AdapterEvent.change, hok]
    exact ht
  | removeHook key => exact .inr (h.follows_removeHook hS key t ht)
  | armOriginalCall key => cases ht

/-- The loop of the destructor frees nothing and sets no entry. -/
theorem uninstall_points (hS : S.Contract) (keys : List Hooks.HookKey) :
    ∀ t ∈ (DolphinRuntimeAdapter.forEach (.uninstall S) keys s).1, t.heap = s.heap ∧
      ∀ key, S.hookTable t.session key = S.hookTable s.session key ∨
        S.hookTable t.session key = none := by
  induction keys generalizing s with
  | nil => exact fun _ ht => absurd ht List.not_mem_nil
  | cons key keys ih =>
    have htable : ∀ key', S.hookTable (s.uninstall S key).session key' =
        S.hookTable s.session key' ∨ S.hookTable (s.uninstall S key).session key' = none := by
      intro key'
      rw [DolphinRuntimeAdapter.uninstall, hS.remove_table]
      by_cases hk : key' = toDolphin key
      · exact .inr (by rw [hk, Function.update_self])
      · exact .inl (Function.update_of_ne hk _ _)
    refine List.forall_mem_cons.2 ⟨⟨rfl, htable⟩, fun t ht => ?_⟩
    obtain ⟨hheap, hrest⟩ := ih t ht
    refine ⟨hheap, fun key' => ?_⟩
    rcases hrest key' with hsame | hnone
    · rw [hsame]
      exact htable key'
    · exact .inr hnone

/-- **Inside the destructor** a call sees a hook or no entry. -/
theorem Settled.callEntry_destroy (h : Settled S installed s) (hS : S.Contract)
    (E : Dolphin D P ρ) (behaviour : φ → HookProgram D) (key : Hooks.HookKey) (m : Machine P ρ) :
    ∀ t ∈ (s.destroy S).points,
      t.callEntry S E behaviour (toDolphin key) m = expected E behaviour installed key m ∨
        t.callEntry S E behaviour (toDolphin key) m = .unhooked := by
  intro t ht
  rcases List.mem_append.1 ht with ht | ht
  · obtain ⟨hheap, htable⟩ := uninstall_points hS s.bindings.keys t ht
    rcases htable (toDolphin key) with hsame | hnone
    · rw [← h.follows.serves E behaviour key m]
      refine .inl ?_
      rw [DolphinRuntimeAdapter.callEntry, DolphinRuntimeAdapter.callEntry, hsame, hheap]
    · exact .inr (by rw [DolphinRuntimeAdapter.callEntry, hnone])
  · -- the loop has emptied the table before the first `Binding` is freed
    obtain ⟨-, hbindings, hheap, -⟩ := forEach_uninstall hS s.bindings.keys h.sessionSafe
    have howns := h.owns.self
    rw [← hbindings, ← hheap] at howns
    obtain ⟨hsame, hsession, -⟩ := forEach_dropNode s.bindings.keys howns
    have hnone := (h.destroy hS).2.1 (toDolphin key)
    rw [show (s.destroy S).state.session = t.session from hsession.trans (hsame t ht).symm] at hnone
    exact .inr (by rw [DolphinRuntimeAdapter.callEntry, hnone])

/-- An operation that may fail to allocate is, as far as the entries go, one that does
not, or nothing. -/
theorem Settled.follows_stepAllocating (h : Settled S installed s) (hS : S.Contract)
    {call : Allocations × AdapterCall φ} (hnode : KeepsNode S A call s) :
    ∀ t ∈ (s.stepAllocating S A call).1.points, Follows S t.session t.heap installed ∨
      Follows S t.session t.heap
        (applyAll installed (s.stepAllocating S A call).1.change.toList) := by
  rcases hnode.stepAllocating_cases with hstep | ⟨key, hook, hstep⟩
  · rw [hstep]
    exact h.follows_step hS A call.2
  · rw [hstep]
    exact fun t ht => absurd ht List.not_mem_nil

/-- **A lost node dangles**: a call through the entry reaches the `Binding` that unwinding
has freed. -/
theorem LosesNode.callEntry {allocations : Allocations} (h : LosesNode S A allocations key s)
    (hS : S.Contract) (hook : NativeHook φ) (E : Dolphin D P ρ) (behaviour : φ → HookProgram D)
    (m : Machine P ρ) :
    (s.installHook S A allocations key hook).state.callEntry S E behaviour (toDolphin key) m =
      .dangling := by
  obtain ⟨-, htable, hfreed⟩ := h.installHook hS hook
  rw [DolphinRuntimeAdapter.callEntry, htable, Function.update_self]
  simp only [hfreed]

end

/-- What a history of operations guarantees of the calls through entries, at any point of
it. -/
structure AlwaysServes (S : RuntimeSession σ) (log : List (AdapterEvent σ φ))
    (s : DolphinRuntimeAdapter σ φ) : Prop where
  /-- Between operations a call through the entry for a key runs the hook that was last
  accepted there, and a guest context for that key. -/
  between : Serves S s (installedBy log)
  /-- Inside an operation it runs the hook from before or the one from after. -/
  during : ∀ before e after, log = before ++ e :: after → ∀ t ∈ e.points,
    Serves S t (installedBy before) ∨ Serves S t (installedBy (before ++ [e]))
  /-- Inside the destructor it runs the hook, or finds no entry. -/
  destroying : ∀ t ∈ (s.destroy S).points, ∀ {D P ρ : Type} (E : Dolphin D P ρ)
    (behaviour : φ → HookProgram D) (key : Hooks.HookKey) (m : Machine P ρ),
    t.callEntry S E behaviour (toDolphin key) m = expected E behaviour (installedBy log) key m ∨
      t.callEntry S E behaviour (toDolphin key) m = .unhooked

/-- **The entries always serve the installed hooks**, each for its own key, over any session
that keeps its table as promised and any history of operations, whichever of their
allocations fail, as long as no install loses its node: never a hook that is gone, never
one of another key. -/
theorem entries_always_serve {S : RuntimeSession σ} (hS : S.Contract) (A : Allocator φ)
    (calls : List (Allocations × AdapterCall φ)) {session : σ}
    (hempty : ∀ key, S.hookTable session key = none)
    (hnode : EveryInstall S A (fun allocations key _ s => ¬LosesNode S A allocations key s)
      calls session) :
    AlwaysServes S (DolphinRuntimeAdapter.logAllocating S A calls session)
      (DolphinRuntimeAdapter.runAllocating S A calls session) := by
  have hs := settled_runAllocating hS A hempty hnode
  refine ⟨hs.follows.serves, ?_, fun t ht _ _ _ E behaviour key m =>
    hs.callEntry_destroy hS E behaviour key m t ht⟩
  refine (runAll_preserves_guarded (P := KeepsNode S A)
    (I := fun log s => Settled S (installedBy log) s ∧
      EveryPrefix (fun before e => ∀ t ∈ e.points,
        Serves S t (installedBy before) ∨ Serves S t (installedBy (before ++ [e]))) log)
    (fun call log s hnode h => ?_) calls hnode.keepsNode ⟨?_, everyPrefix_nil⟩).2
  · obtain ⟨hs, hlog⟩ := h
    have hstep := hs.stepAllocating hS hnode
    rw [← installedBy_concat] at hstep
    refine ⟨hstep, hlog.concat fun t ht => ?_⟩
    rw [installedBy_concat]
    exact (hs.follows_stepAllocating hS hnode t ht).imp (·.serves) (·.serves)
  · exact (settled_runCalls hS A [] hempty).2

/-- A hook that is installed, replaced without a node and armed, one whose `Binding` is not
allocated, and one that is refused. -/
theorem entries_always_serve_table :
    ∃ (log : List (AdapterEvent _ ℕ)) (s : DolphinRuntimeAdapter _ ℕ),
      installedBy log ownKey = some (some 1) ∧ AlwaysServes ownTable log s := by
  refine ⟨_, _, ?_, entries_always_serve (tableSession_contract _) (bumpAllocator ℕ)
    [({}, .installHook ownKey (some 0)), (⟨true, false⟩, .installHook ownKey (some 1)),
      (⟨false, true⟩, .installHook ownKey (some 2)),
      ({}, .installHook ⟨⟨⟨.replicate 32 2⟩, 0⟩, 0x80003100⟩ (some 3)),
      ({}, .armOriginalCall ownKey)]
    (fun _ => rfl) ?_⟩
  · decide +kernel
  · intro before allocations key hook after hcalls hnode
    rcases before with _ | ⟨c₁, _ | ⟨c₂, _ | ⟨c₃, _ | ⟨c₄, _ | ⟨c₅, before⟩⟩⟩⟩⟩
    · cases hcalls
      cases hnode.node
    · cases hcalls
      exact absurd hnode.new (by decide +kernel)
    · cases hcalls
      cases hnode.binding
    · cases hcalls
      cases hnode.node
    · cases hcalls
    · simp at hcalls

end Adapter
end GcnPort
