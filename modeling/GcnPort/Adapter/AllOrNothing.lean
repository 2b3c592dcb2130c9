/-
# Installing a hook, all or nothing

`install_hook` allocates a `Binding`, points the session at it, and stores it in
`bindings_`.  Each step can fail.  If the first or the second does, nothing has
changed.  If the third does, for a new key whose node cannot be allocated, the
session keeps the pointer, and unwinding frees the `Binding` behind it
(`LosesNode`).

Until that happens the adapter is settled (`settled_runAllocating`), so the
installs of a run are all-or-nothing exactly if none of them comes to it
(`install_all_or_nothing_iff`).
-/

import GcnPort.Adapter.Lifetime
import GcnPort.Foundation.Log

namespace GcnPort
namespace Adapter

open Execution Foundation Hooks PowerPC

variable {σ : Type*} {φ : Type*}

/-- If the call threw, everything is as it was, and the session's pointers are
alive. -/
def AllOrNothing {α : Type*} (S : RuntimeSession σ) (s : DolphinRuntimeAdapter σ φ)
    (o : Outcome (Except Exception α) σ φ) : Prop :=
  ∀ e, o.answer = .error e →
    S.hookTable o.state.session = S.hookTable s.session ∧ o.state.bindings = s.bindings ∧
      o.state.hookCount = s.hookCount ∧ SessionSafe S o.state

/-- The `Binding` is allocated, the session accepts it, and then the node of a
new key is not. -/
structure LosesNode (S : RuntimeSession σ) (A : Allocator φ) (allocations : Allocations)
    (key : Hooks.HookKey) (s : DolphinRuntimeAdapter σ φ) : Prop where
  binding : allocations.binding = true
  accepts : (S.installNativeHook (toDolphin key) ⟨A.next s.heap, .bindingInvoke⟩ s.session).1 =
    .ok ()
  new : s.bindings[key]? = none
  node : allocations.node = false

namespace DolphinRuntimeAdapter

/-- One operation, whose allocations succeed or not. -/
def stepAllocating (S : RuntimeSession σ) (A : Allocator φ) (call : Allocations × AdapterCall φ)
    (s : DolphinRuntimeAdapter σ φ) : AdapterEvent σ φ × DolphinRuntimeAdapter σ φ :=
  match call with
  | (allocations, .installHook key hook) =>
    let o := s.installHook S A allocations key hook
    (.installHook key hook o.answer o.points, o.state)
  | (_, call) => s.step S A call

/-- The adapter after a history of operations, any of whose allocations may
fail. -/
def runAllocating (S : RuntimeSession σ) (A : Allocator φ)
    (calls : List (Allocations × AdapterCall φ)) (session : σ) : DolphinRuntimeAdapter σ φ :=
  (runAll (stepAllocating S A) calls (new session)).2

/-- The log of that history. -/
def logAllocating (S : RuntimeSession σ) (A : Allocator φ)
    (calls : List (Allocations × AdapterCall φ)) (session : σ) : List (AdapterEvent σ φ) :=
  (runAll (stepAllocating S A) calls (new session)).1

end DolphinRuntimeAdapter

/-- `P` holds of each install of a history, in the state it is called in. -/
def EveryInstall (S : RuntimeSession σ) (A : Allocator φ)
    (P : Allocations → Hooks.HookKey → NativeHook φ → DolphinRuntimeAdapter σ φ → Prop)
    (calls : List (Allocations × AdapterCall φ)) (session : σ) : Prop :=
  ∀ before allocations key hook after,
    calls = before ++ (allocations, .installHook key hook) :: after →
      P allocations key hook (DolphinRuntimeAdapter.runAllocating S A before session)

section

variable {S : RuntimeSession σ} {A : Allocator φ} {s : DolphinRuntimeAdapter σ φ}
  {m : Hooks.HookKey → Option (NativeHook φ)} {allocations : Allocations} {key : Hooks.HookKey}
  {hook : NativeHook φ}

/-- A `Binding` that cannot be allocated changes nothing. -/
theorem installHook_of_binding_eq_false (h : allocations.binding = false) :
    s.installHook S A allocations key hook = ⟨.error DolphinRuntimeAdapter.badAlloc, [], s⟩ := by
  simp [DolphinRuntimeAdapter.installHook, h]

/-- An install that needs no node it does not get is one whose allocations all
succeed. -/
theorem installHook_of_not_losesNode (hbinding : allocations.binding = true)
    (h : ¬LosesNode S A allocations key s) :
    s.installHook S A allocations key hook = s.installHook S A {} key hook := by
  unfold DolphinRuntimeAdapter.installHook
  rcases hi : S.installNativeHook (toDolphin key) ⟨A.next s.heap, .bindingInvoke⟩ s.session with
    ⟨e | ⟨⟩, session⟩
  · simp [hi, hbinding]
  · cases hb : s.bindings[key]? with
    | some replaced => simp [hi, hb, hbinding]
    | none =>
      have hnode : allocations.node = true := by
        by_contra hnode
        exact h ⟨hbinding, by rw [hi], hb, Bool.eq_false_iff.2 hnode⟩
      simp [hi, hb, hbinding, hnode]

/-- An install that throws with all allocations succeeding was refused by the
session, and keeps what was there. -/
theorem installHook_of_error (hS : S.Contract) {e : Exception}
    (h : (s.installHook S A {} key hook).answer = .error e) :
    S.hookTable (s.installHook S A {} key hook).state.session = S.hookTable s.session ∧
      (s.installHook S A {} key hook).state.bindings = s.bindings := by
  unfold DolphinRuntimeAdapter.installHook at h ⊢
  rcases hi : S.installNativeHook (toDolphin key) ⟨A.next s.heap, .bindingInvoke⟩ s.session with
    ⟨e' | ⟨⟩, session⟩ <;> simp only [hi, Bool.not_true, Bool.false_eq_true, if_false] at h ⊢
  · exact ⟨hS.install_threw _ _ _ _ _ hi, rfl⟩
  · cases hb : s.bindings[key]? <;> rw [hb] at h <;> cases h

/-- **A node that is lost** leaves the session with the pointer. -/
theorem LosesNode.installHook (h : LosesNode S A allocations key s) (hS : S.Contract)
    (hook : NativeHook φ) :
    (s.installHook S A allocations key hook).answer = .error DolphinRuntimeAdapter.badAlloc ∧
      S.hookTable (s.installHook S A allocations key hook).state.session =
        Function.update (S.hookTable s.session) (toDolphin key)
          (some ⟨A.next s.heap, .bindingInvoke⟩) ∧
      (s.installHook S A allocations key hook).state.heap[A.next s.heap]? = none := by
  obtain ⟨hbinding, hok, hnew, hnode⟩ := h
  unfold DolphinRuntimeAdapter.installHook
  rcases hi : S.installNativeHook (toDolphin key) ⟨A.next s.heap, .bindingInvoke⟩ s.session with
    ⟨e | ⟨⟩, session⟩
  · rw [hi] at hok
    cases hok
  · simp only [hbinding, hi, hnew, hnode, Bool.not_true, Bool.not_false, Bool.false_eq_true,
      if_false, if_true]
    refine ⟨trivial, hS.install_set _ _ _ _ hi, ?_⟩
    simp [DolphinRuntimeAdapter.free]

/-- **A settled adapter installs all or nothing**, unless it loses a node. -/
theorem Settled.allOrNothing (h : Settled S m s) (hS : S.Contract)
    (hnode : ¬LosesNode S A allocations key s) :
    AllOrNothing S s (s.installHook S A allocations key hook) := by
  intro e he
  by_cases hbinding : allocations.binding = true
  · rw [installHook_of_not_losesNode hbinding hnode] at he ⊢
    obtain ⟨-, hstate⟩ := h.installHook hS A key hook
    have hsettled : Settled S m (s.installHook S A {} key hook).state := by
      rcases hstate with ⟨-, hsettled⟩ | ⟨hok, -⟩
      · exact hsettled
      · rw [he] at hok
        cases hok
    obtain ⟨htable, hbindings⟩ := installHook_of_error hS he
    refine ⟨htable, hbindings, ?_, hsettled.sessionSafe⟩
    rw [DolphinRuntimeAdapter.hookCount, hbindings, DolphinRuntimeAdapter.hookCount]
  · rw [installHook_of_binding_eq_false (Bool.eq_false_iff.2 hbinding)]
    exact ⟨rfl, rfl, rfl, h.sessionSafe⟩

/-- **An install that loses a node is neither**: the session's table has changed,
though the call threw. -/
theorem Settled.not_allOrNothing (h : Settled S m s) (hS : S.Contract)
    (hnode : LosesNode S A allocations key s) :
    ¬AllOrNothing S s (s.installHook S A allocations key hook) := by
  intro hall
  obtain ⟨hanswer, htable, -⟩ := hnode.installHook hS hook
  have hsame := (hall _ hanswer).1
  rw [htable] at hsame
  have hentry := congrFun hsame (toDolphin key)
  rw [Function.update_self] at hentry
  have hstored : stored s.bindings key = some (A.next s.heap) := by
    rw [← h.owns.borrowed_eq, lent, ← hentry]
    rfl
  cases hnode.new.symm.trans hstored

/-- The operation, an install at least, loses no node. -/
def KeepsNode (S : RuntimeSession σ) (A : Allocator φ) (call : Allocations × AdapterCall φ)
    (s : DolphinRuntimeAdapter σ φ) : Prop :=
  ∀ key hook, call.2 = .installHook key hook → ¬LosesNode S A call.1 key s

/-- **An operation that loses no node** is one whose allocations succeed, or an install
that has done nothing. -/
theorem KeepsNode.stepAllocating_cases {call : Allocations × AdapterCall φ}
    (h : KeepsNode S A call s) : s.stepAllocating S A call = s.step S A call.2 ∨
      ∃ key hook, s.stepAllocating S A call =
        (.installHook key hook (.error DolphinRuntimeAdapter.badAlloc) [], s) := by
  obtain ⟨allocations, call⟩ := call
  cases call with
  | installHook key hook =>
    by_cases hbinding : allocations.binding = true
    · left
      rw [DolphinRuntimeAdapter.stepAllocating,
        installHook_of_not_losesNode hbinding (h key hook rfl)]
      rfl
    · right
      refine ⟨key, hook, ?_⟩
      rw [DolphinRuntimeAdapter.stepAllocating,
        installHook_of_binding_eq_false (Bool.eq_false_iff.2 hbinding)]
  | removeHook key => exact .inl rfl
  | armOriginalCall key => exact .inl rfl

/-- **The step lemma.**  An operation that loses no node leads from a settled
adapter to a settled one. -/
theorem Settled.stepAllocating (h : Settled S m s) (hS : S.Contract)
    {call : Allocations × AdapterCall φ} (hnode : KeepsNode S A call s) :
    Settled S (applyAll m (s.stepAllocating S A call).1.change.toList)
      (s.stepAllocating S A call).2 := by
  rcases hnode.stepAllocating_cases with hstep | ⟨key, hook, hstep⟩
  · rw [hstep]
    exact (h.step hS A call.2).2
  · rw [hstep]
    exact h

end

section

variable {S : RuntimeSession σ} {calls before : List (Allocations × AdapterCall φ)} {session : σ}

/-- What holds of every install of a history holds of those before. -/
theorem EveryInstall.of_append {A : Allocator φ}
    {P : Allocations → Hooks.HookKey → NativeHook φ → DolphinRuntimeAdapter σ φ → Prop}
    {after : List (Allocations × AdapterCall φ)}
    (h : EveryInstall S A P (before ++ after) session) : EveryInstall S A P before session := by
  rintro l allocations key hook m rfl
  exact h l allocations key hook (m ++ after) (by simp)

/-- A history of installs that lose no node. -/
theorem EveryInstall.keepsNode {A : Allocator φ}
    (h : EveryInstall S A (fun allocations key _ s => ¬LosesNode S A allocations key s)
      calls session) : ∀ before call after, calls = before ++ call :: after →
        KeepsNode S A call (DolphinRuntimeAdapter.runAllocating S A before session) :=
  fun before call after hcalls key hook hcall =>
    h before call.1 key hook after (by rw [hcalls, ← hcall])

/-- **The run lemma.**  A history that loses no node leads to a settled adapter, with the
hooks it has accepted. -/
theorem settled_runAllocating (hS : S.Contract) (A : Allocator φ)
    (hempty : ∀ key, S.hookTable session key = none)
    (hnode : EveryInstall S A (fun allocations key _ s => ¬LosesNode S A allocations key s)
      calls session) :
    Settled S (installedBy (DolphinRuntimeAdapter.logAllocating S A calls session))
      (DolphinRuntimeAdapter.runAllocating S A calls session) := by
  refine runAll_preserves_guarded (I := fun log s => Settled S (installedBy log) s)
    (P := KeepsNode S A) (fun call log s hnode h => ?_) calls hnode.keepsNode
    (settled_runCalls hS A [] hempty).2
  have hstep := h.stepAllocating hS hnode
  rwa [installedBy, ← applyAll_filterMap_concat] at hstep

/-- **Installs are all-or-nothing** over a history of operations, whichever of
their allocations fail and whatever the session refuses, exactly if none of them
loses the node of a new key after the session has accepted the hook. -/
theorem install_all_or_nothing_iff (hS : S.Contract) (A : Allocator φ)
    (hempty : ∀ key, S.hookTable session key = none)
    (calls : List (Allocations × AdapterCall φ)) :
    EveryInstall S A (fun allocations key hook s =>
        AllOrNothing S s (s.installHook S A allocations key hook)) calls session ↔
      EveryInstall S A (fun allocations key _ s => ¬LosesNode S A allocations key s)
        calls session := by
  constructor
  · intro hall
    -- the first install that loses a node meets a settled adapter
    induction calls using List.reverseRecOn with
    | nil => exact fun before _ _ _ _ h => absurd h.symm (by simp)
    | append_singleton calls call ih =>
      have hbefore := ih hall.of_append
      have hsettled := settled_runAllocating hS A hempty hbefore
      intro before allocations key hook after hcalls hnode
      rcases concat_eq_append_cons.1 hcalls with ⟨rfl, -, rfl⟩ | ⟨after, rfl, -⟩
      · exact hsettled.not_allOrNothing hS hnode (hall calls allocations key hook [] hcalls)
      · exact hbefore before allocations key hook after rfl hnode
  · intro hnode before allocations key hook after hcalls
    rw [hcalls] at hnode
    have hsettled := settled_runAllocating hS A hempty hnode.of_append
    exact hsettled.allOrNothing hS (hnode before allocations key hook after rfl)

end

/-- A hook that is installed, one that replaces it without a node, and a
`Binding` that cannot be allocated: each is all or nothing. -/
theorem install_all_or_nothing_table :
    EveryInstall ownTable (bumpAllocator ℕ)
      (fun allocations key hook s =>
        AllOrNothing ownTable s (s.installHook ownTable (bumpAllocator ℕ) allocations key hook))
      [({}, .installHook ownKey (some 0)), (⟨true, false⟩, .installHook ownKey (some 1)),
        (⟨false, true⟩, .installHook ownKey (some 2))] fun _ => none := by
  refine (install_all_or_nothing_iff (tableSession_contract _) _ (fun _ => rfl) _).2 ?_
  intro before allocations key hook after hcalls hnode
  rcases before with _ | ⟨c₁, _ | ⟨c₂, _ | ⟨c₃, before⟩⟩⟩
  · cases hcalls
    cases hnode.node
  · cases hcalls
    exact absurd hnode.new (by decide +kernel)
  · cases hcalls
    cases hnode.binding
  · simp at hcalls

/-- **A lost node dangles.**  The node of a new key cannot be allocated: the call
throws, and the session holds a pointer to the `Binding` that was freed. -/
theorem install_not_all_or_nothing : ∃ s : DolphinRuntimeAdapter _ ℕ,
    s = .runAllocating ownTable (bumpAllocator ℕ) [] (fun _ => none) ∧
      ¬AllOrNothing ownTable s (s.installHook ownTable (bumpAllocator ℕ) ⟨true, false⟩ ownKey
        (some 0)) ∧
      ¬SessionSafe ownTable (s.installHook ownTable (bumpAllocator ℕ) ⟨true, false⟩ ownKey
        (some 0)).state := by
  have hnode : LosesNode ownTable (bumpAllocator ℕ) ⟨true, false⟩ ownKey
      (.runAllocating ownTable (bumpAllocator ℕ) [] fun _ => none) := by
    constructor
    · rfl
    · rfl
    · decide +kernel
    · rfl
  obtain ⟨-, htable, hfreed⟩ := hnode.installHook (tableSession_contract _) (some 0)
  refine ⟨_, rfl, ?_, fun hsafe => ?_⟩
  · have hnone : EveryInstall ownTable (bumpAllocator ℕ)
        (fun allocations key _ s => ¬LosesNode ownTable (bumpAllocator ℕ) allocations key s) []
        fun _ => none := fun before _ _ _ _ h => absurd h.symm (by simp)
    have hsettled := settled_runAllocating (tableSession_contract _) _ (fun _ => rfl) hnone
    exact hsettled.not_allOrNothing (tableSession_contract _) hnode
  · obtain ⟨binding, hbinding⟩ := hsafe (toDolphin ownKey) _ (by
      rw [htable]
      exact Function.update_self _ _ _)
    exact absurd (hfreed.symm.trans hbinding) (nomatch ·)

end Adapter
end GcnPort
