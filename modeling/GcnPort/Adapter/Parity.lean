/-
# One installation policy, written twice

The registry and the adapter each decide which hooks may be installed.  The
registry checks the key and the callback itself; the adapter leaves the decision
to the session, which sees a function pointer and a context pointer, and cannot
tell that the `std::function` behind them is empty.  `runBoth` applies one
history to both.

While nobody installs an empty callback the two agree (`Matched.agree`): the
adapter is then settled on what the registry holds.  The first empty callback is
refused by the one and accepted by the other, so they agree exactly for the
histories without one (`installation_parity_iff`).
-/

import GcnPort.Adapter.Backend
import GcnPort.Adapter.Lifetime
import GcnPort.Hooks.Refinement

namespace GcnPort
namespace Adapter

open Execution Foundation Hooks PowerPC

/-- A session that accepts an install exactly for the valid keys of its own
identity, and otherwise keeps its table as promised. -/
structure PowerPC.RuntimeSession.AcceptsOwn {σ : Type*} (S : RuntimeSession σ)
    (identity : PowerPC.ExecutionIdentity) : Prop where
  contract : S.Contract
  install_iff : ∀ (key : Hooks.HookKey) entry s,
    (S.installNativeHook (toDolphin key) entry s).1 = .ok () ↔
      key.isValid = true ∧ identityToDolphin key.identity = identity

/-- An operation that both have. -/
inductive HookOperation (φ : Type*) where
  | install (key : Hooks.HookKey) (hook : NativeHook φ)
  | remove (key : Hooks.HookKey)
deriving DecidableEq, Repr

namespace HookOperation

variable {φ : Type*}

/-- The key of an operation. -/
def key : HookOperation φ → Hooks.HookKey
  | .install key _ | .remove key => key

/-- An install of an empty callback. -/
def installsEmpty : HookOperation φ → Bool
  | .install _ none => true
  | _ => false

/-- The operation as a call of the registry. -/
def toRegistry : HookOperation φ → HookCall φ
  | .install key hook => .install key hook
  | .remove key => .remove key

/-- The operation as a call of the adapter. -/
def toAdapter : HookOperation φ → AdapterCall φ
  | .install key hook => .installHook key hook
  | .remove key => .removeHook key

end HookOperation

/-- The two events are answers to one operation, and agree: an install is
accepted by both or by neither, and a remove returns the same answer. -/
def SameAnswer {σ φ : Type*} : HookEvent φ → AdapterEvent σ φ → Prop
  | .install _ _ answer, .installHook _ _ answer' _ => answer = .ok () ↔ answer' = .ok ()
  | .remove _ answer, .removeHook _ answer' _ => answer = .ok answer'
  | _, _ => False

/-- The registry and the adapter, side by side. -/
structure Both (ι σ φ : Type*) where
  registry : NativeHookRegistry ι φ
  adapter : DolphinRuntimeAdapter σ φ

section

variable {ι σ φ : Type*}

/-- An operation applied to both. -/
def stepBoth (V : CodeInvalidator ι) (S : RuntimeSession σ) (A : Allocator φ)
    (operation : HookOperation φ) (b : Both ι σ φ) :
    (HookEvent φ × AdapterEvent σ φ) × Both ι σ φ :=
  let (event, registry) := b.registry.step V operation.toRegistry
  let (event', adapter) := b.adapter.step S A operation.toAdapter
  ((event, event'), ⟨registry, adapter⟩)

/-- A history of operations applied to both. -/
def runBoth (V : CodeInvalidator ι) (S : RuntimeSession σ) (A : Allocator φ)
    (operations : List (HookOperation φ)) (i : ι) (session : σ) :
    List (HookEvent φ × AdapterEvent σ φ) × Both ι σ φ :=
  runAll (stepBoth V S A) operations ⟨.new i, .new session⟩

/-- The `std::function` that `Binding::Invoke` calls for `key`: the one in the
`Binding` that the session's entry points to. -/
def invoked (S : RuntimeSession σ) (s : DolphinRuntimeAdapter σ φ) (key : Hooks.HookKey) :
    Option (NativeHook φ) :=
  (S.hookTable s.session (toDolphin key)).bind fun entry =>
    s.heap[entry.context]?.map Binding.hook

/-- The registry and the adapter are in the same state, as far as their callers
can see, and no hook that can be dispatched is empty. -/
structure Agree (S : RuntimeSession σ) (b : Both ι σ φ) : Prop where
  count : b.adapter.hookCount = b.registry.size
  find : ∀ key : Hooks.HookKey, key.isValid = true →
    b.registry.find key = .ok (invoked S b.adapter key)
  nonempty : ∀ key, invoked S b.adapter key ≠ some none

/-- Over a history, every answer agrees, and so do the states it leads to. -/
structure Parity (V : CodeInvalidator ι) (S : RuntimeSession σ) (A : Allocator φ)
    (operations : List (HookOperation φ)) (i : ι) (session : σ) : Prop where
  answers : ∀ e ∈ (runBoth V S A operations i session).1, SameAnswer e.1 e.2
  states : ∀ before after, operations = before ++ after →
    Agree S (runBoth V S A before i session).2

/-- What the registry holds. -/
def held (r : NativeHookRegistry ι φ) : Hooks.HookKey → Option (NativeHook φ) :=
  fun key => r.hooks[key]?

/-- The adapter is settled on what the registry holds, which are callbacks. -/
structure Matched (S : RuntimeSession σ) (b : Both ι σ φ) : Prop where
  settled : Settled S (held b.registry) b.adapter
  callbacks : ∀ key, held b.registry key ≠ some none

variable {V : CodeInvalidator ι} {S : RuntimeSession σ} {A : Allocator φ} {b : Both ι σ φ}
  {identity : PowerPC.ExecutionIdentity}

/-- What the session would call is what the adapter is settled on. -/
theorem Settled.invoked_eq {m : Hooks.HookKey → Option (NativeHook φ)}
    {s : DolphinRuntimeAdapter σ φ} (h : Settled S m s) (key : Hooks.HookKey) :
    invoked S s key = m key := by
  have hlent : (S.hookTable s.session (toDolphin key)).map NativeHookBinding.context =
      stored s.bindings key := congrFun h.owns.borrowed_eq key
  unfold invoked
  cases hentry : S.hookTable s.session (toDolphin key) with
  | none =>
    rw [hentry] at hlent
    have hnone := h.owns.owner_eq_none_iff.1 hlent.symm
    exact (Option.map_eq_none_iff.1 hnone).symm
  | some entry =>
    rw [hentry] at hlent
    obtain ⟨binding, hobject, hheap⟩ := h.owns.heap_eq hlent.symm
    obtain ⟨hook, hm, rfl⟩ := Option.map_eq_some_iff.1 hobject
    change s.heap[entry.context]?.map Binding.hook = m key
    rw [show s.heap[entry.context]? = _ from hheap, hm]
    rfl

/-- The adapter counts what it is settled on. -/
theorem Settled.hookCount_eq {m : Hooks.HookKey → Option (NativeHook φ)}
    {s : DolphinRuntimeAdapter σ φ} (h : Settled S m s) :
    s.hookCount = (boundKeys m).ncard := by
  have hkeys : (boundKeys fun key : Hooks.HookKey => s.bindings[key]?) = boundKeys m := by
    ext key
    have hnone : stored s.bindings key = none ↔ m key = none :=
      h.owns.owner_eq_none_iff.trans Option.map_eq_none_iff
    exact not_congr hnone
  rw [DolphinRuntimeAdapter.hookCount, size_eq_ncard, hkeys]

/-- Matched states agree. -/
theorem Matched.agree (h : Matched S b) : Agree S b := by
  constructor
  · rw [h.settled.hookCount_eq, NativeHookRegistry.size, size_eq_ncard]
    rfl
  · intro key hk
    rw [NativeHookRegistry.find_of_isValid hk, h.settled.invoked_eq]
    rfl
  · intro key
    rw [h.settled.invoked_eq]
    exact h.callbacks key

/-- The adapter accepts an install exactly if the session does. -/
theorem installHook_ok_iff (S : RuntimeSession σ) (A : Allocator φ) (key : Hooks.HookKey)
    (hook : NativeHook φ) (s : DolphinRuntimeAdapter σ φ) :
    (s.installHook S A {} key hook).answer = .ok () ↔
      (S.installNativeHook (toDolphin key) ⟨A.next s.heap, .bindingInvoke⟩ s.session).1 =
        .ok () := by
  unfold DolphinRuntimeAdapter.installHook
  rcases hi : S.installNativeHook (toDolphin key) ⟨A.next s.heap, .bindingInvoke⟩ s.session with
    ⟨e | ⟨⟩, session⟩
  · simp [hi]
  · cases hb : s.bindings[key]? <;> simp [hi, hb]

/-- **A key made of the adapter's own identity is accepted**, whatever the callback. -/
theorem installHook_identity {S : ExecutingSession σ} {s : DolphinRuntimeAdapter σ φ}
    (hS : S.AcceptsOwn (S.getExecutionIdentity s.session)) (A : Allocator φ)
    {address : GuestAddress} (hkey : HookKey.isValid ⟨s.identity S, address⟩ = true)
    (hook : NativeHook φ) :
    (s.installHook S.toRuntimeSession A {} ⟨s.identity S, address⟩ hook).answer = .ok () :=
  (installHook_ok_iff ..).2 ((hS.install_iff ..).2 ⟨hkey, identityToDolphin_identity S s⟩)

/-- A callback that is installed at an own key is bound by both. -/
theorem Matched.install (h : Matched S b) (hS : S.AcceptsOwn identity)
    (hV : ∀ address i, (V.invalidateInstruction address i).1 = .ok ()) (A : Allocator φ)
    {key : Hooks.HookKey} (hkey : key.isValid = true ∧ identityToDolphin key.identity = identity)
    (callback : φ) :
    SameAnswer (stepBoth V S A (.install key (some callback)) b).1.1
        (stepBoth V S A (.install key (some callback)) b).1.2 ∧
      Matched S (stepBoth V S A (.install key (some callback)) b).2 := by
  obtain ⟨r, s⟩ := b
  have hok := (installHook_ok_iff S A key (some callback) s).2 ((hS.install_iff ..).2 hkey)
  have hsettled := (h.settled.installHook hS.contract A key (some callback)).2
  rw [hok] at hsettled
  obtain ⟨-, hsettled⟩ := hsettled.resolve_left fun ⟨⟨_, he⟩, _⟩ => nomatch he
  rcases NativeHookRegistry.install_cases V key (some callback) r with
    ⟨e, hbad, hi⟩ | ⟨e, i, -, -, hi, -⟩ | ⟨callback', i, -, hcallback, -, hi⟩
  · rcases hbad with hbad | hbad
    · exact absurd (hbad.symm.trans hkey.1) Bool.false_ne_true
    · cases hbad
  · have := hV key.address r.invalidator
    rw [hi] at this
    cases this
  · obtain rfl := Option.some.inj hcallback
    have hheld : held (NativeHookRegistry.mk i (r.hooks.insert key (some callback))) =
        Function.update (held r) key (some (some callback)) :=
      getElem?_insert_eq_update ..
    simp only [stepBoth, HookOperation.toRegistry, HookOperation.toAdapter,
      NativeHookRegistry.step, DolphinRuntimeAdapter.step, hi, hok]
    refine ⟨⟨fun _ => rfl, fun _ => rfl⟩, ?_, ?_⟩
    · rwa [hheld]
    · intro key'
      rw [hheld, Function.update_apply]
      split_ifs
      · simp
      · exact h.callbacks key'

/-- What is removed at an own key is bound by neither. -/
theorem Matched.remove (h : Matched S b) (hS : S.AcceptsOwn identity)
    (hV : ∀ address i, (V.invalidateInstruction address i).1 = .ok ()) (A : Allocator φ)
    {key : Hooks.HookKey} (hkey : key.isValid = true) :
    SameAnswer (stepBoth V S A (.remove key) b).1.1 (stepBoth V S A (.remove key) b).1.2 ∧
      Matched S (stepBoth V S A (.remove key) b).2 := by
  obtain ⟨r, s⟩ := b
  obtain ⟨-, hanswer, hsettled⟩ := h.settled.removeHook hS.contract key
  rcases NativeHookRegistry.remove_cases V key r with ⟨e, hbad, hr⟩ | ⟨-, hfree, hr⟩ |
    ⟨e, i, -, -, hi, -⟩ | ⟨i, -, hbound, -, hr⟩
  · exact absurd (hbad.symm.trans hkey) Bool.false_ne_true
  · -- nothing is bound, and nothing changes
    have hsame : Function.update (held r) key none = held r :=
      Function.update_eq_self_iff.2 (show held r key = none from hfree).symm
    simp only [stepBoth, HookOperation.toRegistry, HookOperation.toAdapter,
      NativeHookRegistry.step, DolphinRuntimeAdapter.step, hr]
    refine ⟨?_, ?_, h.callbacks⟩
    · rw [SameAnswer, hanswer, show held r key = none from hfree]
      rfl
    · rwa [hsame] at hsettled
  · have := hV key.address r.invalidator
    rw [hi] at this
    cases this
  · have hheld : held (NativeHookRegistry.mk i (r.hooks.erase key)) =
        Function.update (held r) key none :=
      getElem?_erase_eq_update ..
    simp only [stepBoth, HookOperation.toRegistry, HookOperation.toAdapter,
      NativeHookRegistry.step, DolphinRuntimeAdapter.step, hr]
    refine ⟨?_, ?_, ?_⟩
    · have hsome : (held r key).isSome = true := Option.isSome_iff_ne_none.2 hbound
      rw [SameAnswer, hanswer, hsome]
    · rwa [hheld]
    · intro key'
      rw [hheld, Function.update_apply]
      split_ifs
      · simp
      · exact h.callbacks key'

/-- **The step lemma.**  An operation on an own key, with a callback where it
installs one, is answered alike and keeps the two matched. -/
theorem Matched.step (h : Matched S b) (hS : S.AcceptsOwn identity)
    (hV : ∀ address i, (V.invalidateInstruction address i).1 = .ok ()) (A : Allocator φ)
    {operation : HookOperation φ} (hkey : operation.key.isValid = true ∧
      identityToDolphin operation.key.identity = identity)
    (hnonempty : operation.installsEmpty = false) :
    SameAnswer (stepBoth V S A operation b).1.1 (stepBoth V S A operation b).1.2 ∧
      Matched S (stepBoth V S A operation b).2 := by
  cases operation with
  | install key hook =>
    cases hook with
    | none => cases hnonempty
    | some callback => exact h.install hS hV A hkey callback
  | remove key => exact h.remove hS hV A hkey.1

/-- **The run lemma.**  While no empty callback is installed, every answer agrees
and the two stay matched. -/
theorem Matched.run (h : Matched S b) (hS : S.AcceptsOwn identity)
    (hV : ∀ address i, (V.invalidateInstruction address i).1 = .ok ()) (A : Allocator φ)
    {operations : List (HookOperation φ)}
    (hkeys : ∀ operation ∈ operations, operation.key.isValid = true ∧
      identityToDolphin operation.key.identity = identity)
    (hnonempty : ∀ operation ∈ operations, operation.installsEmpty = false) :
    (∀ e ∈ (runAll (stepBoth V S A) operations b).1, SameAnswer e.1 e.2) ∧
      Matched S (runAll (stepBoth V S A) operations b).2 := by
  induction operations generalizing b with
  | nil => exact ⟨fun _ he => absurd he List.not_mem_nil, h⟩
  | cons operation operations ih =>
    rw [List.forall_mem_cons] at hkeys hnonempty
    obtain ⟨hanswer, hstep⟩ := h.step hS hV A hkeys.1 hnonempty.1
    obtain ⟨hanswers, hrun⟩ := ih hstep hkeys.2 hnonempty.2
    refine ⟨?_, hrun⟩
    rw [runAll_cons, List.forall_mem_cons]
    exact ⟨hanswer, hanswers⟩

/-- The two start out matched. -/
theorem Matched.start (hS : S.Contract) (A : Allocator φ) {session : σ}
    (hempty : ∀ key, S.hookTable session key = none) (i : ι) :
    Matched S (⟨.new i, .new session⟩ : Both ι σ φ) := by
  have hheld : held (NativeHookRegistry.new i : NativeHookRegistry ι φ) = fun _ => none := by
    funext key
    simp [held, NativeHookRegistry.new]
  constructor
  · rw [hheld]
    exact (settled_runCalls hS A [] hempty).2
  · simp [hheld]

/-- An empty callback at an own key is refused by the registry and accepted by
the adapter. -/
theorem not_sameAnswer_of_installsEmpty (hS : S.AcceptsOwn identity) (A : Allocator φ)
    {operation : HookOperation φ} (hkey : operation.key.isValid = true ∧
      identityToDolphin operation.key.identity = identity)
    (hempty : operation.installsEmpty = true) (b : Both ι σ φ) :
    ¬SameAnswer (stepBoth V S A operation b).1.1 (stepBoth V S A operation b).1.2 := by
  match operation with
  | .install key none =>
    have hok := (installHook_ok_iff S A key none b.adapter).2 ((hS.install_iff ..).2 hkey)
    intro hsame
    have hregistry : (b.registry.install V key none).1 = .ok () := hsame.2 hok
    have hvalid : key.isValid = true := hkey.1
    simp [NativeHookRegistry.install, hvalid] at hregistry

/-- **The two policies agree** over a history of installs and removes at valid
keys of the session's identity exactly if it installs no empty callback. -/
theorem installation_parity_iff (hS : S.AcceptsOwn identity)
    (hV : ∀ address i, (V.invalidateInstruction address i).1 = .ok ()) (A : Allocator φ) (i : ι)
    {session : σ} (hempty : ∀ key, S.hookTable session key = none)
    {operations : List (HookOperation φ)}
    (hkeys : ∀ operation ∈ operations, operation.key.isValid = true ∧
      identityToDolphin operation.key.identity = identity) :
    Parity V S A operations i session ↔
      ∀ operation ∈ operations, operation.installsEmpty = false := by
  constructor
  · rintro ⟨hanswers, -⟩ operation hmem
    rw [Bool.eq_false_iff]
    intro hbad
    obtain ⟨before, after, rfl⟩ := List.append_of_mem hmem
    have hevent : (stepBoth V S A operation (runBoth V S A before i session).2).1 ∈
        (runBoth V S A (before ++ operation :: after) i session).1 := by
      rw [runBoth, runAll_append, runAll_cons]
      exact List.mem_append_right _ (List.mem_cons_self ..)
    exact not_sameAnswer_of_installsEmpty hS A (hkeys _ hmem) hbad _ (hanswers _ hevent)
  · intro hnonempty
    have hstart := Matched.start hS.contract A hempty i
    constructor
    · exact (hstart.run hS hV A hkeys hnonempty).1
    · rintro before after rfl
      refine (hstart.run hS hV A (fun o ho => ?_) fun o ho => ?_).2.agree
      · exact hkeys o (List.mem_append_left _ ho)
      · exact hnonempty o (List.mem_append_left _ ho)

end

/-- An invalidator that never throws. -/
def quietInvalidator : CodeInvalidator Unit where
  invalidateInstruction _ _ := (.ok (), ())

/-- A session that keeps its table as a function and accepts the valid keys of
one identity. -/
def ownSession (identity : Hooks.ExecutionIdentity) :
    RuntimeSession (PowerPC.HookKey → Option NativeHookBinding) :=
  { tableSession (identityToDolphin identity) with
    installNativeHook := fun key entry table =>
      if (Hooks.HookKey.mk identity key.address).isValid then
        (tableSession (identityToDolphin identity)).installNativeHook key entry table
      else (.error (.external "hook key is invalid"), table) }

/-- A session that accepts the valid keys of one identity. -/
theorem ownSession_acceptsOwn (identity : Hooks.ExecutionIdentity) :
    (ownSession identity).AcceptsOwn (identityToDolphin identity) := by
  have htable := tableSession_contract (identityToDolphin identity)
  constructor
  · refine ⟨?_, ?_, htable.remove_table, htable.remove_answer, htable.execute_table⟩
    · intro key entry s e s' h
      simp only [ownSession] at h
      split_ifs at h
      · exact htable.install_threw _ _ _ _ _ h
      · rw [← (Prod.mk.inj h).2]
    · intro key entry s s' h
      simp only [ownSession] at h
      split_ifs at h
      · exact htable.install_set _ _ _ _ h
      · cases (Prod.mk.inj h).1
  · intro key entry s
    have hinj : identityToDolphin key.identity = identityToDolphin identity ↔
        key.identity = identity := by
      obtain ⟨⟨⟨digest⟩, generation⟩, address⟩ := key
      obtain ⟨⟨digest'⟩, generation'⟩ := identity
      simp [identityToDolphin]
    simp only [ownSession, tableSession, toDolphin]
    by_cases hown : key.identity = identity
    · subst hown
      cases key.isValid <;> simp
    · have hother : identityToDolphin key.identity ≠ identityToDolphin identity := mt hinj.1 hown
      simp only [hother, if_false, and_false, iff_false]
      split_ifs <;> simp

/-- The sample key is one that hooks can be bound to. -/
theorem ownKey_isValid : ownKey.isValid = true := by decide +kernel

/-- A hook that is installed, removed and installed again: the two agree. -/
theorem installation_parity_reinstalled :
    Parity quietInvalidator (ownSession ownKey.identity) (bumpAllocator ℕ)
      [.install ownKey (some 0), .remove ownKey, .install ownKey (some 1)] () fun _ => none := by
  refine (installation_parity_iff (ownSession_acceptsOwn _) (fun _ _ => rfl) _ () (fun _ => rfl)
    fun operation hmem => ?_).2 (by decide)
  have hkey : operation.key = ownKey := by
    simp only [List.mem_cons, List.not_mem_nil, or_false] at hmem
    rcases hmem with rfl | rfl | rfl <;> rfl
  rw [hkey]
  exact ⟨ownKey_isValid, rfl⟩

/-- **One empty callback** is refused by the registry and accepted by the
adapter. -/
theorem installation_not_parity_empty :
    ¬Parity quietInvalidator (ownSession ownKey.identity) (bumpAllocator ℕ)
      [.install ownKey none] () fun _ => none := by
  intro h
  have hkey : (HookOperation.install ownKey (none : NativeHook ℕ)).key.isValid = true ∧
      identityToDolphin ownKey.identity = identityToDolphin ownKey.identity :=
    ⟨ownKey_isValid, rfl⟩
  refine not_sameAnswer_of_installsEmpty (V := quietInvalidator) (ownSession_acceptsOwn _)
    (bumpAllocator ℕ) hkey rfl ⟨.new (), .new fun _ => none⟩ (h.answers _ ?_)
  rw [runBoth, runAll_cons]
  exact List.mem_cons_self ..

end Adapter
end GcnPort
