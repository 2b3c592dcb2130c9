/-
# The destruction of an adapter

`~DolphinRuntimeAdapter` takes every pointer back from the session before the
destruction of `bindings_` frees the first `Binding`.  So the session's table
dangles at no point of the loop (`forEach_uninstall`), and from its end on the
table is empty, whatever is freed (`forEach_dropNode`).
-/

import GcnPort.Adapter.Ownership

namespace GcnPort
namespace Adapter

open Execution Foundation Hooks PowerPC

variable {σ : Type*} {φ : Type*} {S : RuntimeSession σ} {s : DolphinRuntimeAdapter σ φ}
  {m : Hooks.HookKey → Option (NativeHook φ)}

/-- Clearing the first of some keys leaves the others to clear. -/
theorem mem_or_update_eq_none {α : Type*} {table : Hooks.HookKey → Option α}
    {key key' : Hooks.HookKey} {keys : List Hooks.HookKey}
    (h : key' ∈ key :: keys ∨ table key' = none) :
    key' ∈ keys ∨ Function.update table key none key' = none := by
  rw [Function.update_apply]
  by_cases hk : key' = key
  · exact .inr (if_pos hk)
  · rw [if_neg hk]
    exact h.imp_left fun hmem => (List.mem_cons.1 hmem).resolve_left hk

/-- The loop of the destructor takes back a pointer at a time and frees nothing. -/
theorem forEach_uninstall (hS : S.Contract) (keys : List Hooks.HookKey) (h : SessionSafe S s) :
    (∀ t ∈ (DolphinRuntimeAdapter.forEach (.uninstall S) keys s).1, SessionSafe S t) ∧
      (DolphinRuntimeAdapter.forEach (.uninstall S) keys s).2.bindings = s.bindings ∧
      (DolphinRuntimeAdapter.forEach (.uninstall S) keys s).2.heap = s.heap ∧
      ∀ key, key ∈ keys ∨ lent S s.session key = none →
        lent S (DolphinRuntimeAdapter.forEach (.uninstall S) keys s).2.session key = none := by
  induction keys generalizing s with
  | nil =>
    exact ⟨fun _ ht => absurd ht List.not_mem_nil, rfl, rfl,
      fun _ hkey => hkey.resolve_left List.not_mem_nil⟩
  | cons key keys ih =>
    have hlent : lent S (s.uninstall S key).session =
        Function.update (lent S s.session) key none :=
      lent_eq_update (hS.remove_table (toDolphin key) s.session)
    have hsafe : SessionSafe S (s.uninstall S key) := by
      rw [sessionSafe_iff, hlent]
      exact (sessionSafe_iff.1 h).takeBack key
    obtain ⟨hpoints, hbindings, hheap, hrest⟩ := ih hsafe
    refine ⟨List.forall_mem_cons.2 ⟨hsafe, hpoints⟩, hbindings, hheap,
      fun key' hkey' => hrest key' ?_⟩
    rw [hlent]
    exact mem_or_update_eq_none hkey'

/-- The destruction of `bindings_` frees the `Binding`s of its keys, and leaves
the session alone. -/
theorem forEach_dropNode (keys : List Hooks.HookKey)
    {objects : Hooks.HookKey → Option (Binding φ)}
    (h : Owns (stored s.bindings) (stored s.bindings) (living s.heap) objects) :
    (∀ t ∈ (DolphinRuntimeAdapter.forEach .dropNode keys s).1, t.session = s.session) ∧
      (DolphinRuntimeAdapter.forEach .dropNode keys s).2.session = s.session ∧
      ∃ objects', Owns (stored (DolphinRuntimeAdapter.forEach .dropNode keys s).2.bindings)
          (stored (DolphinRuntimeAdapter.forEach .dropNode keys s).2.bindings)
          (living (DolphinRuntimeAdapter.forEach .dropNode keys s).2.heap) objects' ∧
        ∀ key, key ∈ keys ∨ stored s.bindings key = none →
          stored (DolphinRuntimeAdapter.forEach .dropNode keys s).2.bindings key = none := by
  induction keys generalizing s objects with
  | nil =>
    exact ⟨fun _ ht => absurd ht List.not_mem_nil, rfl, objects, h,
      fun _ hkey => hkey.resolve_left List.not_mem_nil⟩
  | cons key keys ih =>
    have hdrop : (s.dropNode key).session = s.session ∧
        stored (s.dropNode key).bindings = Function.update (stored s.bindings) key none ∧
        ∃ objects', Owns (stored (s.dropNode key).bindings) (stored (s.dropNode key).bindings)
          (living (s.dropNode key).heap) objects' := by
      cases hb : s.bindings[key]? with
      | some binding =>
        simp only [DolphinRuntimeAdapter.dropNode, hb, DolphinRuntimeAdapter.free,
          DolphinRuntimeAdapter.unbind, stored_erase, living_erase]
        exact ⟨trivial, trivial, _, h.remove hb⟩
      | none =>
        simp only [DolphinRuntimeAdapter.dropNode, hb]
        exact ⟨trivial, (Function.update_eq_self_iff.2 hb.symm).symm, objects, h⟩
    obtain ⟨hsession, hstored, objects', howns⟩ := hdrop
    obtain ⟨hpoints, hlast, objects'', hfinal, hrest⟩ := ih howns
    refine ⟨List.forall_mem_cons.2 ⟨hsession, fun t ht => (hpoints t ht).trans hsession⟩,
      hlast.trans hsession, objects'', hfinal, fun key' hkey' => hrest key' ?_⟩
    rw [hstored]
    exact mem_or_update_eq_none hkey'

/-- **The destructor never dangles**, and leaves nothing behind. -/
theorem Settled.destroy (h : Settled S m s) (hS : S.Contract) :
    (∀ t ∈ (s.destroy S).points, SessionSafe S t) ∧
      (∀ key, S.hookTable (s.destroy S).state.session key = none) ∧
      ∀ p : Pointer, (s.destroy S).state.heap[p]? = none := by
  have hkeys (key : Hooks.HookKey) : key ∈ s.bindings.keys ∨ stored s.bindings key = none := by
    cases hb : s.bindings[key]? with
    | none => exact .inr hb
    | some p => exact .inl (by rw [Std.ExtTreeMap.mem_keys,
        Std.ExtTreeMap.mem_iff_isSome_getElem?, hb]; rfl)
  obtain ⟨hpoints, hbindings, hheap, hlent⟩ :=
    forEach_uninstall hS s.bindings.keys h.sessionSafe
  have howns := h.owns.self
  rw [← hbindings, ← hheap] at howns
  obtain ⟨hsame, hsession, objects', hfinal, hstored⟩ := forEach_dropNode s.bindings.keys howns
  have hnone := fun key => hlent key ((hkeys key).imp_right fun hk => by rwa [h.owns.borrowed_eq])
  refine ⟨fun t ht => ?_, fun key => ?_, fun p => ?_⟩
  · rcases List.mem_append.1 ht with ht | ht
    · exact hpoints t ht
    · rw [sessionSafe_iff, hsame t ht]
      exact .of_forall_none hnone
  · obtain ⟨key, rfl⟩ := toDolphin_bijective.surjective key
    have := hnone key
    rw [← hsession] at this
    exact Option.map_eq_none_iff.1 this
  · by_contra hp
    obtain ⟨key, hkey⟩ := hfinal.owned p hp
    rw [hstored key ((hkeys key).imp_right fun hk => by rwa [hbindings])] at hkey
    cases hkey

end Adapter
end GcnPort
