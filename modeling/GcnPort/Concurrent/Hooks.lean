/-
# Hooks that threads share

What `find` gives a thread while others install and remove hooks (`SafeHooks`): a
hook that was installed under that very key, the one that was installed last where
nothing else is called for the key, and never one that had been replaced or removed
before `find` was called.
-/

import GcnPort.Concurrent.Tickets
import GcnPort.Hooks.Refinement

namespace GcnPort
namespace Concurrent

open Execution Foundation Hooks Calls

variable {ι : Type*} {φ T : Type}

/-- The event of the registry. -/
def Event.hookEvent : Event φ → Option (HookEvent φ)
  | .hook e => some e
  | .ticket _ => none

/-- A call that could change what the key is bound to. -/
def Call.changes (key : HookKey) : Call φ → Bool
  | .hook (.install key' _) | .hook (.remove key') => key' = key
  | _ => false

/-- What the registry answered. -/
def hookLog (l : List (Call φ × Event φ)) : List (HookEvent φ) :=
  l.filterMap fun p => p.2.hookEvent

/-- What the threads may rely on. -/
structure SafeHooks [DecidableEq T] [DecidableEq φ]
    (history : List (T × Mark (Call φ) (Event φ))) : Prop where
  /-- What `find` returns was installed under its key, by a call made before `find`
  returned that has not thrown and does not throw later. -/
  installed : ∀ key hook t k before after,
    history = before ++ (t, .ret k (.hook (.find key (.ok (some hook))))) :: after →
    ∃ t' l m, before = l ++ (t', .call (.hook (.install key hook))) :: m ∧
      ReturnsWith t' (.hook (.install key hook), .hook (.install key hook (.ok ())))
        (m ++ (t, .ret k (.hook (.find key (.ok (some hook))))) :: after)
  /-- A hook that was installed is found, if nothing else is called for its key. -/
  found : ∀ key hook k₁ k₂ answer, Succession history
      [(k₁, .hook (.install key hook (.ok ()))), (k₂, .hook (.find key answer))] →
    (called history).countP (Call.changes key) = 1 → answer = .ok (some hook)
  /-- A hook that was replaced or removed is not found, unless it is installed again. -/
  replaced : ∀ key hook hook' e k₁ k₂ k₃ answer, Succession history
      [(k₁, .hook (.install key hook (.ok ()))), (k₂, .hook e), (k₃, .hook (.find key answer))] →
    e = .install key hook' (.ok ()) ∨ e = .remove key (.ok true) →
    (called history).count (.hook (.install key hook)) = 1 → answer ≠ .ok (some hook)

/-- The answer is the one the map before it calls for. -/
def Answers (before : List (HookEvent φ)) : HookEvent φ → Prop
  | .install key hook (.ok ()) => key.isValid = true ∧ hook ≠ none
  | .remove key (.ok true) => key.isValid = true
  | .find key answer => answer =
    if hk : key.isValid = true then .ok ((boundBy before ⟨key, hk⟩).map some)
    else .error invalidKey
  | _ => True

/-- Every answer in the log is the one the log before it calls for. -/
abbrev Answered (log : List (HookEvent φ)) : Prop := EveryPrefix Answers log

/-- A call of the registry answers as its map calls for. -/
theorem answers_step (V : CodeInvalidator ι) (call : HookCall φ) {r : NativeHookRegistry ι φ}
    {log : List (HookEvent φ)} (h : Refines r (boundBy log)) : Answers log (r.step V call).1 := by
  cases call with
  | install key hook =>
    rcases NativeHookRegistry.install_cases V key hook r with ⟨e, -, hi⟩ | ⟨e, i, -, -, -, hi⟩ |
      ⟨callback, i, hk, rfl, -, hi⟩ <;> simp only [NativeHookRegistry.step, hi]
    · trivial
    · trivial
    · exact ⟨hk, Option.some_ne_none _⟩
  | remove key =>
    rcases NativeHookRegistry.remove_cases V key r with ⟨e, -, hr⟩ | ⟨-, -, hr⟩ |
      ⟨e, i, -, -, -, hr⟩ | ⟨i, hk, -, -, hr⟩ <;> simp only [NativeHookRegistry.step, hr]
    · trivial
    · trivial
    · trivial
    · exact hk
  | find key =>
    by_cases hk : key.isValid = true
    · simp only [NativeHookRegistry.step, Answers, dif_pos hk]
      rw [NativeHookRegistry.find_of_isValid hk, ← h.bound ⟨key, hk⟩]
    · simp [NativeHookRegistry.step, Answers, NativeHookRegistry.find, hk]
  | size => trivial

/-- **The registry answers as its map does**, whatever is called besides. -/
theorem answered_run (V : CodeInvalidator ι) (calls : List (Call φ)) (i : ι) :
    Answered ((runAll (Shared.step V) calls { invalidator := i }).1.filterMap Event.hookEvent) := by
  refine (runAll_preserves_log (I := fun log s =>
    Refines (Shared.registry s) (boundBy (log.filterMap Event.hookEvent)) ∧
      Answered (log.filterMap Event.hookEvent)) (fun call log s h => ?_) calls
    (s := ({ invalidator := i } : Shared ι φ))
    ⟨⟨fun k => ?_, fun key hkey => ?_⟩, everyPrefix_nil⟩).2
  · obtain ⟨hr, ha⟩ := h
    rw [List.filterMap_append]
    cases call with
    | hook call =>
      refine ⟨?_, ha.concat (answers_step V call hr)⟩
      rw [show [((s.step V (.hook call)).1)].filterMap Event.hookEvent =
        [(s.registry.step V call).1] from rfl, boundBy_concat]
      exact hr.step V call
    | ticket call =>
      rw [show [((s.step V (.ticket call)).1)].filterMap Event.hookEvent = [] from rfl,
        List.append_nil]
      exact ⟨⟨hr.bound, hr.valid⟩, ha⟩
  · simp [Shared.registry, boundBy]
  · simp [Shared.registry] at hkey

/-- A part of a log has a part of its hook events. -/
theorem hookLog_sublist {l l' : List (Call φ × Event φ)} (h : l.Sublist l') :
    (hookLog l).Sublist (hookLog l') := h.filterMap _

section

variable {V : CodeInvalidator ι} {s s' : Shared ι φ}
  {history marks : List (T × Mark (Call φ) (Event φ))} {log : List (HookEvent φ)}
  {key : HookKey} {hook : NativeHook φ} {callback : φ}

/-- What a valid key was found to be bound to. -/
theorem find_of_answered {before after : List (HookEvent φ)}
    {answer : Except Exception (Option (NativeHook φ))}
    (h : Answered (before ++ .find key answer :: after)) (hk : key.isValid = true) :
    answer = .ok ((boundBy before ⟨key, hk⟩).map some) := by
  have := h before _ after rfl
  rwa [Answers, dif_pos hk] at this

/-- What was found is what the last `install` bound the key to. -/
theorem install_of_find {before after : List (HookEvent φ)}
    (h : Answered (before ++ .find key (.ok (some hook)) :: after)) :
    ∃ (hk : key.isValid = true) (b m : List (HookEvent φ)),
      before = b ++ .install key hook (.ok ()) :: m ∧
        ∀ e ∈ m, ∀ c ∈ e.change, c.key ≠ ⟨key, hk⟩ := by
  have hfind := h before _ after rfl
  by_cases hk : key.isValid = true
  · rw [Answers, dif_pos hk] at hfind
    obtain ⟨callback, hbound, rfl⟩ := Option.map_eq_some_iff.1 (Except.ok.inj hfind).symm
    obtain ⟨b, m, rfl, hm⟩ := boundBy_eq_some_iff.1 hbound
    exact ⟨hk, b, m, rfl, hm⟩
  · rw [Answers, dif_neg hk] at hfind
    cases hfind

/-- An `install` that returned had a valid key and a callback. -/
theorem install_of_answered (h : Answered log) (hmem : .install key hook (.ok ()) ∈ log) :
    key.isValid = true ∧ ∃ callback, hook = some callback := by
  obtain ⟨before, after, rfl⟩ := List.append_of_mem hmem
  obtain ⟨hk, hhook⟩ := h before _ after rfl
  exact ⟨hk, Option.ne_none_iff_exists'.1 hhook⟩

/-- An event of a call that could change what the key is bound to. -/
def changes (key : HookKey) : HookEvent φ → Bool
  | .install key' _ _ | .remove key' _ => key' = key
  | .find _ _ | .size _ => false

/-- A change of a key comes of a call that could change it. -/
theorem changes_of_change {e : HookEvent φ} {k : ValidKey} {c : Change ValidKey φ}
    (hc : c ∈ e.change) (hk : c.key = k) : changes k.val e = true := by
  unfold HookEvent.change at hc
  split at hc
  · split_ifs at hc with h
    · obtain rfl := Option.some.inj hc
      simp [changes, ← hk]
    · cases hc
  · split_ifs at hc with h
    · obtain rfl := Option.some.inj hc
      simp [changes, ← hk]
    · cases hc
  · cases hc

/-- What changes a key leaves nothing of what was bound to it. -/
theorem exists_change {e : HookEvent φ} (h : Answered log) (hmem : e ∈ log)
    (hk : key.isValid = true)
    (he : e = .install key hook (.ok ()) ∨ e = .remove key (.ok true)) :
    ∃ c ∈ e.change, c.key = ⟨key, hk⟩ := by
  rcases he with rfl | rfl
  · obtain ⟨-, callback, rfl⟩ := install_of_answered h hmem
    exact ⟨⟨⟨key, hk⟩, some callback⟩, HookEvent.change_eq_bind_iff.2 rfl, rfl⟩
  · exact ⟨⟨⟨key, hk⟩, none⟩, by simp [HookEvent.change, hk], rfl⟩

/-- An event of a call that installs this hook. -/
def installs [DecidableEq φ] (key : HookKey) (hook : NativeHook φ) : HookEvent φ → Bool
  | .install key' hook' _ => key' = key ∧ hook' = hook
  | .remove _ _ | .find _ _ | .size _ => false

/-- The only change of a key is what is found there. -/
theorem find_of_sole_install {answer : Except Exception (Option (NativeHook φ))}
    (h : Answered log)
    (hsub : [.install key hook (.ok ()), .find key answer].Sublist log)
    (hone : log.countP (changes key) ≤ 1) : answer = .ok (some hook) := by
  obtain ⟨before, after, rfl, hbefore⟩ := split_of_sublist (l := [_]) hsub
  obtain ⟨b, m, rfl⟩ := List.append_of_mem (List.singleton_sublist.1 hbefore)
  obtain ⟨hk, callback, rfl⟩ : key.isValid = true ∧ ∃ callback, hook = some callback :=
    install_of_answered h (by simp)
  have hbound : boundBy (b ++ .install key (some callback) (.ok ()) :: m) ⟨key, hk⟩ =
      some callback := by
    refine boundBy_eq_some_iff.2 ⟨b, m, rfl, fun e he c hc hckey => ?_⟩
    have hpos : 0 < m.countP (changes key) :=
      List.countP_pos_iff.2 ⟨e, he, changes_of_change hc hckey⟩
    rw [List.countP_append, List.countP_append, List.countP_cons, changes,
      if_pos (by simp)] at hone
    omega
  rw [find_of_answered h hk, hbound]
  rfl

/-- What is found although its key has changed was installed again. -/
theorem one_lt_countP_installs [DecidableEq φ] {hook' : NativeHook φ} {e : HookEvent φ}
    (h : Answered log)
    (hsub : [.install key hook (.ok ()), e, .find key (.ok (some hook))].Sublist log)
    (he : e = .install key hook' (.ok ()) ∨ e = .remove key (.ok true)) :
    1 < log.countP (installs key hook) := by
  obtain ⟨before, after, rfl, hbefore⟩ := split_of_sublist (l := [_, _]) hsub
  obtain ⟨begun, ended, rfl, hbegun⟩ := split_of_sublist (l := [_]) hbefore
  obtain ⟨hk, b, m, hb, hm⟩ := install_of_find h
  obtain ⟨c, hc, hckey⟩ := exists_change h (by simp) hk he
  have hpos : 0 < begun.countP (installs key hook) :=
    List.countP_pos_iff.2 ⟨_, List.singleton_sublist.1 hbegun, by simp [installs]⟩
  -- the change is not behind the `install` that was found, so that one is another
  rw [List.countP_append, List.countP_append]
  rcases List.append_eq_append_iff.1 hb with ⟨l, rfl, hl⟩ | ⟨l, rfl, hl⟩
  · have hmem : .install key hook (.ok ()) ∈ e :: ended := by rw [hl]; simp
    have hend : 0 < (e :: ended).countP (installs key hook) :=
      List.countP_pos_iff.2 ⟨_, hmem, by simp [installs]⟩
    omega
  · cases l with
    | nil =>
      have hend : 0 < (e :: ended).countP (installs key hook) :=
        List.countP_pos_iff.2 ⟨e, List.mem_cons_self, by simp [← (List.cons.inj hl).1, installs]⟩
      omega
    | cons e' l =>
      obtain ⟨rfl, rfl⟩ := List.cons.inj hl
      exact absurd hckey (hm e (by simp) c hc)

variable [DecidableEq T]

/-- A key changes no more often than it is called for. -/
theorem countP_changes_le (h : Linearization (Shared.step V) s history marks s')
    (key : HookKey) :
    (hookLog (effects marks)).countP (changes key) ≤
      (called history).countP (Call.changes key) := by
  have hle := h.countP_answers_le (p := fun e => (e.hookEvent.map (changes key)).getD false)
    (q := Call.changes key) fun call s hp => ?_
  · rw [hookLog, List.countP_filterMap]
    rwa [List.countP_map] at hle
  · cases call with
    | hook call => cases call <;> exact hp
    | ticket call => cases hp

/-- Every answer of the registry is the one the answers before it call for. -/
theorem answered_effects {i : ι}
    (h : Linearization (Shared.step V) { invalidator := i } history marks s') :
    Answered (hookLog (effects marks)) := by
  have hanswered := answered_run V ((effects marks).map Prod.fst) i
  rw [h.sequential] at hanswered
  simpa [hookLog, List.filterMap_map] using hanswered

/-- A hook is installed no more often than it is called for. -/
theorem countP_installs_le [DecidableEq φ] (h : Linearization (Shared.step V) s history marks s')
    (key : HookKey) (hook : NativeHook φ) :
    (hookLog (effects marks)).countP (installs key hook) ≤
      (called history).count (.hook (.install key hook)) := by
  have hle := h.countP_answers_le
    (p := fun e => (e.hookEvent.map (installs key hook)).getD false)
    (q := (· == .hook (.install key hook))) fun call s hp => ?_
  · rw [hookLog, List.countP_filterMap]
    rwa [List.countP_map] at hle
  · cases call with
    | hook call =>
      cases call with
      | install key' hook' =>
        obtain ⟨rfl, rfl⟩ : key' = key ∧ hook' = hook := by
          simpa [Shared.step, NativeHookRegistry.step, Event.hookEvent, installs] using hp
        simp
      | remove key' => cases hp
      | find key' => cases hp
      | size => cases hp
    | ticket call => cases hp

/-- Only `install` answers as `install` does. -/
theorem eq_install_of_mem_effects {k : Call φ} {answer : Except Exception Unit}
    (h : Linearization (Shared.step V) s history marks s')
    (hmem : (k, .hook (.install key hook answer)) ∈ effects marks) :
    k = .hook (.install key hook) := by
  obtain ⟨s₀, hs₀⟩ := h.exists_step hmem
  cases k with
  | hook call =>
    cases call with
    | install key' hook' =>
      obtain ⟨rfl, rfl, -⟩ : key' = key ∧ hook' = hook ∧ _ := by
        simpa [Shared.step, NativeHookRegistry.step] using hs₀
      rfl
    | remove key' => cases hs₀
    | find key' => cases hs₀
    | size => cases hs₀
  | ticket call => cases hs₀

/-- What was found had been called for. -/
theorem installed_of_find (h : Linearization (Shared.step V) s history marks s')
    (hlog : Answered (hookLog (effects marks))) {t : T} {k : Call φ}
    {before after : List (T × Mark (Call φ) (Event φ))}
    (hret : history = before ++ (t, .ret k (.hook (.find key (.ok (some hook))))) :: after) :
    ∃ t' l m, before = l ++ (t', .call (.hook (.install key hook))) :: m ∧
      ReturnsWith t' (.hook (.install key hook), .hook (.install key hook (.ok ())))
        (m ++ (t, .ret k (.hook (.find key (.ok (some hook))))) :: after) := by
  obtain ⟨past, rest, heffects, hpast⟩ := h.exists_call_of_ret hret
  have hsplit : hookLog (effects marks) =
      hookLog past ++ .find key (.ok (some hook)) :: hookLog rest := by
    rw [heffects, hookLog, List.filterMap_append]
    rfl
  obtain ⟨-, b, m, hb, -⟩ := install_of_find (hsplit ▸ hlog)
  have hmem : .install key hook (.ok ()) ∈ hookLog past := by simp [hb]
  obtain ⟨⟨k', e⟩, hp, he⟩ := List.mem_filterMap.1 hmem
  obtain rfl : e = .hook (.install key hook (.ok ())) := by
    cases e with
    | hook e => exact congrArg Event.hook (Option.some.inj he)
    | ticket e => cases he
  obtain rfl := eq_install_of_mem_effects h (by rw [heffects]; exact List.mem_append_left _ hp)
  exact hpast _ hp

end

variable [DecidableEq T] [DecidableEq φ]

/-- **Hooks are safe to share.**  Whatever the schedule of whatever threads, whatever is
called of the coordinator, and whichever invalidations throw. -/
theorem native_hooks_safe_to_share (V : CodeInvalidator ι) (i : ι)
    (schedule : List (Act T (Call φ))) : SafeHooks ((start V φ T i).history schedule) := by
  obtain ⟨marks, s, h⟩ := exists_linearization V i schedule
  generalize (start V φ T i).history schedule = history at h ⊢
  have hlog := answered_effects h
  refine ⟨fun key hook t k before after => installed_of_find h hlog,
    fun key hook k₁ k₂ answer hs hone => ?_,
    fun key hook hook' e k₁ k₂ k₃ answer hs he hone hanswer => ?_⟩
  · have hsub := hookLog_sublist (h.sublist_of_succession hs)
    exact find_of_sole_install hlog hsub ((countP_changes_le h key).trans hone.le)
  · subst hanswer
    have hsub := hookLog_sublist (h.sublist_of_succession hs)
    have hagain := one_lt_countP_installs hlog hsub he
    exact absurd hone (hagain.trans_le (countP_installs_le h key hook)).ne'

end Concurrent
end GcnPort
