/-
# Partial maps and the changes made to them

A partial map gives a value to some of its keys.  A `Change` gives one key a
new value or takes its value away, and `applyAll` makes changes one after
another.  What a map holds at a key is then what the last change of that key
left there (`applyAll_eq_some_iff`); changes of other keys do not matter
(`applyAll_of_forall_ne`).  An ordered map is a partial map with finitely many
keys, and its size is their number (`size_eq_ncard`).
-/

import Mathlib

namespace Foundation

variable {κ : Type*} {α : Type*}

/-- A change of a partial map at one key: its new value, or none. -/
structure Change (κ : Type*) (α : Type*) where
  key : κ
  value : Option α

/-- The keys a partial map gives a value. -/
def boundKeys (m : κ → Option α) : Set κ := {k | m k ≠ none}

section

variable [DecidableEq κ] {m : κ → Option α} {c : Change κ α} {cs : List (Change κ α)} {k : κ}

/-- The map after one change. -/
def Change.apply (m : κ → Option α) (c : Change κ α) : κ → Option α :=
  Function.update m c.key c.value

/-- The map after changes made in order. -/
def applyAll (m : κ → Option α) (cs : List (Change κ α)) : κ → Option α :=
  cs.foldl Change.apply m

/-- No change. -/
@[simp] theorem applyAll_nil : applyAll m [] = m := rfl

/-- The first change, and then the others. -/
@[simp] theorem applyAll_cons : applyAll m (c :: cs) = applyAll (c.apply m) cs := rfl

/-- One list of changes after the other. -/
theorem applyAll_append (cs cs' : List (Change κ α)) :
    applyAll m (cs ++ cs') = applyAll (applyAll m cs) cs' :=
  List.foldl_append

/-- Changes of other keys leave a key alone. -/
theorem applyAll_of_forall_ne (h : ∀ c ∈ cs, c.key ≠ k) : applyAll m cs k = m k := by
  induction cs generalizing m with
  | nil => rfl
  | cons c cs ih =>
    rw [applyAll_cons, ih fun c hc => h c (List.mem_cons_of_mem _ hc)]
    exact Function.update_of_ne (h c (List.mem_cons_self ..)).symm _ _

/-- The last change of a key decides what it holds. -/
theorem applyAll_of_last {before after : List (Change κ α)}
    (h : ∀ c' ∈ after, c'.key ≠ c.key) :
    applyAll m (before ++ c :: after) c.key = c.value := by
  rw [applyAll_append, applyAll_cons, applyAll_of_forall_ne h]
  exact Function.update_self _ _ _

/-- **What a key holds** after changes of an empty map: the value of the last
change of that key, if there is one. -/
theorem applyAll_eq_some_iff {a : α} : applyAll (fun _ => none) cs k = some a ↔
    ∃ before after, cs = before ++ ⟨k, some a⟩ :: after ∧ ∀ c ∈ after, c.key ≠ k := by
  constructor
  · intro h
    induction cs using List.reverseRecOn with
    | nil => cases h
    | append_singleton cs c ih =>
      rw [applyAll_append, applyAll_cons, applyAll_nil, Change.apply] at h
      by_cases hk : c.key = k
      · subst hk
        rw [Function.update_self] at h
        obtain ⟨key, value⟩ := c
        obtain rfl : value = some a := h
        exact ⟨cs, [], rfl, fun _ hc => absurd hc List.not_mem_nil⟩
      · rw [Function.update_of_ne (Ne.symm hk)] at h
        obtain ⟨before, after, rfl, hafter⟩ := ih h
        refine ⟨before, after ++ [c], by rw [List.append_assoc]; rfl, fun c' hc' => ?_⟩
        rcases List.mem_append.1 hc' with hc' | hc'
        · exact hafter c' hc'
        · exact List.mem_singleton.1 hc' ▸ hk
  · rintro ⟨before, after, rfl, hafter⟩
    exact applyAll_of_last (c := ⟨k, some a⟩) hafter

/-- **What a key holds** after a log of events some of which are changes: the
value of the last event that changed that key, if there is one. -/
theorem applyAll_filterMap_eq_some_iff {ω : Type*} {change : ω → Option (Change κ α)}
    {log : List ω} {a : α} : applyAll (fun _ => none) (log.filterMap change) k = some a ↔
      ∃ before e after, log = before ++ e :: after ∧ change e = some ⟨k, some a⟩ ∧
        ∀ e' ∈ after, ∀ c ∈ change e', c.key ≠ k := by
  rw [applyAll_eq_some_iff]
  constructor
  · rintro ⟨before, after, hlog, hafter⟩
    obtain ⟨log₁, log₂, rfl, rfl, h₂⟩ := List.filterMap_eq_append_iff.1 hlog
    obtain ⟨log₃, e, log₄, rfl, -, he, rfl⟩ := List.filterMap_eq_cons_iff.1 h₂
    refine ⟨log₁ ++ log₃, e, log₄, by rw [List.append_assoc], he, fun e' he' c hc => ?_⟩
    exact hafter c (List.mem_filterMap.2 ⟨e', he', hc⟩)
  · rintro ⟨before, e, after, rfl, he, hafter⟩
    refine ⟨before.filterMap change, after.filterMap change, ?_, fun c hc => ?_⟩
    · rw [List.filterMap_append, List.filterMap_cons, he]
    · obtain ⟨e', he', hc⟩ := List.mem_filterMap.1 hc
      exact hafter e' he' c hc

/-- One more event makes the change it is, if any. -/
theorem applyAll_filterMap_concat {ω : Type*} (change : ω → Option (Change κ α)) (log : List ω)
    (e : ω) : applyAll m ((log ++ [e]).filterMap change) =
      applyAll (applyAll m (log.filterMap change)) (change e).toList := by
  rw [List.filterMap_append, applyAll_append]
  cases h : change e <;> simp [h]

end

section

variable {cmp : κ → κ → Ordering} [Std.TransCmp cmp] [Std.LawfulEqCmp cmp] [DecidableEq κ]

/-- Storing a value in an ordered map. -/
theorem getElem?_insert_eq_update (t : Std.ExtTreeMap κ α cmp) (k : κ) (a : α) :
    (fun k' : κ => (t.insert k a)[k']?) = Function.update (fun k' : κ => t[k']?) k (some a) := by
  funext k'
  rw [Std.ExtTreeMap.getElem?_insert, Function.update_apply]
  by_cases h : k' = k
  · rw [if_pos (Std.LawfulEqCmp.compare_eq_iff_eq.2 h.symm), if_pos h]
  · rw [if_neg fun hc => h (Std.LawfulEqCmp.compare_eq_iff_eq.1 hc).symm, if_neg h]

/-- Erasing a key of an ordered map. -/
theorem getElem?_erase_eq_update (t : Std.ExtTreeMap κ α cmp) (k : κ) :
    (fun k' : κ => (t.erase k)[k']?) = Function.update (fun k' : κ => t[k']?) k none := by
  funext k'
  rw [Std.ExtTreeMap.getElem?_erase, Function.update_apply]
  by_cases h : k' = k
  · rw [if_pos (Std.LawfulEqCmp.compare_eq_iff_eq.2 h.symm), if_pos h]
  · rw [if_neg fun hc => h (Std.LawfulEqCmp.compare_eq_iff_eq.1 hc).symm, if_neg h]

end

/-- **An ordered map counts its keys.** -/
theorem size_eq_ncard {cmp : κ → κ → Ordering} [Std.TransCmp cmp] [Std.LawfulEqCmp cmp]
    (t : Std.ExtTreeMap κ α cmp) : t.size = (boundKeys fun k : κ => t[k]?).ncard := by
  classical
  have hkeys : (boundKeys fun k : κ => t[k]?) = (t.keys.toFinset : Set κ) := by
    ext k
    rw [Finset.mem_coe, List.mem_toFinset, Std.ExtTreeMap.mem_keys,
      Std.ExtTreeMap.mem_iff_isSome_getElem?, Option.isSome_iff_ne_none]
    rfl
  have hnodup : t.keys.Nodup := Std.ExtTreeMap.nodup_keys
  rw [hkeys, Set.ncard_coe_finset, List.toFinset_card_of_nodup hnodup,
    Std.ExtTreeMap.length_keys]

end Foundation
