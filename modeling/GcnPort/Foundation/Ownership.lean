/-
# Borrowed pointers and their owner

Two tables over the same keys: an owner, whose entries are pointers to objects
on a heap, and a table of borrowed pointers that someone else follows.  The
borrowed table dangles if it holds a pointer to an object that is no longer
alive.

`Owns` is the settled state, in which the two tables agree and every object
alive is owned once.  The rules take it from one settled state to another; the
rules of `NoDangling` are about the states in between, where the tables differ.
-/

import Mathlib.Logic.Function.Basic
import Mathlib.Tactic.Common

namespace Foundation

variable {κ : Type*} {π : Type*} {β : Type*}

/-- Every borrowed pointer points to an object that is alive. -/
def NoDangling (borrowed : κ → Option π) (heap : π → Option β) : Prop :=
  ∀ k p, borrowed k = some p → heap p ≠ none

/-- The borrowed table agrees with its owner, whose objects are those of `m`;
they are alive, distinct, and nothing else is. -/
structure Owns (borrowed owner : κ → Option π) (heap : π → Option β) (m : κ → Option β) :
    Prop where
  borrowed_eq : borrowed = owner
  alive : ∀ k, (owner k).map heap = (m k).map some
  distinct : ∀ k k' p, owner k = some p → owner k' = some p → k = k'
  owned : ∀ p, heap p ≠ none → ∃ k, owner k = some p

section

variable {borrowed owner : κ → Option π} {heap : π → Option β} {m : κ → Option β} {k : κ}
  {p q : π} {b : β}

namespace NoDangling

/-- Allocating an object. -/
theorem alloc [DecidableEq π] (h : NoDangling borrowed heap) (p : π) (b : β) :
    NoDangling borrowed (Function.update heap p (some b)) := by
  intro k q hq
  rw [Function.update_apply]
  split_ifs
  · exact Option.some_ne_none b
  · exact h k q hq

/-- Lending a pointer to an object that is alive. -/
theorem lend [DecidableEq κ] (h : NoDangling borrowed heap) (k : κ) (hp : heap p ≠ none) :
    NoDangling (Function.update borrowed k (some p)) heap := by
  intro k' q hq
  rw [Function.update_apply] at hq
  split_ifs at hq
  · exact Option.some.inj hq ▸ hp
  · exact h k' q hq

/-- Taking a pointer back. -/
theorem takeBack [DecidableEq κ] (h : NoDangling borrowed heap) (k : κ) :
    NoDangling (Function.update borrowed k none) heap := by
  intro k' q hq
  rw [Function.update_apply] at hq
  split_ifs at hq
  exact h k' q hq

/-- A table that holds nothing does not dangle. -/
theorem of_forall_none (h : ∀ k, borrowed k = none) : NoDangling borrowed heap := fun k p hp => by
  rw [h k] at hp
  cases hp

end NoDangling

namespace Owns

/-- The object under a key. -/
theorem heap_eq (h : Owns borrowed owner heap m) (hk : owner k = some p) :
    ∃ b, m k = some b ∧ heap p = some b := by
  have := h.alive k
  rw [hk, Option.map_some] at this
  obtain ⟨b, hb, hp⟩ := Option.map_eq_some_iff.1 this.symm
  exact ⟨b, hb, hp.symm⟩

/-- A key owns nothing exactly if the map leaves it out. -/
theorem owner_eq_none_iff (h : Owns borrowed owner heap m) : owner k = none ↔ m k = none := by
  have := congrArg Option.isNone (h.alive k)
  rw [Option.isNone_map, Option.isNone_map] at this
  rw [← Option.isNone_iff_eq_none, this, Option.isNone_iff_eq_none]

/-- A settled table does not dangle. -/
theorem noDangling (h : Owns borrowed owner heap m) : NoDangling borrowed heap := by
  intro k p hp
  rw [h.borrowed_eq] at hp
  obtain ⟨b, -, hb⟩ := h.heap_eq hp
  rw [hb]
  exact Option.some_ne_none b

/-- An owner agrees with itself. -/
theorem self (h : Owns borrowed owner heap m) : Owns owner owner heap m :=
  ⟨rfl, h.alive, h.distinct, h.owned⟩

/-- Nobody owns anything yet. -/
theorem empty : Owns (fun _ : κ => (none : Option π)) (fun _ => none) (fun _ => none)
    (fun _ => (none : Option β)) :=
  ⟨rfl, fun _ => rfl, fun _ _ _ h => (nomatch h), fun _ h => absurd rfl h⟩

/-- Removing a key that has no object changes nothing. -/
theorem removeAbsent [DecidableEq κ] (h : Owns borrowed owner heap m) (hk : owner k = none) :
    Owns (Function.update borrowed k none) owner heap (Function.update m k none) := by
  have hborrowed : borrowed k = none := by rw [h.borrowed_eq, hk]
  have hm : m k = none := h.owner_eq_none_iff.1 hk
  rw [Function.update_eq_self_iff.2 hborrowed.symm, Function.update_eq_self_iff.2 hm.symm]
  exact h

variable [DecidableEq κ] [DecidableEq π]

/-- **Installing** a new object under a new key. -/
theorem install (h : Owns borrowed owner heap m) (hk : owner k = none) (hp : heap p = none) :
    Owns (Function.update borrowed k (some p)) (Function.update owner k (some p))
      (Function.update heap p (some b)) (Function.update m k (some b)) := by
  have hfresh (k' : κ) : owner k' ≠ some p := fun hk' => by
    obtain ⟨b', -, hb'⟩ := h.heap_eq hk'
    rw [hp] at hb'
    cases hb'
  refine ⟨by rw [h.borrowed_eq], fun k' => ?_, fun k₁ k₂ q h₁ h₂ => ?_, fun q hq => ?_⟩
  · by_cases hne : k' = k
    · subst hne
      simp
    · rw [Function.update_of_ne hne, Function.update_of_ne hne, ← h.alive k']
      cases ho : owner k' with
      | none => rfl
      | some q =>
        have hqp : q ≠ p := fun hqp => hfresh k' (hqp ▸ ho)
        rw [Option.map_some, Option.map_some, Function.update_of_ne hqp]
  · rw [Function.update_apply] at h₁ h₂
    split_ifs at h₁ h₂ with hk₁ hk₂ hk₂
    · rw [hk₁, hk₂]
    · exact absurd (h₂.trans h₁.symm) (hfresh k₂)
    · exact absurd (h₁.trans h₂.symm) (hfresh k₁)
    · exact h.distinct k₁ k₂ q h₁ h₂
  · by_cases hqp : q = p
    · exact ⟨k, by rw [Function.update_self, hqp]⟩
    · rw [Function.update_of_ne hqp] at hq
      obtain ⟨k', hk'⟩ := h.owned q hq
      have hne : k' ≠ k := fun hne => by
        rw [hne, hk] at hk'
        cases hk'
      exact ⟨k', by rw [Function.update_of_ne hne, hk']⟩

/-- **Removing** the object under a key, which deletes it. -/
theorem remove (h : Owns borrowed owner heap m) (hk : owner k = some q) :
    Owns (Function.update borrowed k none) (Function.update owner k none)
      (Function.update heap q none) (Function.update m k none) := by
  refine ⟨by rw [h.borrowed_eq], fun k' => ?_, fun k₁ k₂ p h₁ h₂ => ?_, fun p hp => ?_⟩
  · by_cases hne : k' = k
    · subst hne
      simp
    · rw [Function.update_of_ne hne, Function.update_of_ne hne, ← h.alive k']
      cases ho : owner k' with
      | none => rfl
      | some p =>
        have hpq : p ≠ q := fun hpq => hne (h.distinct k' k q (hpq ▸ ho) hk)
        rw [Option.map_some, Option.map_some, Function.update_of_ne hpq]
  · rw [Function.update_apply] at h₁ h₂
    split_ifs at h₁ h₂
    exact h.distinct k₁ k₂ p h₁ h₂
  · rw [Function.update_apply] at hp
    split_ifs at hp with hpq
    · exact absurd rfl hp
    · obtain ⟨k', hk'⟩ := h.owned p hp
      have hne : k' ≠ k := fun hne => by
        rw [hne, hk] at hk'
        exact hpq (Option.some.inj hk').symm
      exact ⟨k', by rw [Function.update_of_ne hne, hk']⟩

/-- **Replacing** the object under a key by a new one, and then deleting the
old. -/
theorem replace (h : Owns borrowed owner heap m) (hk : owner k = some q) (hp : heap p = none) :
    Owns (Function.update borrowed k (some p)) (Function.update owner k (some p))
      (Function.update (Function.update heap p (some b)) q none)
      (Function.update m k (some b)) := by
  have hqp : q ≠ p := fun hqp => by
    obtain ⟨b', -, hb'⟩ := h.heap_eq hk
    rw [hqp, hp] at hb'
    cases hb'
  have := (h.remove hk).install (k := k) (p := p) (b := b) (Function.update_self _ _ _)
    (by rw [Function.update_of_ne hqp.symm, hp])
  rwa [Function.update_idem, Function.update_idem, Function.update_idem,
    Function.update_comm hqp] at this

end Owns

end

end Foundation
