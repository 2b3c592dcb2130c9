/-
# Bounded loops over a step that may stop

A step takes a state to the next one and may hand out a result.
`iterate step n` is the loop that makes at most `n` steps and returns the first
result it is handed.  `iterate_eq_none_iff` and `iterate_eq_some_iff` say when
it ran out and when it stopped, in terms of `Continues`: `k` steps none of
which stopped.  `iterate_add` resumes a loop that ran out.
-/

import Mathlib.Tactic.Common

namespace Foundation

variable {σ : Type*} {ρ : Type*}

/-- At most `n` steps from `s`; the first result ends the loop. -/
def iterate (step : σ → Option ρ × σ) : ℕ → σ → Option ρ × σ
  | 0, s => (none, s)
  | n + 1, s =>
    match step s with
    | (some r, s') => (some r, s')
    | (none, s') => iterate step n s'

/-- `Continues step k s s'`: `k` steps lead from `s` to `s'`, and none stops. -/
inductive Continues (step : σ → Option ρ × σ) : ℕ → σ → σ → Prop
  | zero (s : σ) : Continues step 0 s s
  | succ {k : ℕ} {s s' s'' : σ} (h : step s = (none, s')) (hs : Continues step k s' s'') :
      Continues step (k + 1) s s''

section

variable {step : σ → Option ρ × σ} {s s' : σ} {r : ρ}

/-- A first step that hands out a result ends the loop. -/
theorem iterate_of_eq_some {n : ℕ} (h : (step s).1 = some r) :
    iterate step (n + 1) s = (some r, (step s).2) := by
  rw [iterate]
  rcases hs : step s with ⟨_ | r', s'⟩
  · simp [hs] at h
  · obtain rfl : r' = r := by simpa [hs] using h
    rfl

/-- A first step that does not stop leaves the rest to do. -/
theorem iterate_of_eq_none {n : ℕ} (h : (step s).1 = none) :
    iterate step (n + 1) s = iterate step n (step s).2 := by
  rw [iterate]
  rcases hs : step s with ⟨_ | r', s'⟩
  · rfl
  · simp [hs] at h

/-- **The loop runs out** exactly after as many steps as it was given. -/
theorem iterate_eq_none_iff {n : ℕ} :
    iterate step n s = (none, s') ↔ Continues step n s s' := by
  induction n generalizing s with
  | zero =>
    constructor
    · intro h
      obtain rfl : s = s' := congrArg Prod.snd h
      exact .zero s
    · intro h
      cases h
      rfl
  | succ n ih =>
    rw [iterate]
    constructor
    · intro h
      rcases hs : step s with ⟨_ | r, s₁⟩ <;> simp only [hs] at h
      · exact .succ hs (ih.1 h)
      · cases h
    · intro h
      cases h with
      | succ hs hc =>
        rw [hs]
        exact ih.2 hc

/-- **The loop stops** at the first step that hands out a result, before the
bound is used up. -/
theorem iterate_eq_some_iff {n : ℕ} : iterate step n s = (some r, s') ↔
    ∃ k < n, ∃ s₁, Continues step k s s₁ ∧ step s₁ = (some r, s') := by
  induction n generalizing s with
  | zero => simp [iterate]
  | succ n ih =>
    rw [iterate]
    constructor
    · intro h
      rcases hs : step s with ⟨_ | r₁, s₁⟩ <;> simp only [hs] at h
      · obtain ⟨k, hk, s₂, hc, hstop⟩ := ih.1 h
        exact ⟨k + 1, by omega, s₂, .succ hs hc, hstop⟩
      · exact ⟨0, by omega, s, .zero s, hs.trans h⟩
    · rintro ⟨k, hk, s₁, hc, hstop⟩
      cases hc with
      | zero => rw [hstop]
      | succ hs hc =>
        rw [hs]
        exact ih.2 ⟨_, by omega, s₁, hc, hstop⟩

/-- **Splitting the bound.**  A loop of `m + n` steps is a loop of `m` steps,
resumed for `n` more if it ran out. -/
theorem iterate_add (step : σ → Option ρ × σ) (m n : ℕ) (s : σ) :
    iterate step (m + n) s =
      match iterate step m s with
      | (some r, s') => (some r, s')
      | (none, s') => iterate step n s' := by
  induction m generalizing s with
  | zero => rw [Nat.zero_add, iterate]
  | succ m ih =>
    rw [Nat.succ_add, iterate, iterate]
    rcases step s with ⟨_ | r, s'⟩
    · exact ih s'
    · rfl

/-- **A loop that another one simulates**, step by step, stops when that one does. -/
theorem iterate_map {τ : Type*} {ω : Type*} {step' : τ → Option ω × τ} {f : σ → τ} {g : ρ → ω}
    (h : ∀ s, step' (f s) = ((step s).1.map g, f (step s).2)) (n : ℕ) (s : σ) :
    iterate step' n (f s) = ((iterate step n s).1.map g, f (iterate step n s).2) := by
  induction n generalizing s with
  | zero => rfl
  | succ n ih =>
    rw [iterate, iterate, h]
    rcases step s with ⟨_ | r, s'⟩
    · exact ih s'
    · rfl

/-- A predicate every non-stopping step preserves holds after `k` of them. -/
theorem Continues.preserves {I : σ → Prop} {k : ℕ} (h : Continues step k s s')
    (hstep : ∀ s s', I s → step s = (none, s') → I s') (hs : I s) : I s' := by
  induction h with
  | zero => exact hs
  | succ h _ ih => exact ih (hstep _ _ hs h)

end

end Foundation
