/-
# Machines: operations on a state, one after another

An operation `step i` takes a state to an answer and the next state.  `runAll`
performs a list of operations and collects the answers.  What a step preserves,
a run preserves: `runAll_preserves` for what concerns the state,
`runAll_preserves_log` for what concerns the answers too, and
`runAll_preserves_guarded` where the step needs something known of the operation.
-/

import Mathlib.Data.List.Induction
import Mathlib.Tactic.Common

namespace Foundation

variable {σ : Type*} {ι : Type*} {ω : Type*}

/-- The answers of the operations `is`, in order, and the state after them. -/
def runAll (step : ι → σ → ω × σ) : List ι → σ → List ω × σ
  | [], s => ([], s)
  | i :: is, s =>
    ((step i s).1 :: (runAll step is (step i s).2).1, (runAll step is (step i s).2).2)

variable {step : ι → σ → ω × σ}

/-- No operation, no answer. -/
@[simp] theorem runAll_nil (s : σ) : runAll step [] s = ([], s) := rfl

/-- One operation, and then the others in the state that it leaves. -/
@[simp] theorem runAll_cons (i : ι) (is : List ι) (s : σ) : runAll step (i :: is) s =
    ((step i s).1 :: (runAll step is (step i s).2).1, (runAll step is (step i s).2).2) := rfl

/-- One list of operations after another. -/
theorem runAll_append (is js : List ι) (s : σ) : runAll step (is ++ js) s =
    ((runAll step is s).1 ++ (runAll step js (runAll step is s).2).1,
      (runAll step js (runAll step is s).2).2) := by
  induction is generalizing s with
  | nil => rfl
  | cons i is ih => rw [List.cons_append, runAll_cons, ih, runAll_cons, List.cons_append]

/-- **The simulation rule.**  A machine that another simulates, operation by
operation, gives the same answers. -/
theorem runAll_simulates {τ : Type*} {step' : ι → τ → ω × τ} {f : τ → σ}
    (h : ∀ i t, step i (f t) = ((step' i t).1, f (step' i t).2)) (is : List ι) (t : τ) :
    runAll step is (f t) = ((runAll step' is t).1, f (runAll step' is t).2) := by
  induction is generalizing t with
  | nil => rfl
  | cons i is ih => rw [runAll_cons, h, ih, runAll_cons]

/-- An answer is one that its operation gives. -/
theorem exists_step_of_runAll {ps : List (ι × ω)} {s : σ}
    (h : (runAll step (ps.map Prod.fst) s).1 = ps.map Prod.snd) {p : ι × ω} (hp : p ∈ ps) :
    ∃ s', (step p.1 s').1 = p.2 := by
  induction ps generalizing s with
  | nil => cases hp
  | cons q ps ih =>
    rw [List.map_cons, List.map_cons, runAll_cons] at h
    obtain ⟨hq, hps⟩ := List.cons.inj h
    rcases List.mem_cons.1 hp with rfl | hp
    · exact ⟨s, hq⟩
    · exact ih hps hp

/-- There are no more answers of a kind than operations that can give them. -/
theorem countP_runAll_le {p : ω → Bool} {q : ι → Bool}
    (h : ∀ i s, p (step i s).1 = true → q i = true) (is : List ι) (s : σ) :
    (runAll step is s).1.countP p ≤ is.countP q := by
  induction is generalizing s with
  | nil => exact Nat.zero_le _
  | cons i is ih =>
    rw [runAll_cons, List.countP_cons, List.countP_cons]
    refine Nat.add_le_add (ih _) ?_
    split_ifs with hp hq
    · exact Nat.le_refl 1
    · exact absurd (h i s hp) hq
    · exact Nat.zero_le _
    · exact Nat.le_refl 0

/-- **The invariant rule.**  What every operation preserves, every history
preserves. -/
theorem runAll_preserves {I : σ → Prop} (hstep : ∀ i s, I s → I (step i s).2) (is : List ι)
    {s : σ} (hs : I s) : I (runAll step is s).2 := by
  induction is generalizing s with
  | nil => exact hs
  | cons i is ih => exact ih (hstep i s hs)

/-- **The invariant rule, with the answers so far**, where `P` is known of every
operation in the state it is performed in. -/
theorem runAll_preserves_guarded {I : List ω → σ → Prop} {P : ι → σ → Prop}
    (hstep : ∀ i log s, P i s → I log s → I (log ++ [(step i s).1]) (step i s).2)
    (is : List ι) {s : σ}
    (hP : ∀ before i after, is = before ++ i :: after → P i (runAll step before s).2)
    (hs : I [] s) : I (runAll step is s).1 (runAll step is s).2 := by
  induction is using List.reverseRecOn with
  | nil => exact hs
  | append_singleton is i ih =>
    rw [runAll_append]
    refine hstep i _ _ (hP is i [] rfl) (ih fun before j after his => ?_)
    exact hP before j (after ++ [i]) (by rw [his, List.append_assoc, List.cons_append])

/-- What every operation preserves of a state and the answers that led to it, every
history preserves. -/
theorem runAll_preserves_log {I : List ω → σ → Prop}
    (hstep : ∀ i log s, I log s → I (log ++ [(step i s).1]) (step i s).2) (is : List ι)
    {s : σ} (hs : I [] s) : I (runAll step is s).1 (runAll step is s).2 :=
  runAll_preserves_guarded (P := fun _ _ => True) (fun i log s _ => hstep i log s) is
    (fun _ _ _ _ => trivial) hs

end Foundation
