/-
# Programs that ask an interface

A callback is given an interface and may do nothing but ask for its operations.
`Program` is what it asks for and what it makes of the answers; a `Handler` is an
implementation of the interface, which keeps a state and may end the process instead
of answering.  What relates the states before and after every operation relates those
before and after every program (`run_related`), and where another implementation gives
the same answers a program takes the same course (`run_follows`).
-/

import Mathlib.Tactic.Common

namespace Foundation

/-- A program over the operations `Op`, each with its own type of answers. -/
inductive Program {Op : Type*} (Answer : Op → Type*) (α : Type*) where
  | ret (value : α)
  | ask (op : Op) (next : Answer op → Program Answer α)

/-- An operation with its answer. -/
abbrev Asked {Op : Type*} (Answer : Op → Type*) := (op : Op) × Answer op

/-- An implementation of the interface.  It answers an operation, or the process ends. -/
abbrev Handler {Op : Type*} (Answer : Op → Type*) (σ : Type*) :=
  (op : Op) → σ → Option (Answer op × σ)

namespace Program

variable {Op : Type*} {Answer : Op → Type*} {α σ τ : Type*}

/-- What a program returns, what it was answered, and the state after it, unless the
process ended. -/
def run (H : Handler Answer σ) : Program Answer α → σ → Option (α × List (Asked Answer) × σ)
  | .ret value, s => some (value, [], s)
  | .ask op next, s =>
    match H op s with
    | none => none
    | some (answer, s') =>
      match (next answer).run H s' with
      | none => none
      | some (value, asked, s'') => some (value, ⟨op, answer⟩ :: asked, s'')

variable {H : Handler Answer σ} {K : Handler Answer τ} {p : Program Answer α} {s s' : σ}
  {value : α} {asked : List (Asked Answer)}

/-- A program that has returned asks for nothing. -/
theorem run_ret_eq_some_iff {v : α} :
    (ret v : Program Answer α).run H s = some (value, asked, s') ↔
      v = value ∧ asked = [] ∧ s' = s := by
  simp [run, eq_comm]

/-- A program that asks goes on with the answer. -/
theorem run_ask_eq_some_iff {op : Op} {next : Answer op → Program Answer α} :
    (ask op next).run H s = some (value, asked, s') ↔ ∃ answer s₁ asked',
      H op s = some (answer, s₁) ∧ (next answer).run H s₁ = some (value, asked', s') ∧
        asked = ⟨op, answer⟩ :: asked' := by
  constructor
  · intro h
    rw [run] at h
    split at h
    · cases h
    · rename_i answer s₁ hop
      split at h
      · cases h
      · rename_i v asked' s₂ hnext
        cases h
        exact ⟨answer, s₁, asked', hop, hnext, rfl⟩
  · rintro ⟨answer, s₁, asked', hop, hnext, rfl⟩
    rw [run, hop]
    simp only [hnext]

/-- **The rule for what is related before and after.**  What relates the states before
and after each operation, and is reflexive and transitive, relates those before and
after a program.  The relation may depend on what has been asked. -/
theorem run_related {R : List (Asked Answer) → σ → σ → Prop} (hrefl : ∀ s, R [] s s)
    (hstep : ∀ op s answer s₁ asked s', H op s = some (answer, s₁) → R asked s₁ s' →
      R (⟨op, answer⟩ :: asked) s s')
    (h : p.run H s = some (value, asked, s')) : R asked s s' := by
  induction p generalizing s asked with
  | ret v =>
    obtain ⟨-, rfl, rfl⟩ := run_ret_eq_some_iff.1 h
    exact hrefl s'
  | ask op next ih =>
    obtain ⟨answer, s₁, asked', hop, hnext, rfl⟩ := run_ask_eq_some_iff.1 h
    exact hstep op s answer s₁ asked' s' hop (ih answer hnext)

/-- **The rule of two runs.**  Where another implementation gives the same answers to
the operations that are asked, and stays related, the program takes the same course. -/
theorem run_follows {R : σ → τ → Prop} {P : Op → Prop} {t : τ}
    (hstep : ∀ op s t answer s₁, P op → R s t → H op s = some (answer, s₁) →
      ∃ t₁, K op t = some (answer, t₁) ∧ R s₁ t₁)
    (hR : R s t) (hasked : ∀ a ∈ asked, P a.1)
    (h : p.run H s = some (value, asked, s')) :
    ∃ t', p.run K t = some (value, asked, t') ∧ R s' t' := by
  induction p generalizing s t asked with
  | ret v =>
    obtain ⟨rfl, rfl, rfl⟩ := run_ret_eq_some_iff.1 h
    exact ⟨t, rfl, hR⟩
  | ask op next ih =>
    obtain ⟨answer, s₁, asked', hop, hnext, rfl⟩ := run_ask_eq_some_iff.1 h
    obtain ⟨t₁, hopt, h₁⟩ := hstep op s t answer s₁ (hasked _ List.mem_cons_self) hR hop
    obtain ⟨t', hnextt, h'⟩ := ih answer h₁ (fun a ha => hasked a (List.mem_cons_of_mem _ ha)) hnext
    exact ⟨t', run_ask_eq_some_iff.2 ⟨answer, t₁, asked', hopt, hnextt, rfl⟩, h'⟩

end Program
end Foundation
