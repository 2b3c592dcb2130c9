/-
# Cells that are written

A store has a value in each of its cells.  What an event writes is a value for some of
them; after a log of events a cell has what the last event that writes it wrote there
(`lastWritten`), or what it had before (`contents`).  So it is with a handler that
keeps the store in its state, whatever it is asked for (`Program.Plays.contents`).
-/

import GcnPort.Foundation.Script

namespace Foundation

variable {ω C : Type*} {V : C → Type*}

/-- What the last event that writes the cell wrote there. -/
def lastWritten (writes : ω → (c : C) → Option (V c)) (log : List ω) (c : C) : Option (V c) :=
  log.reverse.findSome? fun e => writes e c

/-- What is in the cells of a store after the events. -/
def contents (writes : ω → (c : C) → Option (V c)) (store : (c : C) → V c) (log : List ω) :
    (c : C) → V c := fun c => (lastWritten writes log c).getD (store c)

section

variable {writes : ω → (c : C) → Option (V c)} {store : (c : C) → V c} {log log' : List ω}

/-- The contents after one operation. -/
@[simp] theorem contents_singleton (e : ω) (c : C) :
    contents writes store [e] c = (writes e c).getD (store c) := by
  cases h : writes e c <;> simp [contents, lastWritten, h]

/-- The contents after one log and then another. -/
theorem contents_append :
    contents writes store (log ++ log') = contents writes (contents writes store log) log' := by
  funext c
  rw [contents, lastWritten, List.reverse_append, List.findSome?_append, ← lastWritten]
  cases h : lastWritten writes log' c with
  | none => rw [contents, h, Option.none_or, Option.getD_none, contents, lastWritten]
  | some v => rw [contents, h, Option.some_or, Option.getD_some, Option.getD_some]

end

namespace Program

variable {Op : Type*} {Answer : Op → Type*} {σ : Type*} {H : Handler Answer σ} {s s' : σ}
  {asked asked' : List (Asked Answer)}

/-- One log is played after the other. -/
theorem plays_append :
    Plays H (asked ++ asked') s s' ↔ ∃ s₁, Plays H asked s s₁ ∧ Plays H asked' s₁ s' := by
  induction asked generalizing s with
  | nil =>
    constructor
    · exact fun h => ⟨s, rfl, h⟩
    · rintro ⟨_, rfl, h⟩
      exact h
  | cons a asked ih =>
    simp only [List.cons_append, Plays, ih]
    constructor
    · rintro ⟨s₁, ha, s₂, h, h'⟩
      exact ⟨s₂, ⟨s₁, ha, h⟩, h'⟩
    · rintro ⟨s₂, ⟨s₁, ha, h⟩, h'⟩
      exact ⟨s₁, ha, s₂, h, h'⟩

/-- **The rule of cells.**  Where each operation leaves in the cells what it writes, so do
all together. -/
theorem Plays.contents {writes : Asked Answer → (c : C) → Option (V c)}
    {view : σ → (c : C) → V c} {I : σ → Prop} {R : Op → Prop}
    (hstep : ∀ op s answer s', R op → I s → H op s = some (answer, s') →
      I s' ∧ view s' = contents writes (view s) [⟨op, answer⟩])
    (hs : I s) (hasked : ∀ a ∈ asked, R a.1) (h : Plays H asked s s') :
    I s' ∧ view s' = contents writes (view s) asked := by
  induction asked generalizing s with
  | nil =>
    obtain rfl : s' = s := h
    exact ⟨hs, rfl⟩
  | cons a asked ih =>
    obtain ⟨s₁, ha, hrest⟩ := h
    obtain ⟨hs₁, hview⟩ := hstep _ _ _ _ (hasked a List.mem_cons_self) hs ha
    obtain ⟨hs', hview'⟩ := ih hs₁ (fun a ha => hasked a (List.mem_cons_of_mem _ ha)) hrest
    refine ⟨hs', ?_⟩
    rw [hview', hview, ← contents_append, List.singleton_append]

end Program
end Foundation
