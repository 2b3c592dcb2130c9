/-
# Scripts

A script asks for the operations of an interface one after the other, any of which may
be refused, and ends with a value or with an error.  What it may be answered and how it
then ends does not depend on who answers (`Program.Course`): a handler picks one of its
courses (`Program.run_eq_some_iff`).  A script that never goes on after a refusal is
`Closed`, and one that asks for the steps of a plan in their order `KeepsTo` it.  Both
hold of a sequence whose parts they hold of.
-/

import GcnPort.Foundation.Program
import Mathlib.Data.Set.Basic

namespace Foundation

universe u

namespace Program

variable {Op : Type*} {Answer : Op → Type*} {α β σ : Type*}

/-- A program, and then the one that goes on with its value. -/
def bind : Program Answer α → (α → Program Answer β) → Program Answer β
  | .ret value, f => f value
  | .ask op next, f => .ask op fun answer => (next answer).bind f

instance : Monad (Program Answer) where
  pure := .ret
  bind := .bind

/-- A course of a program: what it may be answered, and what it then returns. -/
def Course : Program Answer α → List (Asked Answer) → α → Prop
  | .ret value, asked, result => asked = [] ∧ value = result
  | .ask op next, asked, result =>
    ∃ answer rest, asked = ⟨op, answer⟩ :: rest ∧ (next answer).Course rest result

/-- The handler gives these answers. -/
def Plays (H : Handler Answer σ) : List (Asked Answer) → σ → σ → Prop
  | [], s, s' => s' = s
  | a :: asked, s, s' => ∃ s₁, H a.1 s = some (a.2, s₁) ∧ Plays H asked s₁ s'

variable {H : Handler Answer σ} {p : Program Answer α} {f : α → Program Answer β} {s s' : σ}
  {value : α} {asked : List (Asked Answer)}

/-- **A run is a course that the handler plays.** -/
theorem run_eq_some_iff :
    p.run H s = some (value, asked, s') ↔ p.Course asked value ∧ Plays H asked s s' := by
  induction p generalizing s asked with
  | ret v =>
    rw [run_ret_eq_some_iff, Course]
    constructor
    · rintro ⟨rfl, rfl, rfl⟩
      exact ⟨⟨rfl, rfl⟩, rfl⟩
    · rintro ⟨⟨rfl, rfl⟩, hplays⟩
      exact ⟨rfl, rfl, hplays⟩
  | ask op next ih =>
    rw [run_ask_eq_some_iff, Course]
    constructor
    · rintro ⟨answer, s₁, rest, hop, hnext, rfl⟩
      obtain ⟨hcourse, hplays⟩ := (ih answer).1 hnext
      exact ⟨⟨answer, rest, rfl, hcourse⟩, s₁, hop, hplays⟩
    · rintro ⟨⟨answer, rest, rfl, hcourse⟩, s₁, hop, hplays⟩
      exact ⟨answer, s₁, rest, hop, (ih answer).2 ⟨hcourse, hplays⟩, rfl⟩

/-- The handler that gives the answers of a list. -/
def replay [DecidableEq Op] : Handler Answer (List (Asked Answer)) := fun op asked =>
  match asked with
  | [] => none
  | a :: rest => if h : a.1 = op then some (h ▸ a.2, rest) else none

/-- Every list of answers is played by some handler. -/
theorem plays_replay [DecidableEq Op] (asked : List (Asked Answer)) :
    Plays replay asked asked [] := by
  induction asked with
  | nil => rfl
  | cons a asked ih => exact ⟨asked, dif_pos rfl, ih⟩

/-- **The courses of a sequence.** -/
theorem course_bind {result : β} :
    (p.bind f).Course asked result ↔ ∃ value asked₁ asked₂,
      p.Course asked₁ value ∧ (f value).Course asked₂ result ∧ asked = asked₁ ++ asked₂ := by
  induction p generalizing asked with
  | ret v =>
    rw [bind]
    constructor
    · intro h
      exact ⟨v, [], asked, ⟨rfl, rfl⟩, h, rfl⟩
    · rintro ⟨_, _, asked₂, ⟨rfl, rfl⟩, h, rfl⟩
      exact h
  | ask op next ih =>
    rw [bind, Course]
    constructor
    · rintro ⟨answer, rest, rfl, h⟩
      obtain ⟨w, asked₁, asked₂, h₁, h₂, rfl⟩ := (ih answer).1 h
      exact ⟨w, ⟨op, answer⟩ :: asked₁, asked₂, ⟨answer, asked₁, rfl, h₁⟩, h₂, rfl⟩
    · rintro ⟨w, _, asked₂, ⟨answer, asked₁, rfl, h₁⟩, h₂, rfl⟩
      exact ⟨answer, asked₁ ++ asked₂, rfl, (ih answer).2 ⟨w, asked₁, asked₂, h₁, h₂, rfl⟩⟩

end Program

/-- The answer to an operation: its result, or a refusal. -/
abbrev Reply {Op : Type*} (Result : Op → Type u) (ε : Type u) (op : Op) : Type u :=
  Except ε (Result op)

/-- A program over operations that may be refused; it may end with an error. -/
abbrev Script {Op : Type*} (Result : Op → Type u) (ε : Type u) : Type u → Type _ :=
  ExceptT ε (Program (Reply Result ε))

namespace Script

variable {Op : Type*} {Result : Op → Type u} {ε α β : Type u} {κ : Type*}

/-- Ask for an operation; a refusal is raised. -/
def perform (op : Op) : Script Result ε (Result op) := ExceptT.mk (.ask op .ret)

/-- A value that was computed, or an error that is raised. -/
def ofExcept (r : Except ε α) : Script Result ε α := ExceptT.mk (.ret r)

/-- What was asked of a script, with its answers. -/
abbrev Transcript (Result : Op → Type u) (ε : Type u) := List (Asked (Reply Result ε))

/-- The script may be answered so, and then ends so. -/
def Ends (x : Script Result ε α) (asked : Transcript Result ε) (r : Except ε α) : Prop :=
  x.run.Course asked r

section

variable {x : Script Result ε α} {f : α → Script Result ε β} {asked : Transcript Result ε}

/-- How a value ends. -/
theorem ends_pure {value : α} {r : Except ε α} :
    Ends (pure value : Script Result ε α) asked r ↔ asked = [] ∧ r = .ok value := by
  rw [Ends]
  exact and_congr_right fun _ => eq_comm

/-- How an error ends. -/
theorem ends_throw {e : ε} {r : Except ε α} :
    Ends (throw e : Script Result ε α) asked r ↔ asked = [] ∧ r = .error e := by
  rw [Ends]
  exact and_congr_right fun _ => eq_comm

/-- How a value that may be an error ends. -/
theorem ends_ofExcept {r r' : Except ε α} :
    Ends (ofExcept r : Script Result ε α) asked r' ↔ asked = [] ∧ r' = r := by
  rw [Ends]
  exact and_congr_right fun _ => eq_comm

/-- How an operation ends: as it was answered. -/
theorem ends_perform {op : Op} {r : Except ε (Result op)} :
    Ends (perform op) asked r ↔ asked = [⟨op, r⟩] := by
  rw [Ends]
  constructor
  · rintro ⟨answer, rest, rfl, rfl, rfl⟩
    rfl
  · rintro rfl
    exact ⟨r, [], rfl, rfl, rfl⟩

/-- **How a sequence ends**: in its first part, or in what goes on with its value. -/
theorem ends_bind {r : Except ε β} :
    Ends (x >>= f) asked r ↔ (∃ e, r = .error e ∧ Ends x asked (.error e)) ∨
      ∃ value asked₁ asked₂, Ends x asked₁ (.ok value) ∧ Ends (f value) asked₂ r ∧
        asked = asked₁ ++ asked₂ := by
  have hcourse : Ends (x >>= f) asked r ↔ ∃ r₁ asked₁ asked₂, Ends x asked₁ r₁ ∧
      Program.Course (ExceptT.bindCont f r₁) asked₂ r ∧ asked = asked₁ ++ asked₂ :=
    Program.course_bind
  rw [hcourse]
  constructor
  · rintro ⟨r₁, asked₁, asked₂, h₁, h₂, rfl⟩
    cases r₁ with
    | error e =>
      obtain ⟨rfl, rfl⟩ := h₂
      exact .inl ⟨e, rfl, by rwa [List.append_nil]⟩
    | ok value => exact .inr ⟨value, asked₁, asked₂, h₁, h₂, rfl⟩
  · rintro (⟨e, rfl, h⟩ | ⟨value, asked₁, asked₂, h₁, h₂, rfl⟩)
    · exact ⟨.error e, asked, [], h, ⟨rfl, rfl⟩, (List.append_nil _).symm⟩
    · exact ⟨.ok value, asked₁, asked₂, h₁, h₂, rfl⟩

/-- How a sequence returns: behind its first part, which returned. -/
theorem ends_bind_ok {result : β} :
    Ends (x >>= f) asked (.ok result) ↔ ∃ value asked₁ asked₂, Ends x asked₁ (.ok value) ∧
      Ends (f value) asked₂ (.ok result) ∧ asked = asked₁ ++ asked₂ := by
  rw [ends_bind]
  constructor
  · rintro (⟨e, he, -⟩ | h)
    · cases he
    · exact h
  · exact .inr

/-- A script that raises does not return. -/
theorem not_ends_throw_ok {e : ε} {value : α} :
    ¬Ends (throw e : Script Result ε α) asked (.ok value) := by
  rintro ⟨-, h⟩
  cases h

/-- How a script returns that asks first. -/
theorem ends_perform_bind_ok {op : Op} {f : Result op → Script Result ε β} {result : β} :
    Ends (perform op >>= f) asked (.ok result) ↔
      ∃ answer rest, Ends (f answer) rest (.ok result) ∧ asked = ⟨op, .ok answer⟩ :: rest := by
  rw [ends_bind_ok]
  constructor
  · rintro ⟨answer, _, rest, h, hrest, rfl⟩
    obtain rfl := ends_perform.1 h
    exact ⟨answer, rest, hrest, rfl⟩
  · rintro ⟨answer, rest, hrest, rfl⟩
    exact ⟨answer, [⟨op, .ok answer⟩], rest, ends_perform.2 rfl, hrest, rfl⟩

/-- How a script returns that first takes a value which may be an error. -/
theorem ends_ofExcept_bind_ok {r : Except ε α} {result : β} :
    Ends (ofExcept r >>= f) asked (.ok result) ↔
      ∃ value, r = .ok value ∧ Ends (f value) asked (.ok result) := by
  rw [ends_bind_ok]
  constructor
  · rintro ⟨value, _, rest, h, hrest, rfl⟩
    obtain ⟨rfl, hr⟩ := ends_ofExcept.1 h
    exact ⟨value, hr.symm, hrest⟩
  · rintro ⟨value, rfl, hrest⟩
    exact ⟨value, [], asked, ends_ofExcept.2 ⟨rfl, rfl⟩, hrest, rfl⟩

/-- How a loop returns, if each round returns on one log. -/
theorem ends_forM_ok {ι : Type*} {f : ι → Script Result ε PUnit} {t : ι → Transcript Result ε}
    (h : ∀ i asked, Ends (f i) asked (.ok ⟨⟩) ↔ asked = t i) (l : List ι) :
    Ends (l.forM f) asked (.ok ⟨⟩) ↔ asked = l.flatMap t := by
  induction l generalizing asked with
  | nil =>
    show Ends (pure PUnit.unit) asked _ ↔ asked = []
    simp [ends_pure]
  | cons i l ih =>
    show Ends (f i >>= fun _ => l.forM f) asked _ ↔ _
    rw [ends_bind_ok]
    simp only [h, ih, List.flatMap_cons]
    constructor
    · rintro ⟨_, _, _, rfl, rfl, rfl⟩
      rfl
    · rintro rfl
      exact ⟨⟨⟩, t i, l.flatMap t, rfl, rfl, rfl⟩

end

/-! ### Scripts that stop at a refusal -/

/-- The operation was granted. -/
def granted (a : Asked (Reply Result ε)) : Bool := a.2.isOk

/-- What is asked before the last operation is granted, and where the script returns the
last one is too. -/
structure Closed (x : Script Result ε α) : Prop where
  before : ∀ asked r, x.Ends asked r → ∀ a ∈ asked.dropLast, granted a = true
  returns : ∀ asked value, x.Ends asked (.ok value) → ∀ a ∈ asked, granted a = true

/-- What asks for nothing stops at every refusal. -/
theorem closed_ofExcept (r : Except ε α) : Closed (ofExcept r : Script Result ε α) where
  before := by
    intro asked r' h a ha
    obtain ⟨rfl, -⟩ := ends_ofExcept.1 h
    cases ha
  returns := by
    intro asked value h a ha
    obtain ⟨rfl, -⟩ := ends_ofExcept.1 h
    cases ha

/-- So does a value. -/
theorem closed_pure (value : α) : Closed (pure value : Script Result ε α) :=
  closed_ofExcept (.ok value)

/-- And so does an error. -/
theorem closed_throw (e : ε) : Closed (throw e : Script Result ε α) := closed_ofExcept (.error e)

/-- Behind a single operation nothing is asked. -/
theorem closed_perform (op : Op) : Closed (perform op : Script Result ε (Result op)) where
  before := by
    intro asked r h a ha
    obtain rfl := ends_perform.1 h
    cases ha
  returns := by
    intro asked value h a ha
    obtain rfl := ends_perform.1 h
    obtain rfl := List.mem_singleton.1 ha
    rfl

/-- **A sequence stops at a refusal** where its parts do. -/
theorem Closed.bind {x : Script Result ε α} {f : α → Script Result ε β} (hx : Closed x)
    (hf : ∀ value, Closed (f value)) : Closed (x >>= f) where
  before := by
    intro asked r h a ha
    rcases ends_bind.1 h with ⟨e, -, h⟩ | ⟨value, asked₁, asked₂, h₁, h₂, rfl⟩
    · exact hx.before asked _ h a ha
    · rcases List.eq_nil_or_concat asked₂ with rfl | ⟨asked₂, last, rfl⟩
      · rw [List.append_nil] at ha
        exact hx.before asked₁ _ h₁ a ha
      · rw [List.concat_eq_append] at ha h₂
        rw [← List.append_assoc, List.dropLast_concat] at ha
        rcases List.mem_append.1 ha with ha | ha
        · exact hx.returns asked₁ value h₁ a ha
        · exact (hf value).before _ r h₂ a (by rwa [List.dropLast_concat])
  returns := by
    intro asked result h a ha
    obtain ⟨value, asked₁, asked₂, h₁, h₂, rfl⟩ := ends_bind_ok.1 h
    rcases List.mem_append.1 ha with ha | ha
    · exact hx.returns asked₁ value h₁ a ha
    · exact (hf value).returns asked₂ result h₂ a ha

/-- A loop stops at a refusal if its rounds do. -/
theorem Closed.forM {ι : Type*} {f : ι → Script Result ε PUnit} (hf : ∀ i, Closed (f i))
    (l : List ι) : Closed (l.forM f) := by
  induction l with
  | nil => exact closed_pure _
  | cons i l ih => exact (hf i).bind fun _ => ih

/-! ### Scripts that keep to a plan -/

section

variable (step : Op → Option κ)

/-- The steps that were taken. -/
def taken (asked : Transcript Result ε) : List κ := asked.filterMap fun a => step a.1

/-- The steps are taken in the order of the plan, and all of them where the script
returns. -/
structure KeepsTo (plan : List κ) (x : Script Result ε α) : Prop where
  order : ∀ asked r, x.Ends asked r → taken step asked <+: plan
  whole : ∀ asked value, x.Ends asked (.ok value) → taken step asked = plan

variable {step} {plan plan' : List κ}

/-- The steps of two logs, one after the other. -/
theorem taken_append (asked asked' : Transcript Result ε) :
    taken step (asked ++ asked') = taken step asked ++ taken step asked' :=
  List.filterMap_append

/-- What asks for nothing takes no step. -/
theorem keepsTo_ofExcept (r : Except ε α) : KeepsTo step [] (ofExcept r : Script Result ε α) where
  order := by
    intro asked r' h
    obtain ⟨rfl, -⟩ := ends_ofExcept.1 h
    exact List.prefix_refl []
  whole := by
    intro asked value h
    obtain ⟨rfl, -⟩ := ends_ofExcept.1 h
    rfl

/-- A value takes no step. -/
theorem keepsTo_pure (value : α) : KeepsTo step [] (pure value : Script Result ε α) :=
  keepsTo_ofExcept (.ok value)

/-- A single operation keeps to its own step. -/
theorem keepsTo_perform (op : Op) :
    KeepsTo step (step op).toList (perform op : Script Result ε (Result op)) where
  order := by
    intro asked r h
    obtain rfl := ends_perform.1 h
    cases hstep : step op <;> simp [taken, hstep]
  whole := by
    intro asked value h
    obtain rfl := ends_perform.1 h
    cases hstep : step op <;> simp [taken, hstep]

/-- A script that raises has not left any plan. -/
theorem keepsTo_throw (plan : List κ) (e : ε) :
    KeepsTo step plan (throw e : Script Result ε α) where
  order := by
    intro asked r h
    obtain ⟨rfl, -⟩ := ends_throw.1 h
    exact List.nil_prefix
  whole := fun asked value h => absurd h not_ends_throw_ok

/-- How far a sequence gets whose first part keeps to a plan. -/
theorem KeepsTo.of_bind {x : Script Result ε α} {f : α → Script Result ε β}
    {asked : Transcript Result ε} {r : Except ε β} (hx : KeepsTo step plan x)
    (h : Ends (x >>= f) asked r) :
    (∃ e, r = .error e ∧ taken step asked <+: plan) ∨
      ∃ value asked₁ asked₂, Ends x asked₁ (.ok value) ∧ Ends (f value) asked₂ r ∧
        asked = asked₁ ++ asked₂ ∧ taken step asked = plan ++ taken step asked₂ := by
  rcases ends_bind.1 h with ⟨e, rfl, hends⟩ | ⟨value, asked₁, asked₂, h₁, h₂, rfl⟩
  · exact .inl ⟨e, rfl, hx.order asked _ hends⟩
  · refine .inr ⟨value, asked₁, asked₂, h₁, h₂, rfl, ?_⟩
    rw [taken_append, hx.whole asked₁ value h₁]

/-- **A sequence keeps to the plans of its parts.** -/
theorem KeepsTo.bind {x : Script Result ε α} {f : α → Script Result ε β}
    (hx : KeepsTo step plan x)
    (hf : ∀ value asked, x.Ends asked (.ok value) → KeepsTo step plan' (f value)) :
    KeepsTo step (plan ++ plan') (x >>= f) where
  order := by
    intro asked r h
    rcases hx.of_bind h with ⟨e, -, htaken⟩ | ⟨value, asked₁, asked₂, h₁, h₂, -, htaken⟩
    · exact htaken.trans (List.prefix_append _ _)
    · rw [htaken, List.prefix_append_right_inj]
      exact (hf value asked₁ h₁).order asked₂ r h₂
  whole := by
    intro asked result h
    obtain ⟨value, asked₁, asked₂, h₁, h₂, rfl⟩ := ends_bind_ok.1 h
    rw [taken_append, hx.whole asked₁ value h₁, (hf value asked₁ h₁).whole asked₂ result h₂]

/-- A loop keeps to the plans of its rounds. -/
theorem KeepsTo.forM {ι : Type*} {f : ι → Script Result ε PUnit} {plans : ι → List κ}
    (hf : ∀ i, KeepsTo step (plans i) (f i)) (l : List ι) :
    KeepsTo step (l.flatMap plans) (l.forM f) := by
  induction l with
  | nil => exact keepsTo_pure _
  | cons i l ih => exact (hf i).bind fun _ _ _ => ih

end

end Script
end Foundation
