/-
# Logs written in segments

A log is written one segment at a time.  `WellFormed Next start rest log` says
that each entry of the log may come after the one before it, that the first may
open a segment and that the last may end one.  Segments whose ends and openings
fit are put together by `WellFormed.append`; what comes after an entry that
ends no segment, and before one that opens none, is then fixed by `Next`
(`WellFormed.next`, `WellFormed.prev`).

`EveryPrefix P log` says that `P` holds of each entry and the log before it: at
every moment while the log was written.

Two logs that correspond entry by entry (`List.Forall₂`) have corresponding entries, and
as many of each kind.
-/

import Mathlib.Algebra.GroupWithZero.Nat
import Mathlib.Data.List.Chain
import Mathlib.Data.List.Forall2

namespace Foundation

variable {α : Type*} {Next : α → α → Prop} {start rest : α → Prop}
  {log before after : List α} {x : α}

/-- The log is a chain of `Next`, opened by `start` and ended by `rest`. -/
structure WellFormed (Next : α → α → Prop) (start rest : α → Prop) (log : List α) : Prop where
  chain : log.IsChain Next
  head : ∀ x ∈ log.head?, start x
  last : ∀ x ∈ log.getLast?, rest x

namespace WellFormed

/-- An empty log is well formed. -/
theorem nil : WellFormed Next start rest [] :=
  ⟨List.isChain_nil, fun _ h => (nomatch h), fun _ h => (nomatch h)⟩

/-- Segments that fit together. -/
theorem append {log' : List α} (h : WellFormed Next start rest log)
    (h' : WellFormed Next start rest log') (fit : ∀ x y, rest x → start y → Next x y) :
    WellFormed Next start rest (log ++ log') := by
  refine ⟨h.chain.append h'.chain fun x hx y hy => fit x y (h.last x hx) (h'.head y hy),
    fun x hx => ?_, fun x hx => ?_⟩
  · cases log with
    | nil => exact h'.head x hx
    | cons a log => exact h.head x hx
  · rw [List.getLast?_append, Option.mem_def, Option.or_eq_some_iff] at hx
    exact hx.elim (h'.last x) fun hx => h.last x hx.2

/-- An entry that ends no segment is followed by one that may come after it. -/
theorem next (h : WellFormed Next start rest log) (hlog : log = before ++ x :: after)
    (hx : ¬rest x) : ∃ y after', after = y :: after' ∧ Next x y := by
  subst hlog
  cases after with
  | nil => exact absurd (h.last x (by simp)) hx
  | cons y after => exact ⟨y, after, rfl, (List.isChain_append_cons_cons.1 h.chain).2.1⟩

/-- An entry that opens no segment comes after one that it may come after. -/
theorem prev (h : WellFormed Next start rest log) (hlog : log = before ++ x :: after)
    (hx : ¬start x) : ∃ y before', before = before' ++ [y] ∧ Next y x := by
  subst hlog
  rcases List.eq_nil_or_concat' before with rfl | ⟨before', y, rfl⟩
  · exact absurd (h.head x (by simp)) hx
  · refine ⟨y, before', rfl, ?_⟩
    have := h.chain
    rw [List.append_assoc, List.singleton_append] at this
    exact (List.isChain_append_cons_cons.1 this).2.1

/-- Consecutive entries of the log. -/
theorem next_of_mem_head (h : WellFormed Next start rest log)
    (hlog : log = before ++ x :: after) {y : α} (hy : y ∈ after.head?) : Next x y := by
  subst hlog
  cases after with
  | nil => cases hy
  | cons z after =>
    obtain rfl : z = y := Option.some.inj hy
    exact (List.isChain_append_cons_cons.1 h.chain).2.1

end WellFormed

/-- An entry of a log that has grown by one is the new one, the last, or an entry of
the old log. -/
theorem concat_eq_append_cons {y : α} : log ++ [y] = before ++ x :: after ↔
    (log = before ∧ y = x ∧ after = []) ∨
      ∃ after', log = before ++ x :: after' ∧ after = after' ++ [y] := by
  constructor
  · intro h
    rcases List.eq_nil_or_concat' after with rfl | ⟨after', z, rfl⟩
    · obtain ⟨rfl, hy⟩ := List.append_inj' h rfl
      exact .inl ⟨rfl, (List.cons.inj hy).1, rfl⟩
    · rw [← List.cons_append, ← List.append_assoc] at h
      obtain ⟨rfl, hy⟩ := List.append_inj' h rfl
      obtain rfl : y = z := (List.cons.inj hy).1
      exact .inr ⟨after', rfl, rfl⟩
  · rintro (⟨rfl, rfl, rfl⟩ | ⟨after', rfl, rfl⟩)
    · rfl
    · rw [List.append_assoc, List.cons_append]

/-- `P` holds of every entry and the log before it. -/
def EveryPrefix (P : List α → α → Prop) (log : List α) : Prop :=
  ∀ before x after, log = before ++ x :: after → P before x

/-- An empty log has nothing that anything should hold of. -/
theorem everyPrefix_nil {P : List α → α → Prop} : EveryPrefix P [] :=
  fun before _ _ h => absurd h.symm (by simp)

/-- The first entry, and every prefix of the rest behind it. -/
theorem everyPrefix_cons {P : List α → α → Prop} :
    EveryPrefix P (x :: log) ↔ P [] x ∧ EveryPrefix (fun l y => P (x :: l) y) log := by
  refine ⟨fun h => ⟨h [] x log rfl, fun before y after hlog => ?_⟩, ?_⟩
  · exact h (x :: before) y after (by rw [hlog]; rfl)
  · rintro ⟨hx, h⟩ before y after hlog
    cases before with
    | nil =>
      obtain ⟨rfl, -⟩ := List.cons.inj hlog
      exact hx
    | cons z before =>
      obtain ⟨rfl, hrest⟩ := List.cons.inj hlog
      exact h before y after hrest

/-- A log that grows by a segment. -/
theorem EveryPrefix.append {P : List α → α → Prop} {log' : List α} (h : EveryPrefix P log)
    (h' : EveryPrefix (fun l y => P (log ++ l) y) log') : EveryPrefix P (log ++ log') := by
  induction log generalizing P with
  | nil => exact h'
  | cons x log ih =>
    obtain ⟨hx, hrest⟩ := everyPrefix_cons.1 h
    exact everyPrefix_cons.2 ⟨hx, ih hrest h'⟩

/-- A log that grows by one entry. -/
theorem EveryPrefix.concat {P : List α → α → Prop} (h : EveryPrefix P log) (hx : P log x) :
    EveryPrefix P (log ++ [x]) := by
  refine h.append (everyPrefix_cons.2 ⟨?_, everyPrefix_nil⟩)
  rwa [List.append_nil]

/-- What holds while a log was written held while the first part of it was. -/
theorem EveryPrefix.of_append {P : List α → α → Prop} {log' : List α}
    (h : EveryPrefix P (log ++ log')) : EveryPrefix P log := fun before x after hlog =>
  h before x (after ++ log') (by rw [hlog, List.append_assoc]; rfl)

section

variable {β : Type*} {R : α → β → Prop} {log' : List β}

/-- An entry corresponds to some entry of the other log. -/
theorem exists_of_forall₂ (h : List.Forall₂ R log log') (hx : x ∈ log) : ∃ y ∈ log', R x y := by
  induction h with
  | nil => cases hx
  | cons hxy _ ih =>
    rcases List.mem_cons.1 hx with rfl | hx
    · exact ⟨_, List.mem_cons_self .., hxy⟩
    · obtain ⟨y, hy, hxy⟩ := ih hx
      exact ⟨y, List.mem_cons_of_mem _ hy, hxy⟩

/-- Two logs have as many entries of a kind that corresponds. -/
theorem countP_of_forall₂ {p : α → Bool} {q : β → Bool} (h : List.Forall₂ R log log')
    (hpq : ∀ x y, R x y → p x = q y) : log.countP p = log'.countP q := by
  rw [List.countP_eq_length_filter, List.countP_eq_length_filter]
  exact (List.rel_filter (fun x y hxy => Bool.eq_iff_iff.1 (hpq x y hxy)) h).length_eq

end

/-- The weight of a log in which only some entries weigh something. -/
theorem sum_map_elim {β : Type*} (f : α → Option β) (weight : β → ℕ) (log : List α) :
    (log.map fun x => (f x).elim 0 weight).sum = ((log.filterMap f).map weight).sum := by
  induction log with
  | nil => rfl
  | cons x log ih => cases h : f x <;> simp [h, ih]

/-- To add up ones is to count. -/
theorem sum_map_ite (p : α → Bool) (log : List α) :
    (log.map fun x => if p x then 1 else 0).sum = log.countP p := by
  induction log with
  | nil => rfl
  | cons x log ih => rw [List.map_cons, List.sum_cons, ih, List.countP_cons, Nat.add_comm]

end Foundation
