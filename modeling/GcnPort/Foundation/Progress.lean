/-
# Threads that return

A thread that waits for a lock waits for one that is inside, and what is inside a
lock never waits: it works on the members, calls the collaborator and releases the
lock.  So wherever the threads are, one of them can take a step
(`Locked.exists_step`), and each step leaves it less to do (`Pc.After`, a
well-founded relation).  A schedule in which every thread gets its turn again and
again therefore brings all methods to their return, unless new ones are called:
`fair_returns`.
-/

import GcnPort.Foundation.Threads
import Mathlib.Logic.Hydra

namespace Foundation

variable {O : Type*} {σ : O → Type*} {ι ε κ ω T : Type*} {M : Objects σ ι ε κ ω}

namespace Pc

/-- The thread has taken the lock of an object. -/
def Inside (pc : Pc M) : Prop := ∃ o, pc.Writes o ∨ pc.Reads o

/-- A thread that takes a step at the second goes to the first. -/
inductive After : Pc M → Pc M → Prop
  | reject (k : κ) (answer : ω) : After (.returning k answer) (.called k)
  | lockShared (k : κ) (body : Reading (σ (M.object k)) ω) : After (.reading k body) (.called k)
  | lock (k : κ) (body : Body (σ (M.object k)) ι ε ω) : After (.working k body) (.called k)
  | read (k : κ) (next : σ (M.object k) → Reading (σ (M.object k)) ω) (s : σ (M.object k)) :
      After (.reading k (next s)) (.reading k (.read next))
  | unlockShared (k : κ) (answer : ω) : After (.returning k answer) (.reading k (.ret answer))
  | access (k : κ) (write : σ (M.object k) → σ (M.object k))
      (next : σ (M.object k) → Body (σ (M.object k)) ι ε ω) (s : σ (M.object k)) :
      After (.working k (next s)) (.working k (.access write next))
  | effect (k : κ) (call : ι → ε × ι) (next : ε → Ending (σ (M.object k)) ω) (e : ε) :
      After (.ending k (next e)) (.working k (.effect call next))
  | accessEnding (k : κ) (write : σ (M.object k) → σ (M.object k))
      (next : σ (M.object k) → Ending (σ (M.object k)) ω) (s : σ (M.object k)) :
      After (.ending k (next s)) (.ending k (.access write next))
  | unlock (k : κ) (answer : ω) : After (.returning k answer) (.working k (.ret answer))
  | unlockEnding (k : κ) (answer : ω) : After (.returning k answer) (.ending k (.ret answer))
  | ret (k : κ) (answer : ω) : After .idle (.returning k answer)

/-- A thread that returns has finitely many steps left. -/
theorem acc_returning (k : κ) (answer : ω) : Acc After (.returning k answer : Pc M) := by
  refine ⟨_, fun pc h => ?_⟩
  cases h
  exact ⟨_, fun pc h => by cases h⟩

/-- A thread that reads has finitely many steps left. -/
theorem acc_reading (k : κ) (rest : Reading (σ (M.object k)) ω) :
    Acc After (.reading k rest : Pc M) := by
  induction rest with
  | ret answer =>
    refine ⟨_, fun pc h => ?_⟩
    cases h
    exact acc_returning k answer
  | read next ih =>
    refine ⟨_, fun pc h => ?_⟩
    cases h with
    | read _ _ s => exact ih s

/-- A thread that ends its method has finitely many steps left. -/
theorem acc_ending (k : κ) (rest : Ending (σ (M.object k)) ω) :
    Acc After (.ending k rest : Pc M) := by
  induction rest with
  | ret answer =>
    refine ⟨_, fun pc h => ?_⟩
    cases h
    exact acc_returning k answer
  | access write next ih =>
    refine ⟨_, fun pc h => ?_⟩
    cases h with
    | accessEnding _ _ _ s => exact ih s

/-- A thread that works has finitely many steps left. -/
theorem acc_working (k : κ) (rest : Body (σ (M.object k)) ι ε ω) :
    Acc After (.working k rest : Pc M) := by
  induction rest with
  | ret answer =>
    refine ⟨_, fun pc h => ?_⟩
    cases h
    exact acc_returning k answer
  | access write next ih =>
    refine ⟨_, fun pc h => ?_⟩
    cases h with
    | access _ _ _ s => exact ih s
  | effect call next =>
    refine ⟨_, fun pc h => ?_⟩
    cases h with
    | effect _ _ _ e => exact acc_ending k (next e)

/-- A thread cannot take steps for ever. -/
theorem after_wellFounded : WellFounded (After (M := M)) := by
  refine ⟨fun pc => ?_⟩
  cases pc with
  | idle => exact ⟨_, fun pc h => by cases h⟩
  | called k =>
    refine ⟨_, fun pc h => ?_⟩
    cases h with
    | reject _ answer => exact acc_returning k answer
    | lockShared _ body => exact acc_reading k body
    | lock _ body => exact acc_working k body
  | reading k rest => exact acc_reading k rest
  | working k rest => exact acc_working k rest
  | ending k rest => exact acc_ending k rest
  | returning k answer => exact acc_returning k answer

end Pc

namespace Config

variable [DecidableEq T] [DecidableEq O] {c c' : Config T M} {t : T}

/-- A step moves one thread, which has less to do after it. -/
theorem Step.after {e : Option (T × Mark κ ω)} (hs : Step t c e c') (hpc : c.thread t ≠ .idle) :
    ∃ pc, pc.After (c.thread t) ∧ c'.thread = Function.update c.thread t pc := by
  cases hs with
  | call k h => exact absurd h hpc
  | reject k answer h hm => exact ⟨_, h ▸ .reject k answer, rfl⟩
  | lockShared k body h hm hw => exact ⟨_, h ▸ .lockShared k body, rfl⟩
  | lock k body h hm hw hr => exact ⟨_, h ▸ .lock k body, rfl⟩
  | read k next h => exact ⟨_, h ▸ .read k next _, rfl⟩
  | unlockShared k answer h => exact ⟨_, h ▸ .unlockShared k answer, rfl⟩
  | access k write next h => exact ⟨_, h ▸ .access k write next _, rfl⟩
  | effect k call next h => exact ⟨_, h ▸ .effect k call next _, rfl⟩
  | accessEnding k write next h => exact ⟨_, h ▸ .accessEnding k write next _, rfl⟩
  | unlock k answer h => exact ⟨_, h ▸ .unlock k answer, rfl⟩
  | unlockEnding k answer h => exact ⟨_, h ▸ .unlockEnding k answer, rfl⟩
  | ret k answer h => exact ⟨_, h ▸ .ret k answer, rfl⟩

/-- **Whoever waits, somebody can step**: one that is inside a lock, or one that finds
all locks free. -/
theorem Locked.exists_step (hl : c.Locked) (hpc : c.thread t ≠ .idle) :
    ∃ t', c.thread t' ≠ .idle ∧ Step t' c (c.turn t').1 (c.turn t').2 := by
  by_cases hin : ∃ t', (c.thread t').Inside
  · obtain ⟨t', o, hin⟩ := hin
    refine ⟨t', fun h => by simp [h] at hin, (turn_cases t' c).resolve_left ?_⟩
    rintro ⟨h | ⟨k, h, -⟩, -⟩ <;> simp [h] at hin
  · refine ⟨t, hpc, (turn_cases t c).resolve_left ?_⟩
    rintro ⟨h | ⟨k, -, hw | hr⟩, -⟩
    · exact hpc h
    · obtain ⟨t', ht'⟩ := Option.ne_none_iff_exists'.1 hw
      exact hin ⟨t', _, .inl ((hl.writer _ t').1 ht')⟩
    · obtain ⟨t', ht'⟩ := Finset.nonempty_iff_ne_empty.2 hr
      exact hin ⟨t', _, .inr ((hl.readers _ t').1 ht')⟩

/-- The threads that have called something are among `S`. -/
def Among (S : Finset T) (c : Config T M) : Prop := ∀ t, t ∉ S → c.thread t = .idle

/-- What the threads of `S` have to do. -/
def todo (S : Finset T) (c : Config T M) : Multiset (Pc M) := S.val.map c.thread

/-- A step of one of the threads leaves less to do. -/
theorem Step.todo {S : Finset T} {e : Option (T × Mark κ ω)} (hs : Step t c e c')
    (hpc : c.thread t ≠ .idle) (hS : Among S c) :
    Among S c' ∧ Relation.CutExpand Pc.After (c'.todo S) (c.todo S) := by
  obtain ⟨pc, hafter, hthread⟩ := hs.after hpc
  have ht : t ∈ S := by_contra fun h => hpc (hS t h)
  constructor
  · intro t' ht'
    rw [hthread, Function.update_of_ne (ne_of_mem_of_not_mem ht ht').symm]
    exact hS t' ht'
  · have hrest : (S.erase t).val.map c'.thread = (S.erase t).val.map c.thread :=
      Multiset.map_congr rfl fun t' ht' => by
        rw [hthread, Function.update_of_ne (Finset.ne_of_mem_erase ht')]
    rw [Config.todo, Config.todo, ← Finset.insert_erase ht,
      Finset.insert_val_of_notMem (Finset.notMem_erase t S), Multiset.map_cons, Multiset.map_cons,
      hrest, hthread, Function.update_self]
    exact Relation.cutExpand_single_add hafter _

/-- Only the threads of the schedule have called anything. -/
theorem exists_among (w : World σ ι) (schedule : List (Act T κ)) :
    ∃ S, Among S ((Config.start M T w).after schedule) := by
  refine runAll_preserves (I := fun c => ∃ S, Among S c) (fun a c => ?_) schedule
    ⟨∅, fun _ _ => rfl⟩
  rintro ⟨S, hS⟩
  rcases c.act_cases a with hnone | ⟨t, hs⟩
  · exact ⟨S, hnone ▸ hS⟩
  · exact ⟨insert t S, fun t' ht' => by
      rw [Finset.mem_insert, not_or] at ht'
      rw [hs.thread_of_ne ht'.1, hS t' ht'.2]⟩

/-- The turns of the first `n` threads of `f`. -/
def turns (f : ℕ → T) (n : ℕ) : List (Act T κ) := (List.range n).map fun i => .turn (f i)

/-- One schedule after the other. -/
theorem after_append (schedule schedule' : List (Act T κ)) (c : Config T M) :
    c.after (schedule ++ schedule') = (c.after schedule).after schedule' := by
  rw [after, runAll_append]
  rfl

/-- One more turn. -/
theorem after_turns_succ (f : ℕ → T) (n : ℕ) (c : Config T M) :
    c.after (turns f (n + 1)) = ((c.after (turns f n)).turn (f n)).2 := by
  rw [turns, List.range_succ, List.map_append, after_append]
  rfl

/-- Some turns, and then some more. -/
theorem after_turns_add (f : ℕ → T) (m n : ℕ) (c : Config T M) :
    c.after (turns f (m + n)) = (c.after (turns f m)).after (turns (fun i => f (m + i)) n) := by
  induction n with
  | zero => rfl
  | succ n ih => rw [← Nat.add_assoc, after_turns_succ, ih, after_turns_succ]

/-- Every thread that has called something gets its turn again and again. -/
def Fair (f : ℕ → T) (c : Config T M) : Prop :=
  ∀ t, c.thread t ≠ .idle → ∀ n, ∃ m, n ≤ m ∧ f m = t

/-- Where nobody has made a step yet, nothing has changed. -/
theorem after_turns_of_waits {f : ℕ → T} {n : ℕ}
    (h : ∀ i < n, ¬(c.thread (f i) ≠ .idle ∧ Step (f i) c (c.turn (f i)).1 (c.turn (f i)).2)) :
    c.after (turns f n) = c := by
  induction n with
  | zero => rfl
  | succ n ih =>
    rw [after_turns_succ, ih fun i hi => h i (by omega)]
    rcases turn_cases (f n) c with ⟨-, hturn⟩ | hs
    · rw [hturn]
    · have hidle : c.thread (f n) = .idle := by_contra fun hpc => h n (by omega) ⟨hpc, hs⟩
      rw [turn_of_idle hidle]

/-- **Every method returns.**  When no more methods are called and every thread that
has called one gets its turn again and again, all of them return. -/
theorem Locked.fair_returns {S : Finset T} {f : ℕ → T} (hl : c.Locked) (hS : Among S c)
    (hf : Fair f c) : ∃ n, ∀ t, (c.after (turns f n)).thread t = .idle := by
  have hwf := (Pc.after_wellFounded (M := M)).cutExpand
  induction htodo : c.todo S using hwf.induction generalizing c f with
  | _ s ih =>
    subst htodo
    by_cases hidle : ∀ t, c.thread t = .idle
    · exact ⟨0, hidle⟩
    · obtain ⟨t, ht⟩ := not_forall.1 hidle
      obtain ⟨t', hpc', hs'⟩ := hl.exists_step ht
      -- the first turn that makes a step; until then nothing changes
      have hfirst : ∃ m, c.thread (f m) ≠ .idle ∧
          Step (f m) c (c.turn (f m)).1 (c.turn (f m)).2 := by
        obtain ⟨m, -, rfl⟩ := hf t' hpc' 0
        exact ⟨m, hpc', hs'⟩
      classical
      obtain ⟨hpc, hs⟩ := Nat.find_spec hfirst
      have hstay := after_turns_of_waits fun i hi => Nat.find_min hfirst hi
      generalize Nat.find hfirst = m at hpc hs hstay
      obtain ⟨hS', hless⟩ := hs.todo hpc hS
      have hf' : Fair (fun i => f (m + 1 + i)) (c.turn (f m)).2 := by
        intro t ht n
        have ht' : c.thread t ≠ .idle := by
          by_cases heq : t = f m
          · exact heq ▸ hpc
          · rwa [hs.thread_of_ne heq] at ht
        obtain ⟨i, hi, rfl⟩ := hf t ht' (m + 1 + n)
        exact ⟨i - (m + 1), by omega, by simp only [Nat.add_sub_cancel' (by omega : m + 1 ≤ i)]⟩
      obtain ⟨n, hn⟩ := ih _ hless (hl.step hs) hS' hf' rfl
      refine ⟨m + 1 + n, ?_⟩
      rwa [after_turns_add, after_turns_succ, hstay]

end Config

end Foundation
