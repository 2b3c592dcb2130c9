/-
# Threads that call guarded objects

Any number of threads call the methods of `Objects` at any time.  Each turn of a
thread is one micro-step: a check before the lock, the taking of the lock, one
access to the members, the call of the collaborator, the release, the return.
`Config.act` is one step of a schedule; a thread whose turn it is while it has to
wait for a lock does nothing.  `Step` says all that a step can do
(`Config.act_cases`).

`Locked` is the invariant of the locks: a lock knows the threads that are inside,
and no thread is inside with one that writes.
-/

import GcnPort.Foundation.Machine
import GcnPort.Foundation.Section
import Mathlib.Data.Finset.Erase
import Mathlib.Data.Finset.Insert

namespace Foundation

/-- A lock for one writer or any number of readers. -/
structure RwLock (T : Type*) where
  writer : Option T := none
  readers : Finset T := ∅

variable {O : Type*} {σ : O → Type*} {ι ε κ ω T : Type*}

/-- What a thread has called, and what is left of the method. -/
inductive Pc (M : Objects σ ι ε κ ω) where
  | idle
  | called (k : κ)
  | reading (k : κ) (rest : Reading (σ (M.object k)) ω)
  | working (k : κ) (rest : Body (σ (M.object k)) ι ε ω)
  | ending (k : κ) (rest : Ending (σ (M.object k)) ω)
  | returning (k : κ) (answer : ω)

/-- The thread has taken the lock of `o` shared. -/
@[simp]
def Pc.Reads {M : Objects σ ι ε κ ω} (o : O) : Pc M → Prop
  | .reading k _ => M.object k = o
  | .idle | .called _ | .working _ _ | .ending _ _ | .returning _ _ => False

/-- The thread has taken the lock of `o` exclusively. -/
@[simp]
def Pc.Writes {M : Objects σ ι ε κ ω} (o : O) : Pc M → Prop
  | .working k _ | .ending k _ => M.object k = o
  | .idle | .called _ | .reading _ _ | .returning _ _ => False

/-- What is seen of a method: its call, the moment it takes effect, its return. -/
inductive Mark (κ ω : Type*) where
  | call (k : κ)
  | effect (k : κ) (answer : ω)
  | ret (k : κ) (answer : ω)
deriving DecidableEq, Repr

/-- The objects, their locks, and where each thread is. -/
structure Config (T : Type*) (M : Objects σ ι ε κ ω) extends World σ ι where
  lock : O → RwLock T
  thread : T → Pc M

/-- One step of a schedule: a thread calls a method, or takes a turn. -/
inductive Act (T κ : Type*) where
  | call (t : T) (k : κ)
  | turn (t : T)
deriving DecidableEq, Repr

namespace Config

variable {M : Objects σ ι ε κ ω}

/-- No thread has called anything yet. -/
def start (M : Objects σ ι ε κ ω) (T : Type*) (w : World σ ι) : Config T M where
  toWorld := w
  lock _ := {}
  thread _ := .idle

variable {c : Config T M} {t : T}

/-- What the locks know is where the threads are, and a thread that writes is alone. -/
structure Locked (c : Config T M) : Prop where
  writer : ∀ o t, (c.lock o).writer = some t ↔ (c.thread t).Writes o
  readers : ∀ o t, t ∈ (c.lock o).readers ↔ (c.thread t).Reads o
  alone : ∀ o, (c.lock o).writer ≠ none → (c.lock o).readers = ∅

namespace Locked

/-- At first every lock is free. -/
theorem start (M : Objects σ ι ε κ ω) (T : Type*) (w : World σ ι) :
    (Config.start M T w).Locked :=
  ⟨fun _ _ => by simp [Config.start], fun _ _ => by simp [Config.start],
    fun _ h => absurd rfl h⟩

/-- Two threads that are inside, one of which writes, are one thread. -/
theorem eq_of_writes (h : c.Locked) {o : O} {t t' : T} (hw : (c.thread t).Writes o)
    (hin : (c.thread t').Writes o ∨ (c.thread t').Reads o) : t' = t := by
  have hwriter := (h.writer o t).2 hw
  rcases hin with hin | hin
  · have := (h.writer o t').2 hin
    rw [hwriter] at this
    exact (Option.some.inj this).symm
  · have := (h.readers o t').2 hin
    rw [h.alone o (by rw [hwriter]; exact Option.some_ne_none _)] at this
    cases this

end Locked

variable [DecidableEq T]

/-- Thread `t` is at `pc`. -/
def goto (c : Config T M) (t : T) (pc : Pc M) : Config T M :=
  { c with thread := Function.update c.thread t pc }

/-- A step of a thread that keeps its place at every lock. -/
theorem Locked.goto (h : c.Locked) {t : T} {pc : Pc M}
    (hpc : ∀ o, (pc.Writes o ↔ (c.thread t).Writes o) ∧ (pc.Reads o ↔ (c.thread t).Reads o))
    {c' : Config T M} (hl : c'.lock = c.lock)
    (ht : c'.thread = Function.update c.thread t pc) : c'.Locked := by
  refine ⟨fun o t' => ?_, fun o t' => ?_, fun o => ?_⟩
  · rw [hl, h.writer o t', ht]
    by_cases heq : t' = t
    · subst heq
      rw [Function.update_self, (hpc o).1]
    · rw [Function.update_of_ne heq]
  · rw [hl, h.readers o t', ht]
    by_cases heq : t' = t
    · subst heq
      rw [Function.update_self, (hpc o).2]
    · rw [Function.update_of_ne heq]
  · rw [hl]
    exact h.alone o

variable [DecidableEq O]

/-- The lock of `o` becomes `l`. -/
def setLock (c : Config T M) (o : O) (l : RwLock T) : Config T M :=
  { c with lock := Function.update c.lock o l }

/-- The members of `o` become `s`. -/
def setMembers (c : Config T M) (o : O) (s : σ o) : Config T M :=
  { c with members := Function.update c.members o s }

/-- A turn of thread `t`. -/
def turn (t : T) (c : Config T M) : Option (T × Mark κ ω) × Config T M :=
  match c.thread t with
  | .idle => (none, c)
  | .called k =>
    let l := c.lock (M.object k)
    match M.method k with
    | .reject answer => (none, c.goto t (.returning k answer))
    | .shared body =>
      if l.writer.isNone then
        (none, (c.setLock (M.object k) { l with readers := insert t l.readers }).goto t
          (.reading k body))
      else
        (none, c)
    | .exclusive body =>
      if l.writer.isNone ∧ l.readers = ∅ then
        (none, (c.setLock (M.object k) { l with writer := some t }).goto t (.working k body))
      else
        (none, c)
  | .reading k (.read next) => (none, c.goto t (.reading k (next (c.members (M.object k)))))
  | .reading k (.ret answer) =>
    let l := c.lock (M.object k)
    (none, (c.setLock (M.object k) { l with readers := l.readers.erase t }).goto t
      (.returning k answer))
  | .working k (.access write next) =>
    let s := c.members (M.object k)
    (none, (c.setMembers (M.object k) (write s)).goto t (.working k (next s)))
  | .working k (.effect call next) =>
    let (answer, collaborator) := call c.collaborator
    (none, ({ c with collaborator } : Config T M).goto t (.ending k (next answer)))
  | .ending k (.access write next) =>
    let s := c.members (M.object k)
    (none, (c.setMembers (M.object k) (write s)).goto t (.ending k (next s)))
  | .working k (.ret answer) | .ending k (.ret answer) =>
    let l := c.lock (M.object k)
    (none, (c.setLock (M.object k) { l with writer := none }).goto t (.returning k answer))
  | .returning k answer => (some (t, .ret k answer), c.goto t .idle)

/-- One step of a schedule: what is seen of it, and where it leads.  A thread calls
one method at a time. -/
def act (a : Act T κ) (c : Config T M) : Option (T × Mark κ ω) × Config T M :=
  match a with
  | .turn t => c.turn t
  | .call t k =>
    match c.thread t with
    | .idle => (some (t, .call k), c.goto t (.called k))
    | _ => (none, c)

/-- What is seen of a schedule. -/
def history (schedule : List (Act T κ)) (c : Config T M) : List (T × Mark κ ω) :=
  (runAll act schedule c).1.reduceOption

/-- Where a schedule leads. -/
def after (schedule : List (Act T κ)) (c : Config T M) : Config T M :=
  (runAll act schedule c).2

/-- A thread that has called nothing has nothing to do. -/
theorem turn_of_idle (h : c.thread t = .idle) : c.turn t = (none, c) := by
  rw [turn, h]

/-- All that a step of thread `t` can do. -/
inductive Step (t : T) (c : Config T M) : Option (T × Mark κ ω) → Config T M → Prop
  | call (k : κ) (h : c.thread t = .idle) : Step t c (some (t, .call k)) (c.goto t (.called k))
  | reject (k : κ) (answer : ω) (h : c.thread t = .called k) (hm : M.method k = .reject answer) :
      Step t c none (c.goto t (.returning k answer))
  | lockShared (k : κ) (body : Reading (σ (M.object k)) ω) (h : c.thread t = .called k)
      (hm : M.method k = .shared body) (hw : (c.lock (M.object k)).writer = none) :
      Step t c none ((c.setLock (M.object k) { c.lock (M.object k) with
        readers := insert t (c.lock (M.object k)).readers }).goto t (.reading k body))
  | lock (k : κ) (body : Body (σ (M.object k)) ι ε ω) (h : c.thread t = .called k)
      (hm : M.method k = .exclusive body) (hw : (c.lock (M.object k)).writer = none)
      (hr : (c.lock (M.object k)).readers = ∅) :
      Step t c none ((c.setLock (M.object k) { c.lock (M.object k) with
        writer := some t }).goto t (.working k body))
  | read (k : κ) (next : σ (M.object k) → Reading (σ (M.object k)) ω)
      (h : c.thread t = .reading k (.read next)) :
      Step t c none (c.goto t (.reading k (next (c.members (M.object k)))))
  | unlockShared (k : κ) (answer : ω) (h : c.thread t = .reading k (.ret answer)) :
      Step t c none ((c.setLock (M.object k) { c.lock (M.object k) with
        readers := (c.lock (M.object k)).readers.erase t }).goto t (.returning k answer))
  | access (k : κ) (write : σ (M.object k) → σ (M.object k))
      (next : σ (M.object k) → Body (σ (M.object k)) ι ε ω)
      (h : c.thread t = .working k (.access write next)) :
      Step t c none ((c.setMembers (M.object k) (write (c.members (M.object k)))).goto t
        (.working k (next (c.members (M.object k)))))
  | effect (k : κ) (call : ι → ε × ι) (next : ε → Ending (σ (M.object k)) ω)
      (h : c.thread t = .working k (.effect call next)) :
      Step t c none (({ c with collaborator := (call c.collaborator).2 } : Config T M).goto t
        (.ending k (next (call c.collaborator).1)))
  | accessEnding (k : κ) (write : σ (M.object k) → σ (M.object k))
      (next : σ (M.object k) → Ending (σ (M.object k)) ω)
      (h : c.thread t = .ending k (.access write next)) :
      Step t c none ((c.setMembers (M.object k) (write (c.members (M.object k)))).goto t
        (.ending k (next (c.members (M.object k)))))
  | unlock (k : κ) (answer : ω) (h : c.thread t = .working k (.ret answer)) :
      Step t c none ((c.setLock (M.object k) { c.lock (M.object k) with
        writer := none }).goto t (.returning k answer))
  | unlockEnding (k : κ) (answer : ω) (h : c.thread t = .ending k (.ret answer)) :
      Step t c none ((c.setLock (M.object k) { c.lock (M.object k) with
        writer := none }).goto t (.returning k answer))
  | ret (k : κ) (answer : ω) (h : c.thread t = .returning k answer) :
      Step t c (some (t, .ret k answer)) (c.goto t .idle)

/-- The thread has called nothing, or is at a lock that is not free. -/
def Waits (t : T) (c : Config T M) : Prop :=
  c.thread t = .idle ∨ ∃ k, c.thread t = .called k ∧
    ((c.lock (M.object k)).writer ≠ none ∨ (c.lock (M.object k)).readers ≠ ∅)

/-- A thread whose turn it is waits, or makes a step. -/
theorem turn_cases (t : T) (c : Config T M) :
    (Waits t c ∧ c.turn t = (none, c)) ∨ Step t c (c.turn t).1 (c.turn t).2 := by
  cases h : c.thread t with
  | idle => exact .inl ⟨.inl h, turn_of_idle h⟩
  | called k =>
    cases hm : M.method k with
    | reject answer =>
      rw [turn, h]
      simp only [hm]
      exact .inr (.reject k answer h hm)
    | shared body =>
      rw [turn, h]
      simp only [hm]
      split
      · exact .inr (.lockShared k body h hm (Option.isNone_iff_eq_none.1 ‹_›))
      · rename_i hw
        exact .inl ⟨.inr ⟨k, h, .inl (mt Option.isNone_iff_eq_none.2 hw)⟩, rfl⟩
    | exclusive body =>
      rw [turn, h]
      simp only [hm]
      split
      · rename_i hfree
        exact .inr (.lock k body h hm (Option.isNone_iff_eq_none.1 hfree.1) hfree.2)
      · rename_i hw
        rw [Option.isNone_iff_eq_none, not_and_or] at hw
        exact .inl ⟨.inr ⟨k, h, hw⟩, rfl⟩
  | reading k rest =>
    cases rest with
    | ret answer =>
      rw [turn, h]
      exact .inr (.unlockShared k answer h)
    | read next =>
      rw [turn, h]
      exact .inr (.read k next h)
  | working k rest =>
    cases rest with
    | ret answer =>
      rw [turn, h]
      exact .inr (.unlock k answer h)
    | access write next =>
      rw [turn, h]
      exact .inr (.access k write next h)
    | effect call next =>
      rw [turn, h]
      exact .inr (.effect k call next h)
  | ending k rest =>
    cases rest with
    | ret answer =>
      rw [turn, h]
      exact .inr (.unlockEnding k answer h)
    | access write next =>
      rw [turn, h]
      exact .inr (.accessEnding k write next h)
  | returning k answer =>
    rw [turn, h]
    exact .inr (.ret k answer h)

/-- **What a schedule's step can do**: nothing, or one of the steps of a thread. -/
theorem act_cases (a : Act T κ) (c : Config T M) :
    c.act a = (none, c) ∨ ∃ t, Step t c (c.act a).1 (c.act a).2 := by
  cases a with
  | turn t => exact (turn_cases t c).imp And.right fun h => ⟨t, h⟩
  | call t k =>
    cases h : c.thread t with
    | idle =>
      rw [act, h]
      exact .inr ⟨t, .call k h⟩
    | _ => exact .inl (by rw [act, h])

/-- A step of a thread leaves the others where they are. -/
theorem Step.thread_of_ne {e : Option (T × Mark κ ω)} {c' : Config T M} (hs : Step t c e c')
    {t' : T} (ht : t' ≠ t) : c'.thread t' = c.thread t' := by
  cases hs <;> exact Function.update_of_ne ht _ _

namespace Locked

/-- A step of a thread that changes its place at the lock of `o`. -/
theorem setLock (h : c.Locked) {t : T} {o : O} {l : RwLock T} {pc : Pc M}
    (hother : ∀ o', o' ≠ o → (pc.Writes o' ↔ (c.thread t).Writes o') ∧
      (pc.Reads o' ↔ (c.thread t).Reads o'))
    (hwriter : l.writer = some t ↔ pc.Writes o) (hreader : t ∈ l.readers ↔ pc.Reads o)
    (hrest : ∀ t', t' ≠ t → (l.writer = some t' ↔ (c.lock o).writer = some t') ∧
      (t' ∈ l.readers ↔ t' ∈ (c.lock o).readers))
    (halone : l.writer ≠ none → l.readers = ∅) : ((c.setLock o l).goto t pc).Locked := by
  have hthread : ∀ t', t' ≠ t → ((c.setLock o l).goto t pc).thread t' = c.thread t' :=
    fun t' hne => Function.update_of_ne hne _ _
  have hself : ((c.setLock o l).goto t pc).thread t = pc := Function.update_self ..
  have hlock : ((c.setLock o l).goto t pc).lock o = l := Function.update_self ..
  have hlocks : ∀ o', o' ≠ o → ((c.setLock o l).goto t pc).lock o' = c.lock o' :=
    fun o' hne => Function.update_of_ne hne _ _
  refine ⟨fun o' t' => ?_, fun o' t' => ?_, fun o' => ?_⟩
  · by_cases ho : o' = o
    · subst ho
      by_cases ht : t' = t
      · subst ht
        rw [hlock, hself, hwriter]
      · rw [hlock, hthread t' ht, (hrest t' ht).1, h.writer]
    · by_cases ht : t' = t
      · subst ht
        rw [hlocks o' ho, hself, h.writer, (hother o' ho).1]
      · rw [hlocks o' ho, hthread t' ht, h.writer]
  · by_cases ho : o' = o
    · subst ho
      by_cases ht : t' = t
      · subst ht
        rw [hlock, hself, hreader]
      · rw [hlock, hthread t' ht, (hrest t' ht).2, h.readers]
    · by_cases ht : t' = t
      · subst ht
        rw [hlocks o' ho, hself, h.readers, (hother o' ho).2]
      · rw [hlocks o' ho, hthread t' ht, h.readers]
  · by_cases ho : o' = o
    · subst ho
      rw [hlock]
      exact halone
    · rw [hlocks o' ho]
      exact h.alone o'

/-- The release of a lock by the thread that has taken it exclusively. -/
theorem release (h : c.Locked) {t : T} {o : O} {k : κ} {answer : ω} (hw : (c.thread t).Writes o)
    (hother : ∀ o', o' ≠ o → ¬(c.thread t).Writes o' ∧ ¬(c.thread t).Reads o') :
    ((c.setLock o { c.lock o with writer := none }).goto t (.returning k answer)).Locked := by
  have hwriter := (h.writer o t).2 hw
  have hreaders := h.alone o (by rw [hwriter]; exact Option.some_ne_none _)
  refine h.setLock (fun o' ho => by simpa using hother o' ho)
    (by simp) (by simp [hreaders]) (fun t' ht => ?_) (fun _ => hreaders)
  simp [hwriter, ht.symm]

/-- **The step lemma of the locks.** -/
theorem step {e : Option (T × Mark κ ω)} {c' : Config T M} (h : c.Locked)
    (hs : Step t c e c') : c'.Locked := by
  cases hs with
  | call k hpc => exact h.goto (fun o => by simp [hpc]) rfl rfl
  | reject k answer hpc hm => exact h.goto (fun o => by simp [hpc]) rfl rfl
  | lockShared k body hpc hm hw =>
    refine h.setLock (fun o' ho => by simp [hpc, ho.symm])
      (by simp [hw]) (by simp) (fun t' ht => by simp [ht]) ?_
    exact fun hne => absurd hw hne
  | lock k body hpc hm hw hr =>
    refine h.setLock (fun o' ho => by simp [hpc, ho.symm])
      (by simp) (by simp [hr]) (fun t' ht => by simp [hw, ht.symm])
      (fun _ => hr)
  | read k next hpc => exact h.goto (fun o => by simp [hpc]) rfl rfl
  | unlockShared k answer hpc =>
    have hmem : t ∈ (c.lock (M.object k)).readers := (h.readers _ t).2 (by simp [hpc])
    have hw : (c.lock (M.object k)).writer = none := by
      by_contra hne
      rw [h.alone _ hne] at hmem
      cases hmem
    refine h.setLock (fun o' ho => by simp [hpc, ho.symm])
      (by simp [hw]) (by simp) (fun t' ht => by simp [ht])
      (fun hne => absurd hw hne)
  | access k write next hpc => exact h.goto (fun o => by simp [hpc]) rfl rfl
  | effect k call next hpc => exact h.goto (fun o => by simp [hpc]) rfl rfl
  | accessEnding k write next hpc =>
    exact h.goto (fun o => by simp [hpc]) rfl rfl
  | unlock k answer hpc => exact h.release (by simp [hpc]) fun o' ho => by simp [hpc, ho.symm]
  | unlockEnding k answer hpc => exact h.release (by simp [hpc]) fun o' ho => by simp [hpc, ho.symm]
  | ret k answer hpc => exact h.goto (fun o => by simp [hpc]) rfl rfl

end Locked

end Config
end Foundation
