/-
# Methods that take effect at once

Threads that call guarded objects see what they would see if each method took
effect at one moment between its call and its return, with nothing else running:
`linearizable`.  The moment is the call of the collaborator, or the release of the
lock where there is none.  Until then the members are on their way from what they
were when the lock was taken, and from then on to what the method leaves them
(`Pc.Open`); in between no other thread is at the object (`Locked`).

The history of a schedule is a list of marks, and the moments are further marks put
between them.  So the order of the moments respects what has returned before what
was called.
-/

import GcnPort.Foundation.Threads
import Mathlib.Data.List.ReduceOption

namespace Foundation

variable {O : Type*} {σ : O → Type*} {ι ε κ ω T : Type*}

/-- A call or a return. -/
def Mark.visible : Mark κ ω → Bool
  | .call _ | .ret _ _ => true
  | .effect _ _ => false

/-- The method that takes effect, and its answer. -/
def Mark.taken : Mark κ ω → Option (κ × ω)
  | .effect k answer => some (k, answer)
  | .call _ | .ret _ _ => none

/-- The methods that take effect, in order, with their answers. -/
def effects (marks : List (T × Mark κ ω)) : List (κ × ω) := marks.filterMap fun m => m.2.taken

/-- The marks of methods that a thread has called and that have returned, one after
the other. -/
def finished (calls : List (κ × ω)) : List (Mark κ ω) :=
  calls.flatMap fun p => [.call p.1, .effect p.1 p.2, .ret p.1 p.2]

/-- The marks of a method that has not returned, or none. -/
inductive Opened : List (Mark κ ω) → Prop
  | idle : Opened []
  | called (k : κ) : Opened [.call k]
  | taken (k : κ) (answer : ω) : Opened [.call k, .effect k answer]

section

variable [DecidableEq T]

/-- The marks of one thread. -/
def ofThread (t : T) (marks : List (T × Mark κ ω)) : List (Mark κ ω) :=
  marks.filterMap fun m => if m.1 = t then some m.2 else none

/-- The marks of a thread, of one list after the other. -/
@[simp] theorem ofThread_append (t : T) (marks marks' : List (T × Mark κ ω)) :
    ofThread t (marks ++ marks') = ofThread t marks ++ ofThread t marks' :=
  List.filterMap_append

/-- **The marks explain the history.**  They are the history with the moments put in
between, each thread has called one method after the other, each of which has taken
effect before it returned, with the answer it returned, and the methods that took
effect are a run of `step`, from `s` to `s'`. -/
structure Linearization {S : Type*} (step : κ → S → ω × S) (s : S)
    (history marks : List (T × Mark κ ω)) (s' : S) : Prop where
  visible : marks.filter (fun m => m.2.visible) = history
  sequential : runAll step ((effects marks).map Prod.fst) s = ((effects marks).map Prod.snd, s')
  ordered : ∀ t, ∃ calls opened, ofThread t marks = finished calls ++ opened ∧ Opened opened

/-- The methods that took effect are a run of whatever `step'` simulates. -/
theorem Linearization.of_simulates {S S' : Type*} {step : κ → S → ω × S} {step' : κ → S' → ω × S'}
    {f : S → S'} (hf : ∀ k s, step' k (f s) = ((step k s).1, f (step k s).2)) {s : S} {s' : S'}
    {history marks : List (T × Mark κ ω)} (h : Linearization step' (f s) history marks s') :
    ∃ s'', s' = f s'' ∧ Linearization step s history marks s'' := by
  have hsequential := h.sequential
  rw [runAll_simulates hf] at hsequential
  obtain ⟨hanswers, rfl⟩ := Prod.mk.inj hsequential
  exact ⟨_, rfl, h.visible, Prod.ext hanswers rfl, h.ordered⟩

end

/-- What a thread at `pc` has made of its method, where the methods that took effect
have led to `spec` and the members are `members`. -/
def Pc.Open {M : Objects σ ι ε κ ω} (spec members : (o : O) → σ o) :
    Pc M → List (Mark κ ω) → Prop
  | .idle, opened => opened = []
  | .called k, opened => opened = [.call k]
  | .reading k rest, opened => opened = [.call k] ∧ ∀ i,
      (M.method k).run (spec (M.object k)) i =
        (rest.run (members (M.object k)), spec (M.object k), i)
  | .working k rest, opened => opened = [.call k] ∧ ∀ i,
      (M.method k).run (spec (M.object k)) i = rest.run (members (M.object k)) i
  | .ending k rest, opened => ∃ answer, opened = [.call k, .effect k answer] ∧
      rest.run (members (M.object k)) = (answer, spec (M.object k))
  | .returning k answer, opened => opened = [.call k, .effect k answer]

namespace Pc

variable {M : Objects σ ι ε κ ω} {spec spec' members members' : (o : O) → σ o}
  {opened : List (Mark κ ω)} {pc : Pc M}

/-- What a thread has begun, it has at most begun. -/
theorem Open.isOpened (h : pc.Open spec members opened) : Opened opened := by
  cases pc with
  | idle => exact h ▸ .idle
  | called k => exact h ▸ .called k
  | reading k rest => exact h.1 ▸ .called k
  | working k rest => exact h.1 ▸ .called k
  | ending k rest =>
    obtain ⟨answer, rfl, -⟩ := h
    exact .taken k answer
  | returning k answer => exact h ▸ .taken k answer

/-- A thread does not see what happens to objects it is not at. -/
theorem Open.congr (h : pc.Open spec members opened)
    (hin : ∀ o, pc.Writes o ∨ pc.Reads o → spec' o = spec o ∧ members' o = members o) :
    pc.Open spec' members' opened := by
  cases pc with
  | idle => exact h
  | called k => exact h
  | reading k rest =>
    obtain ⟨hspec, hmembers⟩ := hin (M.object k) (.inr rfl)
    rw [Open, hspec, hmembers]
    exact h
  | working k rest =>
    obtain ⟨hspec, hmembers⟩ := hin (M.object k) (.inl rfl)
    rw [Open, hspec, hmembers]
    exact h
  | ending k rest =>
    obtain ⟨hspec, hmembers⟩ := hin (M.object k) (.inl rfl)
    rw [Open, hspec, hmembers]
    exact h
  | returning k answer => exact h

end Pc

section

variable [DecidableEq T] [DecidableEq O] {M : Objects σ ι ε κ ω}

/-- A method, from what it does to its own object. -/
theorem step_eq {k : κ} {w : World σ ι} {answer : ω} {s : σ (M.object k)} {i : ι}
    {members : (o : O) → σ o}
    (hrun : (M.method k).run (w.members (M.object k)) w.collaborator = (answer, s, i))
    (hmembers : Function.update w.members (M.object k) s = members) :
    M.step k w = (answer, ⟨members, i⟩) := by
  rw [Objects.step, hrun, ← hmembers]

/-- One method is a run of its own. -/
theorem runAll_singleton {k : κ} {w w' : World σ ι} {answer : ω}
    (h : M.step k w = (answer, w')) : runAll M.step [k] w = ([answer], w') := by
  rw [runAll_cons, h, runAll_nil]

/-- The marks explain how the threads got where they are. -/
structure Explains (w : World σ ι) (c : Config T M) (history marks : List (T × Mark κ ω))
    (spec : (o : O) → σ o) : Prop where
  visible : marks.filter (fun m => m.2.visible) = history
  sequential : runAll M.step ((effects marks).map Prod.fst) w =
    ((effects marks).map Prod.snd, ⟨spec, c.collaborator⟩)
  free : ∀ o, (∀ t, ¬(c.thread t).Writes o) → spec o = c.members o
  threads : ∀ t, ∃ calls opened, ofThread t marks = finished calls ++ opened ∧
    (c.thread t).Open spec c.members opened

namespace Explains

variable {w : World σ ι} {c c' : Config T M} {history marks : List (T × Mark κ ω)}
  {spec : (o : O) → σ o} {t : T}

/-- Before any call there is nothing to explain. -/
theorem start (w : World σ ι) : Explains w (Config.start M T w) [] [] w.members :=
  ⟨rfl, rfl, fun _ _ => rfl, fun _ => ⟨[], [], rfl, rfl⟩⟩

/-- A step of a thread, with the mark it leaves. -/
theorem move (h : Explains w c history marks spec) (hl : c.Locked) (t : T) (pc : Pc M)
    (spec' : (o : O) → σ o) (m : Option (Mark κ ω)) {e : Option (T × Mark κ ω)}
    (ht : c'.thread = Function.update c.thread t pc)
    (hvisible : (m.toList.map (Prod.mk t)).filter (fun m => m.2.visible) = e.toList)
    (hsequential : runAll M.step ((m.bind Mark.taken).toList.map Prod.fst) ⟨spec, c.collaborator⟩ =
      ((m.bind Mark.taken).toList.map Prod.snd, ⟨spec', c'.collaborator⟩))
    (hother : ∀ o, ¬(c.thread t).Writes o → spec' o = spec o ∧ c'.members o = c.members o)
    (hfree : ∀ o, ¬pc.Writes o → (c.thread t).Writes o → spec' o = c'.members o)
    (hself : ∀ opened, (c.thread t).Open spec c.members opened →
      ∃ calls opened', opened ++ m.toList = finished calls ++ opened' ∧
        pc.Open spec' c'.members opened') :
    ∃ marks' spec'', Explains w c' (history ++ e.toList) marks' spec'' := by
  refine ⟨marks ++ m.toList.map (Prod.mk t), spec', ?_, ?_, fun o hfreed => ?_, fun t' => ?_⟩
  · rw [List.filter_append, h.visible, hvisible]
  · have heffects : effects (marks ++ m.toList.map (Prod.mk t)) =
        effects marks ++ (m.bind Mark.taken).toList := by
      rw [effects, List.filterMap_append]
      cases m with
      | none => rfl
      | some m => cases m <;> rfl
    rw [heffects, List.map_append, List.map_append, runAll_append, h.sequential, hsequential]
  · have hpc : ¬pc.Writes o := by simpa [ht] using hfreed t
    by_cases hw : (c.thread t).Writes o
    · exact hfree o hpc hw
    · obtain ⟨hspec, hmembers⟩ := hother o hw
      rw [hspec, hmembers]
      refine h.free o fun t' => ?_
      by_cases heq : t' = t
      · exact heq ▸ hw
      · have := hfreed t'
        rwa [ht, Function.update_of_ne heq] at this
  · obtain ⟨calls, opened, hmarks, hopen⟩ := h.threads t'
    rw [ofThread_append, hmarks, ht]
    by_cases heq : t' = t
    · subst heq
      obtain ⟨calls', opened', heq, hopen'⟩ := hself opened hopen
      have hm : ofThread t' (m.toList.map (Prod.mk t')) = m.toList := by
        cases m <;> simp [ofThread]
      refine ⟨calls ++ calls', opened', ?_, by rwa [Function.update_self]⟩
      rw [hm, List.append_assoc, heq, finished, finished, finished, List.flatMap_append,
        List.append_assoc]
    · have hm : ofThread t' (m.toList.map (Prod.mk t)) = [] := by
        cases m <;> simp [ofThread, Ne.symm heq]
      rw [hm, List.append_nil, Function.update_of_ne heq]
      refine ⟨calls, opened, rfl, hopen.congr fun o hin => hother o fun hw => heq ?_⟩
      exact hl.eq_of_writes hw hin

/-- **The step lemma.** -/
theorem step (h : Explains w c history marks spec) (hl : c.Locked)
    {e : Option (T × Mark κ ω)} (hs : Config.Step t c e c') :
    ∃ marks' spec', Explains w c' (history ++ e.toList) marks' spec' := by
  cases hs with
  | call k hpc =>
    refine h.move hl t (.called k) spec (some (.call k)) rfl rfl rfl (fun _ _ => ⟨rfl, rfl⟩)
      (by simp [hpc]) ?_
    rw [hpc]
    rintro _ rfl
    exact ⟨[], [.call k], rfl, rfl⟩
  | reject k answer hpc hm =>
    have hstep : M.step k ⟨spec, c.collaborator⟩ = (answer, ⟨spec, c.collaborator⟩) :=
      step_eq (by rw [hm]; rfl) (Function.update_eq_self ..)
    refine h.move hl t (.returning k answer) spec (some (.effect k answer)) rfl rfl
      (runAll_singleton hstep) (fun _ _ => ⟨rfl, rfl⟩) (by simp [hpc]) ?_
    rw [hpc]
    rintro _ rfl
    exact ⟨[], [.call k, .effect k answer], rfl, rfl⟩
  | lockShared k body hpc hm hw =>
    have hspec : spec (M.object k) = c.members (M.object k) :=
      h.free _ fun t' ht' => by simp [(hl.writer _ t').2 ht'] at hw
    refine h.move hl t (.reading k body) spec none rfl rfl rfl (fun _ _ => ⟨rfl, rfl⟩)
      (by simp [hpc]) ?_
    rw [hpc]
    rintro _ rfl
    refine ⟨[], [.call k], rfl, rfl, fun i => ?_⟩
    rw [hm, hspec]
    rfl
  | lock k body hpc hm hw hr =>
    have hspec : spec (M.object k) = c.members (M.object k) :=
      h.free _ fun t' ht' => by simp [(hl.writer _ t').2 ht'] at hw
    refine h.move hl t (.working k body) spec none rfl rfl rfl (fun _ _ => ⟨rfl, rfl⟩)
      (by simp [hpc]) ?_
    rw [hpc]
    rintro _ rfl
    refine ⟨[], [.call k], rfl, rfl, fun i => ?_⟩
    rw [hm, hspec]
    rfl
  | read k next hpc =>
    refine h.move hl t (.reading k (next (c.members (M.object k)))) spec none rfl rfl rfl
      (fun _ _ => ⟨rfl, rfl⟩) (by simp [hpc]) ?_
    rw [hpc]
    rintro _ ⟨rfl, hrun⟩
    exact ⟨[], [.call k], rfl, rfl, hrun⟩
  | unlockShared k answer hpc =>
    obtain ⟨-, opened, -, hopen⟩ := h.threads t
    rw [hpc] at hopen
    have hstep : M.step k ⟨spec, c.collaborator⟩ = (answer, ⟨spec, c.collaborator⟩) :=
      step_eq (hopen.2 _) (Function.update_eq_self ..)
    refine h.move hl t (.returning k answer) spec (some (.effect k answer)) rfl rfl
      (runAll_singleton hstep) (fun _ _ => ⟨rfl, rfl⟩) (by simp [hpc]) ?_
    rw [hpc]
    rintro _ ⟨rfl, -⟩
    exact ⟨[], [.call k, .effect k answer], rfl, rfl⟩
  | access k write next hpc =>
    refine h.move hl t (.working k (next (c.members (M.object k)))) spec none rfl rfl rfl
      (fun o ho => ⟨rfl, Function.update_of_ne (fun heq => ho (by simp [hpc, heq])) _ _⟩)
      (fun o ho hw => absurd (by simpa [hpc] using hw) ho) ?_
    rw [hpc]
    rintro _ ⟨rfl, hrun⟩
    refine ⟨[], [.call k], rfl, rfl, fun i => ?_⟩
    rw [hrun i]
    change _ = Body.run _ (Function.update c.members (M.object k) _ (M.object k)) i
    rw [Function.update_self]
    rfl
  | effect k call next hpc =>
    obtain ⟨-, opened, -, hopen⟩ := h.threads t
    rw [hpc] at hopen
    rcases hrest : (next (call c.collaborator).1).run (c.members (M.object k)) with ⟨answer, s⟩
    have hrun := hopen.2 c.collaborator
    rw [Body.run, hrest] at hrun
    have hstep : M.step k ⟨spec, c.collaborator⟩ =
        (answer, ⟨Function.update spec (M.object k) s, (call c.collaborator).2⟩) := step_eq hrun rfl
    refine h.move hl t (.ending k (next (call c.collaborator).1))
      (Function.update spec (M.object k) s) (some (.effect k answer)) rfl rfl
      (runAll_singleton hstep)
      (fun o ho => ⟨Function.update_of_ne (fun heq => ho (by simp [hpc, heq])) _ _, rfl⟩)
      (fun o ho hw => absurd (by simpa [hpc] using hw) ho) ?_
    rw [hpc]
    rintro _ ⟨rfl, -⟩
    refine ⟨[], [.call k, .effect k answer], rfl, answer, rfl, ?_⟩
    rw [Function.update_self]
    exact hrest
  | accessEnding k write next hpc =>
    refine h.move hl t (.ending k (next (c.members (M.object k)))) spec none rfl rfl rfl
      (fun o ho => ⟨rfl, Function.update_of_ne (fun heq => ho (by simp [hpc, heq])) _ _⟩)
      (fun o ho hw => absurd (by simpa [hpc] using hw) ho) ?_
    rw [hpc]
    rintro _ ⟨answer, rfl, hrun⟩
    refine ⟨[], [.call k, .effect k answer], rfl, answer, rfl, ?_⟩
    change Ending.run _ (Function.update c.members (M.object k) _ (M.object k)) = _
    rw [Function.update_self]
    exact hrun
  | unlock k answer hpc =>
    obtain ⟨-, opened, -, hopen⟩ := h.threads t
    rw [hpc] at hopen
    have hstep : M.step k ⟨spec, c.collaborator⟩ = (answer,
        ⟨Function.update spec (M.object k) (c.members (M.object k)), c.collaborator⟩) :=
      step_eq (hopen.2 _) rfl
    refine h.move hl t (.returning k answer)
      (Function.update spec (M.object k) (c.members (M.object k))) (some (.effect k answer)) rfl rfl
      (runAll_singleton hstep)
      (fun o ho => ⟨Function.update_of_ne (fun heq => ho (by simp [hpc, heq])) _ _, rfl⟩)
      (fun o _ hw => ?_) ?_
    · obtain rfl : M.object k = o := by simpa [hpc] using hw
      exact Function.update_self ..
    · rw [hpc]
      rintro _ ⟨rfl, -⟩
      exact ⟨[], [.call k, .effect k answer], rfl, rfl⟩
  | unlockEnding k answer hpc =>
    obtain ⟨-, opened, -, hopen⟩ := h.threads t
    rw [hpc] at hopen
    obtain ⟨answer', -, hrun⟩ := hopen
    refine h.move hl t (.returning k answer) spec none rfl rfl rfl (fun _ _ => ⟨rfl, rfl⟩)
      (fun o _ hw => ?_) ?_
    · obtain rfl : M.object k = o := by simpa [hpc] using hw
      exact (congrArg Prod.snd hrun).symm
    · rw [hpc]
      rintro _ ⟨answer'', rfl, hrun'⟩
      obtain rfl : answer = answer'' := congrArg Prod.fst hrun'
      exact ⟨[], [.call k, .effect k answer], rfl, rfl⟩
  | ret k answer hpc =>
    refine h.move hl t .idle spec (some (.ret k answer)) rfl rfl rfl (fun _ _ => ⟨rfl, rfl⟩)
      (by simp [hpc]) ?_
    rw [hpc]
    rintro _ rfl
    exact ⟨[(k, answer)], [], rfl, rfl⟩

end Explains

/-- **Every schedule can be explained.** -/
theorem exists_explains (w : World σ ι) (schedule : List (Act T κ)) :
    ((Config.start M T w).after schedule).Locked ∧ ∃ marks spec,
      Explains w ((Config.start M T w).after schedule)
        ((Config.start M T w).history schedule) marks spec := by
  refine runAll_preserves_log (I := fun log c => Config.Locked c ∧ ∃ marks spec,
    Explains w c log.reduceOption marks spec) (fun a log c h => ?_) schedule
    ⟨.start M T w, [], _, .start w⟩
  obtain ⟨hl, marks, spec, h⟩ := h
  rcases c.act_cases a with hnone | ⟨t, hs⟩
  · rw [hnone]
    refine ⟨hl, marks, spec, ?_⟩
    rwa [List.reduceOption_append, List.reduceOption_singleton, Option.toList_none,
      List.append_nil]
  · refine ⟨hl.step hs, ?_⟩
    rw [List.reduceOption_append, List.reduceOption_singleton]
    exact h.step hl hs

/-- **Linearizability.**  Whatever the schedule, the history is one in which each
method takes effect at one moment between its call and its return, and the methods
take effect one after the other; once all threads have returned, the members and the
collaborator are what that leaves. -/
theorem linearizable (w : World σ ι) (schedule : List (Act T κ)) :
    ∃ marks w', Linearization M.step w ((Config.start M T w).history schedule) marks w' ∧
      ((∀ t, ((Config.start M T w).after schedule).thread t = .idle) →
        ((Config.start M T w).after schedule).toWorld = w') := by
  obtain ⟨-, marks, spec, h⟩ := exists_explains (M := M) w schedule
  refine ⟨marks, _, ⟨h.visible, h.sequential, fun t => ?_⟩, fun hidle => ?_⟩
  · obtain ⟨calls, opened, hmarks, hopen⟩ := h.threads t
    exact ⟨calls, opened, hmarks, hopen.isOpened⟩
  · ext1
    · funext o
      exact (h.free o fun t => by simp [hidle t]).symm
    · rfl

end

end Foundation
