/-
# What the callers see

A caller knows of a method when it was called and what it returned.  What holds of
the order in which the methods took effect is brought back to that here: a method
that returned has taken effect, and one that took effect was called
(`countP_returned_le`, `countP_effects_le`), and methods called one after the other,
each once the one before it had returned, took effect in that order, whoever called
them (`Linearization.sublist_of_succession`).  What an answer rests on had been called
before it was returned (`Linearization.exists_call_of_ret`).
-/

import GcnPort.Foundation.Linearizable
import Mathlib.Algebra.BigOperators.Group.Finset.Piecewise
import Mathlib.Algebra.Order.BigOperators.Group.Finset

namespace Foundation

variable {κ ω T : Type*}

/-- The method that was called. -/
def Mark.called : Mark κ ω → Option κ
  | .call k => some k
  | .effect _ _ | .ret _ _ => none

/-- The method that returned, and its answer. -/
def Mark.returned : Mark κ ω → Option (κ × ω)
  | .ret k answer => some (k, answer)
  | .call _ | .effect _ _ => none

/-- The methods called, in order. -/
def called (history : List (T × Mark κ ω)) : List κ := history.filterMap fun m => m.2.called

/-- The methods that have returned, in order, with their answers. -/
def returned (history : List (T × Mark κ ω)) : List (κ × ω) :=
  history.filterMap fun m => m.2.returned

/-- Methods with their answers, each called once the one before it had returned.
Each is told by the call of a thread and by what that thread does next. -/
def Succession (history : List (T × Mark κ ω)) : List (κ × ω) → Prop
  | [] => True
  | p :: ps => ∃ t before during after,
    history = before ++ (t, .call p.1) :: (during ++ (t, .ret p.1 p.2) :: after) ∧
      (∀ m ∈ during, m.1 ≠ t) ∧ Succession after ps

/-- Only calls and returns are seen. -/
theorem called_filter_visible (marks : List (T × Mark κ ω)) :
    called (marks.filter fun m => m.2.visible) = called marks := by
  rw [called, called, List.filterMap_filter]
  refine congrArg (List.filterMap · marks) (funext fun m => ?_)
  rcases m with ⟨t, _ | _ | _⟩ <;> rfl

/-- What has returned is seen. -/
theorem returned_filter_visible (marks : List (T × Mark κ ω)) :
    returned (marks.filter fun m => m.2.visible) = returned marks := by
  rw [returned, returned, List.filterMap_filter]
  refine congrArg (List.filterMap · marks) (funext fun m => ?_)
  rcases m with ⟨t, _ | _ | _⟩ <;> rfl

/-- The moments at which methods take effect. -/
theorem mem_effects {p : κ × ω} {marks : List (T × Mark κ ω)} :
    p ∈ effects marks ↔ ∃ t, (t, .effect p.1 p.2) ∈ marks := by
  constructor
  · intro h
    obtain ⟨⟨t, m⟩, hm, ht⟩ := List.mem_filterMap.1 h
    cases m with
    | effect k answer => exact ⟨t, by simpa [← Option.some.inj ht] using hm⟩
    | _ => cases ht
  · rintro ⟨t, h⟩
    exact List.mem_filterMap.2 ⟨_, h, rfl⟩

section

variable {calls : List (κ × ω)} {opened l l' during : List (Mark κ ω)} {k : κ} {answer : ω}

/-- The marks of the first method, and then those of the others. -/
theorem finished_cons (p : κ × ω) (calls : List (κ × ω)) (opened : List (Mark κ ω)) :
    finished (p :: calls) ++ opened =
      .call p.1 :: .effect p.1 p.2 :: .ret p.1 p.2 :: (finished calls ++ opened) := rfl

/-- What a thread has finished has returned. -/
theorem filterMap_returned (ho : Opened opened) :
    (finished calls ++ opened).filterMap Mark.returned = calls := by
  induction calls with
  | nil => cases ho <;> rfl
  | cons p calls ih =>
    rw [finished_cons]
    exact congrArg (p :: ·) ih

/-- What a thread has finished has taken effect, and what it has begun may have. -/
theorem filterMap_taken (calls : List (κ × ω)) (opened : List (Mark κ ω)) :
    (finished calls ++ opened).filterMap Mark.taken = calls ++ opened.filterMap Mark.taken := by
  induction calls with
  | nil => rfl
  | cons p calls ih =>
    rw [finished_cons]
    exact congrArg (p :: ·) ih

/-- What a thread has finished or begun was called. -/
theorem filterMap_called (calls : List (κ × ω)) (opened : List (Mark κ ω)) :
    (finished calls ++ opened).filterMap Mark.called =
      calls.map Prod.fst ++ opened.filterMap Mark.called := by
  induction calls with
  | nil => rfl
  | cons p calls ih =>
    rw [finished_cons]
    exact congrArg (p.1 :: ·) ih

/-- A method takes effect right behind its call, and the thread goes on with its return. -/
theorem call_of_effect (ho : Opened opened)
    (h : finished calls ++ opened = l ++ .effect k answer :: l') :
    (∃ l₀, l = l₀ ++ [.call k]) ∧ ∀ m ∈ l'.head?, m = .ret k answer := by
  induction calls generalizing l with
  | nil =>
    rw [finished, List.flatMap_nil, List.nil_append] at h
    cases ho with
    | idle => simp at h
    | called k' =>
      rcases l with _ | ⟨m, l⟩
      · cases (List.cons.inj h).1
      · simp at h
    | taken k' answer' =>
      rcases l with _ | ⟨m, _ | ⟨m', l⟩⟩
      · cases (List.cons.inj h).1
      · obtain ⟨rfl, h₁⟩ := List.cons.inj h
        obtain ⟨hk, -⟩ := Mark.effect.inj (List.cons.inj h₁).1
        refine ⟨⟨[], by rw [hk]; rfl⟩, ?_⟩
        rw [← (List.cons.inj h₁).2]
        simp
      · simp at h
  | cons p calls ih =>
    rw [finished_cons] at h
    rcases l with _ | ⟨m, _ | ⟨m', _ | ⟨m'', l⟩⟩⟩
    · cases (List.cons.inj h).1
    · obtain ⟨rfl, h₁⟩ := List.cons.inj h
      obtain ⟨hk, ha⟩ := Mark.effect.inj (List.cons.inj h₁).1
      refine ⟨⟨[], by rw [hk]; rfl⟩, ?_⟩
      rw [← (List.cons.inj h₁).2, hk, ha]
      simp
    · cases (List.cons.inj (List.cons.inj (List.cons.inj h).2).2).1
    · obtain ⟨rfl, h₁⟩ := List.cons.inj h
      obtain ⟨rfl, h₂⟩ := List.cons.inj h₁
      obtain ⟨rfl, h₃⟩ := List.cons.inj h₂
      obtain ⟨⟨l₀, rfl⟩, hnext⟩ := ih h₃
      exact ⟨⟨_ :: _ :: _ :: l₀, rfl⟩, hnext⟩

/-- A method returns right behind the moment it takes effect. -/
theorem effect_of_ret (ho : Opened opened)
    (h : finished calls ++ opened = l ++ .ret k answer :: l') :
    ∃ l₀, l = l₀ ++ [.call k, .effect k answer] := by
  induction calls generalizing l with
  | nil =>
    -- a method that has not returned has no return among its marks
    have hmem : .ret k answer ∈ opened := by
      rw [finished, List.flatMap_nil, List.nil_append] at h
      rw [h]
      simp
    cases ho <;> simp at hmem
  | cons p calls ih =>
    rw [finished_cons] at h
    rcases l with _ | ⟨m, _ | ⟨m', _ | ⟨m'', l⟩⟩⟩
    · cases (List.cons.inj h).1
    · cases (List.cons.inj (List.cons.inj h).2).1
    · obtain ⟨rfl, h₁⟩ := List.cons.inj h
      obtain ⟨rfl, h₂⟩ := List.cons.inj h₁
      obtain ⟨hk, ha⟩ := Mark.ret.inj (List.cons.inj h₂).1
      exact ⟨[], by rw [hk, ha]; rfl⟩
    · obtain ⟨rfl, h₁⟩ := List.cons.inj h
      obtain ⟨rfl, h₂⟩ := List.cons.inj h₁
      obtain ⟨rfl, h₃⟩ := List.cons.inj h₂
      obtain ⟨l₀, rfl⟩ := ih h₃
      exact ⟨_ :: _ :: _ :: l₀, rfl⟩

end

section

variable [DecidableEq T]

/-- A count over the marks is a count over those of each thread. -/
theorem countP_filterMap_eq_sum {β : Type*} (f : Mark κ ω → Option β) (p : β → Bool)
    {S : Finset T} {marks : List (T × Mark κ ω)} (hS : ∀ m ∈ marks, m.1 ∈ S) :
    (marks.filterMap fun m => f m.2).countP p =
      ∑ t ∈ S, ((ofThread t marks).filterMap f).countP p := by
  induction marks with
  | nil => simp [ofThread]
  | cons m marks ih =>
    have hm : ∀ t, ((ofThread t (m :: marks)).filterMap f).countP p =
        (if m.1 = t then (f m.2).toList.countP p else 0) +
          ((ofThread t marks).filterMap f).countP p := by
      intro t
      by_cases ht : m.1 = t
      · rw [ofThread, List.filterMap_cons, if_pos ht, if_pos ht, List.filterMap_cons]
        cases f m.2 <;> simp [List.countP_cons, Nat.add_comm, ofThread]
      · rw [ofThread, List.filterMap_cons, if_neg ht, if_neg ht, Nat.zero_add]
        rfl
    rw [Finset.sum_congr rfl fun t _ => hm t, Finset.sum_add_distrib, Finset.sum_ite_eq,
      if_pos (hS m List.mem_cons_self), ← ih fun m' hm' => hS m' (List.mem_cons_of_mem m hm'),
      List.filterMap_cons]
    cases f m.2 <;> simp [List.countP_cons, Nat.add_comm]

/-- The marks of a thread are those with its name. -/
theorem mem_ofThread {t : T} {m : Mark κ ω} {marks : List (T × Mark κ ω)} :
    m ∈ ofThread t marks ↔ (t, m) ∈ marks := by
  simp [ofThread, List.mem_filterMap]

/-- A first mark of the thread is the first of its marks. -/
theorem ofThread_cons_self (t : T) (m : Mark κ ω) (marks : List (T × Mark κ ω)) :
    ofThread t ((t, m) :: marks) = m :: ofThread t marks := by
  simp [ofThread]

/-- The last mark of a thread, and what came behind it. -/
theorem exists_of_ofThread_eq_concat {t : T} {m : Mark κ ω} {l : List (Mark κ ω)}
    {marks : List (T × Mark κ ω)} (h : ofThread t marks = l ++ [m]) :
    ∃ before after, marks = before ++ (t, m) :: after ∧ ofThread t after = [] := by
  obtain ⟨l₁, l₂, rfl, -, h₂⟩ := List.filterMap_eq_append_iff.1 h
  obtain ⟨l₂, ⟨t', m'⟩, l₃, rfl, -, hm, h₃⟩ := List.filterMap_eq_cons_iff.1 h₂
  obtain ⟨rfl, rfl⟩ : t' = t ∧ m' = m := by simpa [Option.ite_none_right_eq_some] using hm
  exact ⟨l₁ ++ l₂, l₃, by simp, h₃⟩

/-- To leave out marks is to leave them out of each thread. -/
theorem ofThread_filter (t : T) (p : Mark κ ω → Bool) (marks : List (T × Mark κ ω)) :
    ofThread t (marks.filter fun m => p m.2) = (ofThread t marks).filter p := by
  rw [ofThread, ofThread, List.filterMap_filter, List.filter_filterMap]
  refine congrArg (List.filterMap · marks) (funext fun m => ?_)
  by_cases ht : m.1 = t <;> simp [ht, Option.filter]

/-- The method that thread `t` has called returns, if it does, with that answer. -/
def ReturnsWith (t : T) (p : κ × ω) (rest : List (T × Mark κ ω)) : Prop :=
  ∀ m ∈ (ofThread t rest).head?, m = .ret p.1 p.2

/-- What other threads do does not matter. -/
theorem ReturnsWith.append {t : T} {p : κ × ω} {marks rest : List (T × Mark κ ω)}
    (hnone : ofThread t marks = []) (h : ReturnsWith t p rest) :
    ReturnsWith t p (marks ++ rest) := by
  rwa [ReturnsWith, ofThread_append, hnone, List.nil_append]

/-- The return is seen. -/
theorem ReturnsWith.filter_visible {t : T} {p : κ × ω} {rest : List (T × Mark κ ω)}
    (h : ReturnsWith t p rest) : ReturnsWith t p (rest.filter fun m => m.2.visible) := by
  intro m hm
  rw [ofThread_filter] at hm
  cases hl : ofThread t rest with
  | nil => simp [hl] at hm
  | cons m' l =>
    obtain rfl : m' = .ret p.1 p.2 := h m' (by rw [hl]; rfl)
    rw [hl, List.filter_cons_of_pos rfl] at hm
    exact (Option.some.inj hm).symm

/-- What is no more for each thread is no more for all of them. -/
theorem countP_filterMap_le {β γ : Type*} {f : Mark κ ω → Option β} {g : Mark κ ω → Option γ}
    {p : β → Bool} {q : γ → Bool} {marks : List (T × Mark κ ω)}
    (h : ∀ t, ((ofThread t marks).filterMap f).countP p ≤
      ((ofThread t marks).filterMap g).countP q) :
    (marks.filterMap fun m => f m.2).countP p ≤ (marks.filterMap fun m => g m.2).countP q := by
  have hS : ∀ m ∈ marks, m.1 ∈ (marks.map Prod.fst).toFinset := fun m hm =>
    List.mem_toFinset.2 (List.mem_map_of_mem hm)
  rw [countP_filterMap_eq_sum f p hS, countP_filterMap_eq_sum g q hS]
  exact Finset.sum_le_sum fun t _ => h t

namespace Linearization

variable {S : Type*} {step : κ → S → ω × S} {s s' : S} {history marks : List (T × Mark κ ω)}

/-- **What has returned has taken effect.** -/
theorem countP_returned_le (h : Linearization step s history marks s') (p : κ × ω → Bool) :
    (returned history).countP p ≤ (effects marks).countP p := by
  rw [← h.visible, returned_filter_visible]
  refine countP_filterMap_le fun t => ?_
  obtain ⟨calls, opened, hmarks, ho⟩ := h.ordered t
  rw [hmarks, filterMap_returned ho, filterMap_taken, List.countP_append]
  exact Nat.le_add_right _ _

/-- What was returned was an answer that a method took effect with. -/
theorem returned_subset (h : Linearization step s history marks s') :
    returned history ⊆ effects marks := by
  classical
  intro p hp
  have hle := h.countP_returned_le fun q => decide (q = p)
  have hpos : 0 < (returned history).countP fun q => decide (q = p) :=
    List.countP_pos_iff.2 ⟨p, hp, decide_eq_true rfl⟩
  obtain ⟨q, hq, heq⟩ := List.countP_pos_iff.1 (hpos.trans_le hle)
  exact of_decide_eq_true heq ▸ hq

/-- An answer with which a method took effect is one that the step gives. -/
theorem exists_step (h : Linearization step s history marks s') {p : κ × ω}
    (hp : p ∈ effects marks) : ∃ s₀, (step p.1 s₀).1 = p.2 :=
  exists_step_of_runAll (congrArg Prod.fst h.sequential) hp

/-- **What took effect was called.** -/
theorem countP_effects_le (h : Linearization step s history marks s') (p : κ → Bool) :
    ((effects marks).map Prod.fst).countP p ≤ (called history).countP p := by
  rw [← h.visible, called_filter_visible, List.countP_map]
  refine countP_filterMap_le fun t => ?_
  obtain ⟨calls, opened, hmarks, ho⟩ := h.ordered t
  rw [hmarks, filterMap_called, filterMap_taken, List.countP_append, List.countP_append,
    List.countP_map]
  refine Nat.add_le_add_left ?_ _
  cases ho with
  | idle => exact Nat.zero_le _
  | called k => exact Nat.zero_le _
  | taken k answer => exact le_rfl

/-- There are no more answers of a kind than calls that can be given them. -/
theorem countP_answers_le (h : Linearization step s history marks s') {p : ω → Bool}
    {q : κ → Bool} (hpq : ∀ k s, p (step k s).1 = true → q k = true) :
    ((effects marks).map Prod.snd).countP p ≤ (called history).countP q := by
  have hle := countP_runAll_le hpq ((effects marks).map Prod.fst) s
  rw [h.sequential] at hle
  exact hle.trans (h.countP_effects_le q)

/-- **Methods that followed one another took effect in that order.** -/
theorem sublist_of_succession (h : Linearization step s history marks s') {ps : List (κ × ω)}
    (hps : Succession history ps) : ps.Sublist (effects marks) := by
  suffices hsuffix : ∀ ps past rest, marks = past ++ rest →
      Succession (rest.filter fun m => m.2.visible) ps → ps.Sublist (effects rest) from
    hsuffix ps [] marks rfl (h.visible ▸ hps)
  intro ps
  induction ps with
  | nil => exact fun _ _ _ _ => List.nil_sublist _
  | cons p ps ih =>
    rintro past rest hrest ⟨t, before, during, after, hseen, -, hps⟩
    obtain ⟨m₁, m, rfl, -, hm⟩ := List.filter_eq_append_iff.1 hseen
    obtain ⟨m₂, m, rfl, -, -, hm⟩ := List.filter_eq_cons_iff.1 hm
    obtain ⟨m₃, m, rfl, -, hm⟩ := List.filter_eq_append_iff.1 hm
    obtain ⟨m₄, m, rfl, -, -, rfl⟩ := List.filter_eq_cons_iff.1 hm
    obtain ⟨calls, opened, hmarks, ho⟩ := h.ordered t
    have hsplit : finished calls ++ opened = (ofThread t (past ++ (m₁ ++ m₂)) ++
        .call p.1 :: ofThread t (m₃ ++ m₄)) ++ .ret p.1 p.2 :: ofThread t m := by
      rw [← hmarks, hrest]
      simp [ofThread_append, ofThread_cons_self]
    -- the moment is right before the return, and so behind the call
    obtain ⟨l₀, hl₀⟩ := effect_of_ret ho hsplit
    have htaken : p ∈ effects (m₃ ++ m₄) := by
      refine mem_effects.2 ⟨t, mem_ofThread.1 ?_⟩
      have hlast := congrArg List.getLast? hl₀
      rw [List.getLast?_append_cons, List.getLast?_append_cons] at hlast
      simpa using List.mem_of_getLast? hlast
    have hrest' := ih (past ++ m₁ ++ m₂ ++ (t, .call p.1) :: (m₃ ++ m₄) ++ [(t, .ret p.1 p.2)])
      m (by rw [hrest]; simp) hps
    have heffects : effects (m₁ ++ (m₂ ++ (t, Mark.call p.1) :: (m₃ ++ (m₄ ++
        (t, Mark.ret p.1 p.2) :: m)))) =
          effects (m₁ ++ m₂) ++ (effects (m₃ ++ m₄) ++ effects m) := by
      simp [effects, Mark.taken]
    rw [heffects]
    refine List.Sublist.trans ?_ (List.sublist_append_right _ _)
    exact (List.singleton_sublist.2 htaken).append hrest'

/-- A method that returned had taken effect before. -/
theorem exists_effect_of_ret (h : Linearization step s history marks s')
    {past rest : List (T × Mark κ ω)} {t : T} {k : κ} {answer : ω}
    (hmarks : marks = past ++ (t, .ret k answer) :: rest) :
    ∃ before after, past = before ++ (t, .effect k answer) :: after := by
  obtain ⟨calls, opened, hthread, ho⟩ := h.ordered t
  have hsplit : finished calls ++ opened = ofThread t past ++ .ret k answer :: ofThread t rest := by
    rw [← hthread, hmarks, ofThread_append, ofThread_cons_self]
  obtain ⟨l₀, hl₀⟩ := effect_of_ret ho hsplit
  refine List.append_of_mem (mem_ofThread.1 ?_)
  rw [hl₀]
  simp

/-- A method that took effect had been called before, and returns with that answer. -/
theorem exists_call_of_effect (h : Linearization step s history marks s')
    {past rest : List (T × Mark κ ω)} {t : T} {p : κ × ω}
    (hmarks : marks = past ++ (t, .effect p.1 p.2) :: rest) :
    ∃ before after, past = before ++ (t, .call p.1) :: after ∧ ofThread t after = [] ∧
      ReturnsWith t p rest := by
  obtain ⟨calls, opened, hthread, ho⟩ := h.ordered t
  have hsplit : finished calls ++ opened =
      ofThread t past ++ .effect p.1 p.2 :: ofThread t rest := by
    rw [← hthread, hmarks, ofThread_append, ofThread_cons_self]
  obtain ⟨⟨l₀, hl₀⟩, hnext⟩ := call_of_effect ho hsplit
  obtain ⟨before, after, hpast, hnone⟩ := exists_of_ofThread_eq_concat hl₀
  exact ⟨before, after, hpast, hnone, hnext⟩

/-- **An answer rests on methods that had been called.**  What took effect before a
method that returned had been called before that return, and returns, if it does, with
the answer it had when it took effect. -/
theorem exists_call_of_ret (h : Linearization step s history marks s')
    {before after : List (T × Mark κ ω)} {t : T} {k : κ} {answer : ω}
    (hret : history = before ++ (t, .ret k answer) :: after) :
    ∃ past rest, effects marks = past ++ (k, answer) :: rest ∧ ∀ p ∈ past,
      ∃ t' l m, before = l ++ (t', .call p.1) :: m ∧
        ReturnsWith t' p (m ++ (t, .ret k answer) :: after) := by
  obtain ⟨m₁, m, hmarks, rfl, hm⟩ := List.filter_eq_append_iff.1 (h.visible.trans hret)
  obtain ⟨m₂, m₃, rfl, hm₂, -, rfl⟩ := List.filter_eq_cons_iff.1 hm
  have hunseen : m₂.filter (fun m => m.2.visible) = [] := by simpa using hm₂
  have hbefore : m₁.filter (fun m => m.2.visible) = (m₁ ++ m₂).filter (fun m => m.2.visible) := by
    rw [List.filter_append, hunseen, List.append_nil]
  rw [← List.append_assoc] at hmarks
  obtain ⟨a, b, hab⟩ := h.exists_effect_of_ret hmarks
  rw [hab, List.append_assoc] at hmarks
  refine ⟨effects a, effects (b ++ (t, .ret k answer) :: m₃), ?_, fun p hp => ?_⟩
  · simp [hmarks, effects, Mark.taken]
  · obtain ⟨t', hmem⟩ := mem_effects.1 hp
    obtain ⟨c, d, rfl⟩ := List.append_of_mem hmem
    rw [List.append_assoc] at hmarks
    obtain ⟨e, f, rfl, hf, hnext⟩ := h.exists_call_of_effect hmarks
    refine ⟨t', e.filter (fun m => m.2.visible), (f ++ d ++ b).filter (fun m => m.2.visible),
      ?_, ?_⟩
    · rw [hbefore, hab]
      simp [Mark.visible]
    · -- what is seen behind the call is what comes behind the moment
      have hrest : (f ++ d ++ b).filter (fun m => m.2.visible) ++
          (t, .ret k answer) :: m₃.filter (fun m => m.2.visible) =
            f.filter (fun m => m.2.visible) ++ (d ++ (t, .effect k answer) ::
              (b ++ (t, .ret k answer) :: m₃)).filter fun m => m.2.visible := by
        simp [Mark.visible]
      rw [hrest]
      refine ReturnsWith.append ?_ (by simpa using hnext.filter_visible)
      rw [ofThread_filter, hf, List.filter_nil]

end Linearization

/-- The method that a step of a schedule calls. -/
def Act.callee : Act T κ → Option κ
  | .call _ k => some k
  | .turn _ => none

namespace Config

variable {O : Type*} {σ : O → Type*} {ι ε : Type*} {M : Objects σ ι ε κ ω} [DecidableEq O]

/-- A thread whose turn it is calls nothing. -/
theorem turn_ne_call (t t' : T) (k : κ) (c : Config T M) : (c.turn t).1 ≠ some (t', .call k) := by
  rcases turn_cases t c with ⟨-, hturn⟩ | hs
  · simp [hturn]
  · by_cases hidle : c.thread t = .idle
    · simp [turn_of_idle hidle]
    · generalize (c.turn t).1 = e at hs
      generalize (c.turn t).2 = c' at hs
      cases hs with
      | call k' h => exact absurd h hidle
      | _ => simp

/-- A method that was called was called by the schedule. -/
theorem called_history_sublist (schedule : List (Act T κ)) (c : Config T M) :
    (called (c.history schedule)).Sublist (schedule.filterMap Act.callee) := by
  induction schedule generalizing c with
  | nil => exact List.Sublist.slnil
  | cons a schedule ih =>
    have hhistory : c.history (a :: schedule) =
        (c.act a).1.toList ++ (c.act a).2.history schedule := by
      rw [history, runAll_cons, ← List.singleton_append, List.reduceOption_append,
        List.reduceOption_singleton]
      rfl
    have hseen : (called (c.act a).1.toList).Sublist a.callee.toList := by
      cases a with
      | call t k =>
        cases h : c.thread t <;> simp [act, h, called, Mark.called, Act.callee]
      | turn t =>
        rw [act]
        rcases h : (c.turn t).1 with _ | ⟨t', k | _ | _⟩
        · exact List.nil_sublist _
        · exact absurd h (turn_ne_call t t' k c)
        · exact List.nil_sublist _
        · exact List.nil_sublist _
    rw [hhistory, called, List.filterMap_append]
    refine (hseen.append (ih _)).trans ?_
    cases h : a.callee <;> simp [h]

end Config

end

end Foundation
