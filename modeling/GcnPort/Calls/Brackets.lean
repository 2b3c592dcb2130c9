/-
# Every original call is bracketed by invalidations

`runEffects` is a history of calls with the effects of each.  What the history
so far put into the table is `keysAfter`, and by `accounted` every call follows
`Bracket` there (`accounted_run`): the rest is about logs that do, whatever
wrote them.  A ticket that is in the table leaves it behind an invalidation of
its address (`invalidated_of_ends`), and the next one at that address enters
behind another (`two_le_countP_invalidated`).
-/

import GcnPort.Calls.Effects
import GcnPort.Calls.Tickets

namespace GcnPort
namespace Calls

open Execution Foundation Hooks

namespace Effect

/-- An invalidation of `a`, whether or not it returned. -/
def invalidates (a : GuestAddress) : Effect → Bool
  | .invalidate address _ => address = a
  | _ => false

/-- An invalidation of `a` that returned. -/
def invalidated (a : GuestAddress) : Effect → Bool
  | .invalidate address completed => address = a && completed
  | _ => false

/-- A ticket at `a` leaves the table. -/
def leavesAt (a : GuestAddress) : Effect → Bool
  | .leave _ key => key.address = a
  | _ => false

end Effect

/-- A history of calls, with the effects of each. -/
abbrev EffectLog := List (TicketEvent × List Effect)

namespace EffectLog

/-- The effects of a history, in order. -/
def effects (log : EffectLog) : List Effect := log.flatMap Prod.snd

/-- The keys of the tickets that entered and have not left. -/
def keysAfter (log : EffectLog) : OriginalCallTicket → Option HookKey :=
  replay log.effects fun _ => none

/-- A `begin` that returned, with a key at `a`. -/
def beginsAt (a : GuestAddress) : TicketEvent × List Effect → Bool
  | (.begin key (.ok _), _) => key.address = a
  | _ => false

/-- A `complete` that returned, of a ticket at `a`. -/
def completesAt (a : GuestAddress) : TicketEvent × List Effect → Bool
  | (.complete _ (.ok ()), effects) => effects.any (Effect.leavesAt a)
  | _ => false

/-- A `cancel` that returned and took a ticket at `a` out of the table. -/
def cancelsAt (a : GuestAddress) : TicketEvent × List Effect → Bool
  | (.cancel _ (.ok ()), effects) => effects.any (Effect.leavesAt a)
  | _ => false

/-- Every call of the history follows the account. -/
abbrev Accounted (log : EffectLog) : Prop :=
  EveryPrefix (fun before x => Bracket (keysAfter before) x.1 x.2) log

/-- Nothing has been done yet. -/
@[simp] theorem effects_nil : effects [] = [] := rfl

/-- The effects of two histories, one after the other. -/
@[simp] theorem effects_append (log log' : EffectLog) :
    effects (log ++ log') = log.effects ++ log'.effects :=
  List.flatMap_append

/-- The effects of a call come before those of the calls behind it. -/
@[simp] theorem effects_cons (x : TicketEvent × List Effect) (log : EffectLog) :
    effects (x :: log) = x.2 ++ log.effects := rfl

/-- The keys after one more call. -/
theorem keysAfter_concat (log : EffectLog) (x : TicketEvent × List Effect) :
    keysAfter (log ++ [x]) = replay x.2 log.keysAfter := by
  rw [keysAfter, effects_append, replay, List.foldl_append, effects_cons, effects_nil,
    List.append_nil]
  rfl

end EffectLog

namespace OriginalCallCoordinator

variable {ι : Type*}

/-- One call, with its effects. -/
def stepEffects (V : CodeInvalidator ι) (call : TicketCall) (c : OriginalCallCoordinator ι) :
    (TicketEvent × List Effect) × OriginalCallCoordinator ι :=
  let (event, c') := c.step V call
  ((event, c.effects V call), c')

/-- The coordinator after a history of calls, with the log of the history and
its effects. -/
def runEffects (V : CodeInvalidator ι) (calls : List TicketCall) (i : ι) :
    EffectLog × OriginalCallCoordinator ι :=
  runAll (stepEffects V) calls (new i)

/-- Effects one after another. -/
theorem invalidates_append {V : CodeInvalidator ι} {effects effects' : List Effect} {i i' i'' : ι}
    (h : Invalidates V effects i i') (h' : Invalidates V effects' i' i'') :
    Invalidates V (effects ++ effects') i i'' := by
  induction effects generalizing i with
  | nil =>
    obtain rfl : i' = i := h
    exact h'
  | cons effect effects ih =>
    cases effect with
    | invalidate address completed => exact ⟨h.1, ih h.2⟩
    | enter t key => exact ih (i := i) h
    | leave t key => exact ih (i := i) h

/-- The entries of a history follow the account, the table holds what entered
and has not left, and the invalidator was asked for the invalidations of the
history, from state `i` on. -/
structure AccountedRun (V : CodeInvalidator ι) (i : ι) (log : EffectLog)
    (c : OriginalCallCoordinator ι) : Prop where
  account : log.Accounted
  keys : c.keys = log.keysAfter
  invalidator : Invalidates V log.effects i c.invalidator

/-- **The run lemma.**  Every history follows the account. -/
theorem accounted_run (V : CodeInvalidator ι) (calls : List TicketCall) (i : ι) :
    AccountedRun V i (runEffects V calls i).1 (runEffects V calls i).2 := by
  refine runAll_preserves_log (I := AccountedRun V i) ?_ calls ?_
  · rintro call log c ⟨hlog, hkeys, hinv⟩
    obtain ⟨hbracket, hstep, hinvalidator⟩ := c.accounted V call
    rw [hkeys] at hbracket hstep
    constructor
    · exact hlog.concat hbracket
    · rw [EffectLog.keysAfter_concat]
      exact hstep
    · rw [EffectLog.effects_append]
      refine invalidates_append hinv ?_
      rw [EffectLog.effects_cons, EffectLog.effects_nil, List.append_nil]
      exact hinvalidator
  · refine ⟨everyPrefix_nil, ?_, rfl⟩
    funext t
    simp [OriginalCallCoordinator.keys, new, EffectLog.keysAfter, replay]

end OriginalCallCoordinator

namespace Bracket

variable {keys : OriginalCallTicket → Option HookKey} {e : TicketEvent} {effects : List Effect}
  {t : OriginalCallTicket} {key : HookKey}

/-- What enters the table was begun, behind an invalidation. -/
theorem enter (h : Bracket keys e effects) {before after : List Effect}
    (heffects : effects = before ++ .enter t key :: after) :
    e = .begin key (.ok t) ∧ .invalidate key.address true ∈ before := by
  cases h with
  | begun key' t' free =>
    rcases before with _ | ⟨a, _ | ⟨b, l⟩⟩
    · cases heffects
    · cases heffects
      exact ⟨rfl, List.mem_singleton_self _⟩
    · simp at heffects
  | _ => rcases before with _ | ⟨a, _ | ⟨b, l⟩⟩ <;> simp at heffects

/-- What leaves the table was completed or cancelled, behind an invalidation. -/
theorem leave (h : Bracket keys e effects) {before after : List Effect}
    (heffects : effects = before ++ .leave t key :: after) :
    (e = .complete t (.ok ()) ∨ e = .cancel t (.ok ())) ∧ keys t = some key ∧
      .invalidate key.address true ∈ before := by
  cases h with
  | completed t' key' stored =>
    rcases before with _ | ⟨a, _ | ⟨b, l⟩⟩
    · cases heffects
    · cases heffects
      exact ⟨.inl rfl, stored, List.mem_singleton_self _⟩
    · simp at heffects
  | cancelled t' key' stored =>
    rcases before with _ | ⟨a, _ | ⟨b, l⟩⟩
    · cases heffects
    · cases heffects
      exact ⟨.inr rfl, stored, List.mem_singleton_self _⟩
    · simp at heffects
  | _ => rcases before with _ | ⟨a, _ | ⟨b, l⟩⟩ <;> simp at heffects

/-- A `begin` that returns has invalidated the address of its key. -/
theorem begin (h : Bracket keys (.begin key (.ok t)) effects) :
    .invalidate key.address true ∈ effects := by
  cases h <;> simp

/-- A ticket that is claimed is in the table, and stays there. -/
theorem claim (h : Bracket keys (.claimEntry t key true) effects) :
    keys t = some key ∧ effects = [] := by
  cases h with
  | claimed _ _ stored => exact ⟨stored, rfl⟩

/-- A ticket in the table that is ended leaves it behind an invalidation. -/
theorem ends (h : Bracket keys e effects) (hk : keys t = some key) (he : e.ends t = true) :
    .invalidate key.address true ∈ effects := by
  cases h with
  | completed t' key' stored | cancelled t' key' stored =>
    obtain rfl : t' = t := by simpa [TicketEvent.ends] using he
    obtain rfl : key' = key := Option.some.inj (stored.symm.trans hk)
    exact List.mem_cons_self ..
  | cancelUnknown t' unknown =>
    obtain rfl : t' = t := by simpa [TicketEvent.ends] using he
    rw [unknown] at hk
    cases hk
  | _ => cases he

/-- A ticket in the table stays there under its key, or leaves behind an
invalidation. -/
theorem keeps (h : Bracket keys e effects) (hk : keys t = some key) :
    replay effects keys t = some key ∨ .invalidate key.address true ∈ effects := by
  cases h with
  | begun key' t' free =>
    refine .inl ?_
    have hne : t ≠ t' := by
      rintro rfl
      rw [free] at hk
      cases hk
    exact (Function.update_of_ne hne _ _).trans hk
  | completed t' key' stored | cancelled t' key' stored =>
    by_cases ht : t = t'
    · subst ht
      obtain rfl : key' = key := Option.some.inj (stored.symm.trans hk)
      exact .inr (List.mem_cons_self ..)
    · exact .inl ((Function.update_of_ne ht _ _).trans hk)
  | _ => exact .inl hk

/-- If no invalidation of a call throws, it invalidates `a` once if it begins,
completes or cancels a ticket at `a`, and not at all otherwise. -/
theorem countP_invalidates (h : Bracket keys e effects)
    (hthrow : ∀ a, .invalidate a false ∉ effects) (a : GuestAddress) :
    effects.countP (Effect.invalidates a) =
      (if EffectLog.beginsAt a (e, effects) then 1 else 0) +
        (if EffectLog.completesAt a (e, effects) then 1 else 0) +
        if EffectLog.cancelsAt a (e, effects) then 1 else 0 := by
  cases h with
  | beginFailed key' | completeFailed t' key' | cancelFailed t' key' =>
    exact absurd (List.mem_singleton_self _) (hthrow key'.address)
  | _ =>
    simp [List.countP_cons, Effect.invalidates, Effect.leavesAt, EffectLog.beginsAt,
      EffectLog.completesAt, EffectLog.cancelsAt]

end Bracket

namespace EffectLog

variable {log before after : EffectLog} {x : TicketEvent × List Effect} {t : OriginalCallTicket}
  {key : HookKey}

/-- **A ticket that is in the table and then ends** leaves an invalidation of its
address behind. -/
theorem Accounted.invalidated_of_ends (h : Accounted log) {m : EffectLog}
    (hlog : log = before ++ m ++ x :: after) (hk : before.keysAfter t = some key)
    (hx : x.1.ends t = true) : .invalidate key.address true ∈ effects (m ++ [x]) := by
  induction m generalizing before with
  | nil =>
    have := (h before x after (by simpa using hlog)).ends hk hx
    simpa using this
  | cons y m ih =>
    have hy := h before y (m ++ x :: after) (by simpa using hlog)
    rcases hy.keeps hk with hkeeps | hinv
    · rw [← keysAfter_concat] at hkeeps
      have hsplit : log = before ++ [y] ++ m ++ x :: after := by simpa using hlog
      simp only [List.cons_append, effects_cons, List.mem_append]
      exact .inr (ih hsplit hkeeps)
    · simp only [List.cons_append, effects_cons, List.mem_append]
      exact .inl hinv

/-- **Between two claims at one address** there are two invalidations of it. -/
theorem Accounted.two_le_countP_invalidated (h : Accounted log) {m₁ m₂ m₃ : EffectLog}
    {claim₁ finish begin₂ claim₂ : TicketEvent × List Effect} {t₁ t₂ : OriginalCallTicket}
    {key₁ key₂ : HookKey}
    (hlog : log = before ++ [claim₁] ++ m₁ ++ [finish] ++ m₂ ++ [begin₂] ++ m₃ ++ [claim₂] ++ after)
    (hclaim₁ : claim₁.1 = .claimEntry t₁ key₁ true) (hfinish : finish.1.ends t₁ = true)
    (hbegin₂ : begin₂.1 = .begin key₂ (.ok t₂)) (haddress : key₂.address = key₁.address) :
    2 ≤ (effects (m₁ ++ [finish] ++ m₂ ++ [begin₂] ++ m₃)).countP
      (Effect.invalidated key₁.address) := by
  -- the first ticket is in the table when it is claimed, and stays there until it ends
  have hstored : keysAfter (before ++ [claim₁]) t₁ = some key₁ := by
    have hclaim : Bracket (keysAfter before) claim₁.1 claim₁.2 :=
      h before claim₁ (m₁ ++ [finish] ++ m₂ ++ [begin₂] ++ m₃ ++ [claim₂] ++ after)
        (by simp [hlog])
    rw [hclaim₁] at hclaim
    obtain ⟨hstored, heffects⟩ := hclaim.claim
    rw [keysAfter_concat, heffects]
    exact hstored
  have hsplit : log = before ++ [claim₁] ++ m₁ ++
      finish :: (m₂ ++ [begin₂] ++ m₃ ++ [claim₂] ++ after) := by simp [hlog]
  have hfirst : .invalidate key₁.address true ∈ effects (m₁ ++ [finish]) :=
    h.invalidated_of_ends hsplit hstored hfinish
  have hsecond : .invalidate key₁.address true ∈ begin₂.2 := by
    have hbegin : Bracket _ begin₂.1 begin₂.2 :=
      h (before ++ [claim₁] ++ m₁ ++ [finish] ++ m₂) begin₂ (m₃ ++ [claim₂] ++ after)
        (by simp [hlog])
    rw [hbegin₂] at hbegin
    rw [← haddress]
    exact hbegin.begin
  have hone {l : List Effect} (hl : .invalidate key₁.address true ∈ l) :
      0 < l.countP (Effect.invalidated key₁.address) :=
    List.countP_pos_iff.2 ⟨_, hl, by simp [Effect.invalidated]⟩
  have := hone hfirst
  have := hone hsecond
  rw [effects_append, effects_append, effects_append, List.countP_append, List.countP_append,
    List.countP_append, effects_cons, effects_nil, List.append_nil]
  omega

/-- If no invalidation of a history throws, an address is invalidated once for
each `begin`, `complete` and `cancel` of a ticket at it. -/
theorem Accounted.countP_invalidates (h : Accounted log)
    (hthrow : ∀ a, .invalidate a false ∉ log.effects) (a : GuestAddress) :
    log.effects.countP (Effect.invalidates a) =
      log.countP (beginsAt a) + log.countP (completesAt a) + log.countP (cancelsAt a) := by
  induction log using List.reverseRecOn with
  | nil => rfl
  | append_singleton log x ih =>
    obtain ⟨event, done⟩ := x
    rw [effects_append, effects_cons, effects_nil, List.append_nil] at hthrow ⊢
    have hbracket : Bracket _ event done := h log (event, done) [] rfl
    have hlast := hbracket.countP_invalidates
      (fun a ha => hthrow a (List.mem_append_right _ ha)) a
    have hbefore := ih h.of_append fun a ha => hthrow a (List.mem_append_left _ ha)
    rw [List.countP_append, List.countP_append, List.countP_append, List.countP_append,
      List.countP_singleton, List.countP_singleton, List.countP_singleton, hbefore, hlast]
    omega

end EffectLog

/-- What a coordinator with this history guarantees of the code at the addresses
of its tickets. -/
structure Bracketed {ι : Type*} (V : CodeInvalidator ι) (i : ι) (log : EffectLog)
    (c : OriginalCallCoordinator ι) : Prop where
  /-- The invalidator was asked for the invalidations of the history, in order. -/
  invalidator : OriginalCallCoordinator.Invalidates V log.effects i c.invalidator
  /-- The tickets in the table are those that entered and have not left. -/
  table : c.keys = log.keysAfter
  /-- A ticket enters in a `begin`, behind an invalidation of its address. -/
  enter : ∀ x ∈ log, ∀ before t key after, x.2 = before ++ .enter t key :: after →
    x.1 = .begin key (.ok t) ∧ .invalidate key.address true ∈ before
  /-- It leaves in a `complete` or `cancel`, behind an invalidation of its
  address. -/
  leave : ∀ x ∈ log, ∀ before t key after, x.2 = before ++ .leave t key :: after →
    (x.1 = .complete t (.ok ()) ∨ x.1 = .cancel t (.ok ())) ∧
      .invalidate key.address true ∈ before
  /-- Between two claims at one address, the second of a ticket begun after the
  end of the first, the address is invalidated twice. -/
  twice : ∀ (before : EffectLog) claim₁ m₁ finish m₂ begin₂ m₃ claim₂ after t₁ key₁ t₂ key₂,
    log = before ++ [claim₁] ++ m₁ ++ [finish] ++ m₂ ++ [begin₂] ++ m₃ ++ [claim₂] ++ after →
    claim₁.1 = .claimEntry t₁ key₁ true → finish.1.ends t₁ = true →
    begin₂.1 = .begin key₂ (.ok t₂) → claim₂.1.claims t₂ = true →
    key₂.address = key₁.address →
    2 ≤ (EffectLog.effects (m₁ ++ [finish] ++ m₂ ++ [begin₂] ++ m₃)).countP
      (Effect.invalidated key₁.address)
  /-- `claim_entry` invalidates nothing. -/
  claimEntry : ∀ t key, c.effects V (.claimEntry t key) = []
  /-- Cancelling an unknown ticket invalidates nothing. -/
  cancel : ∀ t, c.keys t = none → c.effects V (.cancel t) = []
  /-- Completing an unknown or unclaimed ticket throws and invalidates nothing. -/
  complete : ∀ t, (∀ key, c.tickets[t.value]? ≠ some ⟨key, .claimed⟩) →
    (c.step V (.complete t)).1.threw = true ∧ c.effects V (.complete t) = []
  /-- If no invalidation throws, each address is invalidated once for each
  `begin`, `complete` and effective `cancel` of a ticket at it. -/
  count : (∀ a, .invalidate a false ∉ log.effects) → ∀ a,
    log.effects.countP (Effect.invalidates a) = log.countP (EffectLog.beginsAt a) +
      log.countP (EffectLog.completesAt a) + log.countP (EffectLog.cancelsAt a)

/-- **Every original call is bracketed by invalidations of its own address**,
over every history of calls, whatever tickets and keys are passed and whichever
invalidations throw. -/
theorem original_calls_bracketed {ι : Type*} (V : CodeInvalidator ι) (calls : List TicketCall)
    (i : ι) : Bracketed V i (OriginalCallCoordinator.runEffects V calls i).1
      (OriginalCallCoordinator.runEffects V calls i).2 := by
  obtain ⟨hlog, hkeys, hinv⟩ := OriginalCallCoordinator.accounted_run V calls i
  generalize (OriginalCallCoordinator.runEffects V calls i).1 = log at hlog hkeys hinv ⊢
  generalize (OriginalCallCoordinator.runEffects V calls i).2 = c at hkeys hinv ⊢
  have hentry : ∀ x ∈ log, ∃ keys, Bracket keys x.1 x.2 := by
    intro x hx
    obtain ⟨before, after, rfl⟩ := List.append_of_mem hx
    exact ⟨_, hlog before x after rfl⟩
  constructor
  · exact hinv
  · exact hkeys
  · intro x hx before t key after heffects
    obtain ⟨keys, hbracket⟩ := hentry x hx
    exact hbracket.enter heffects
  · intro x hx before t key after heffects
    obtain ⟨keys, hbracket⟩ := hentry x hx
    obtain ⟨hends, -, hinv⟩ := hbracket.leave heffects
    exact ⟨hends, hinv⟩
  · intro before claim₁ m₁ finish m₂ begin₂ m₃ claim₂ after t₁ key₁ t₂ key₂ hsplit hclaim₁
      hfinish hbegin₂ _ haddress
    exact EffectLog.Accounted.two_le_countP_invalidated hlog hsplit hclaim₁ hfinish hbegin₂
      haddress
  · intro t key
    rfl
  · intro t ht
    have hnone : c.tickets[t.value]? = none := by
      simpa [OriginalCallCoordinator.keys] using ht
    simp [OriginalCallCoordinator.effects, hnone]
  · intro t ht
    rcases hget : c.tickets[t.value]? with _ | ⟨key, _ | _⟩
    · simp [OriginalCallCoordinator.step, OriginalCallCoordinator.complete,
        OriginalCallCoordinator.effects, TicketEvent.threw, hget]
    · simp [OriginalCallCoordinator.step, OriginalCallCoordinator.complete,
        OriginalCallCoordinator.effects, TicketEvent.threw, hget]
    · exact absurd hget (ht key)
  · exact EffectLog.Accounted.countP_invalidates hlog

end Calls
end GcnPort
