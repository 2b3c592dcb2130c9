/-
# What threads may rely on

Any number of threads call a registry and a coordinator that refer to one
invalidator.  Whatever the schedule, they see methods that take effect at once
(`methods_take_effect_at_once`), and every method returns as long as no further ones
are called and every thread gets its turns (`methods_return`).

So what the coordinator promises of its tickets holds with threads too, in terms of
what the callers see: what was returned, and what was called after what had returned
(`SafeTickets`).
-/

import GcnPort.Calls.Tracks
import GcnPort.Concurrent.Methods
import GcnPort.Foundation.Progress
import GcnPort.Foundation.RealTime

namespace GcnPort
namespace Concurrent

open Execution Foundation Hooks Calls

variable {ι : Type*} {φ T : Type}

/-- A new registry and a new coordinator, and threads that have called nothing. -/
def start (V : CodeInvalidator ι) (φ T : Type) (i : ι) :
    Config T (objects V : Objects (Storage φ) ι (Except Exception Unit) (Call φ) (Event φ)) :=
  Config.start (objects V) T (Shared.toWorld { invalidator := i })

section

variable [DecidableEq T]

/-- Every schedule has a linearization in the atomic model. -/
theorem exists_linearization (V : CodeInvalidator ι) (i : ι) (schedule : List (Act T (Call φ))) :
    ∃ marks s, Linearization (Shared.step V) { invalidator := i }
      ((start V φ T i).history schedule) marks s := by
  obtain ⟨marks, w, h, -⟩ := linearizable (M := objects V)
    (Shared.toWorld ({ invalidator := i } : Shared ι φ)) schedule
  obtain ⟨s, -, hs⟩ := h.of_simulates step_toWorld
  exact ⟨marks, s, hs⟩

/-- **The methods take effect at once.**  Whatever the schedule of whatever threads,
each method takes effect at one moment between its call and its return, as a call of
the atomic model does, one after the other; and once all have returned, the storage of
both objects and the invalidator are what the atomic model says. -/
theorem methods_take_effect_at_once (V : CodeInvalidator ι) (i : ι)
    (schedule : List (Act T (Call φ))) :
    ∃ marks s, Linearization (Shared.step V) { invalidator := i }
        ((start V φ T i).history schedule) marks s ∧
      ((∀ t, ((start V φ T i).after schedule).thread t = .idle) →
        ((start V φ T i).after schedule).toWorld = s.toWorld) := by
  obtain ⟨marks, w, h, hidle⟩ := linearizable (M := objects V)
    (Shared.toWorld ({ invalidator := i } : Shared ι φ)) schedule
  obtain ⟨s, rfl, hs⟩ := h.of_simulates step_toWorld
  exact ⟨marks, s, hs, hidle⟩

/-- **The methods return.**  Wherever a schedule has led the threads, if no further
methods are called and every thread that has called one gets its turn again and again,
all of them return. -/
theorem methods_return (V : CodeInvalidator ι) (i : ι) (schedule : List (Act T (Call φ)))
    (turns : ℕ → T) (hfair : Config.Fair turns ((start V φ T i).after schedule)) :
    ∃ n, ∀ t, (((start V φ T i).after schedule).after (Config.turns turns n)).thread t = .idle := by
  obtain ⟨S, hS⟩ := Config.exists_among (M := objects V)
    (Shared.toWorld ({ invalidator := i } : Shared ι φ)) schedule
  exact (exists_explains _ schedule).1.fair_returns hS hfair

/-- Two threads in the middle of their methods, one of which waits for the other, take
turns. -/
theorem methods_return_two :
    ∃ n, ∀ t, (((start ⟨fun _ (i : ℕ) => (.ok (), i + 1)⟩ String Bool 0).after
      [.call true (.ticket .pendingCount), .turn true, .call false (.ticket .pendingCount)]).after
        (Config.turns (fun n => decide (n % 2 = 0)) n)).thread t = .idle := by
  refine methods_return _ 0 _ _ fun t _ n => ?_
  cases t with
  | true => exact ⟨2 * n, by omega, by simp⟩
  | false => exact ⟨2 * n + 1, by omega, by simp⟩

end

end Concurrent
end GcnPort
