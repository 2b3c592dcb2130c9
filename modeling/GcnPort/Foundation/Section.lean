/-
# Methods that take a lock

An object whose members are guarded by a lock is used through methods that take
the lock, work on the members, and release it.  A method is written here as the
program it runs between: one step for each operation on the members (`access`)
and at most one call of a collaborator (`effect`), whose state `ι` the lock does
not guard.  A method that takes the lock shared only reads (`Reading`).

`Method.run` is what a method returns and leaves when nothing else runs, and
`Method.deeds` what it does on the way (`Method.foldl_deeds`).  `Objects` is a family
of objects that call one collaborator, each object with a lock of its own, and
`Objects.step` one method on all of them at once.
-/

import Mathlib.Logic.Function.Basic

namespace Foundation

/-- A program that reads the members and returns. -/
inductive Reading (σ ω : Type*) where
  | ret (answer : ω)
  | read (next : σ → Reading σ ω)

/-- A program that works on the members and returns. -/
inductive Ending (σ ω : Type*) where
  | ret (answer : ω)
  | access (write : σ → σ) (next : σ → Ending σ ω)

/-- A program that works on the members and calls the collaborator once at most.
An access reads the members and writes them; the program goes on from what it read. -/
inductive Body (σ ι ε ω : Type*) where
  | ret (answer : ω)
  | access (write : σ → σ) (next : σ → Body σ ι ε ω)
  | effect (call : ι → ε × ι) (next : ε → Ending σ ω)

/-- A method: it returns before it takes the lock, or takes it shared or exclusive. -/
inductive Method (σ ι ε ω : Type*) where
  | reject (answer : ω)
  | shared (body : Reading σ ω)
  | exclusive (body : Body σ ι ε ω)

section

variable {σ ι ε ω : Type*}

/-- What a reading program returns. -/
def Reading.run : Reading σ ω → σ → ω
  | .ret answer, _ => answer
  | .read next, s => (next s).run s

/-- What an ending returns, and the members after it. -/
def Ending.run : Ending σ ω → σ → ω × σ
  | .ret answer, s => (answer, s)
  | .access write next, s => (next s).run (write s)

/-- What a body returns, the members after it, and the state of the collaborator. -/
def Body.run : Body σ ι ε ω → σ → ι → ω × σ × ι
  | .ret answer, s, i => (answer, s, i)
  | .access write next, s, i => (next s).run (write s) i
  | .effect call next, s, i =>
    let (answer, s') := (next (call i).1).run s
    (answer, s', (call i).2)

/-- A method when nothing else runs. -/
def Method.run : Method σ ι ε ω → σ → ι → ω × σ × ι
  | .reject answer, s, i => (answer, s, i)
  | .shared body, s, i => (body.run s, s, i)
  | .exclusive body, s, i => body.run s i

end

/-- One thing that a method does: it takes the members from one value to the next, or calls
the collaborator. -/
inductive Deed (σ ι ε : Type*) where
  | access (before after : σ)
  | effect (call : ι → ε × ι) (collaborator : ι)

section

variable {σ ι ε ω : Type*}

/-- What a reading program does. -/
def Reading.deeds : Reading σ ω → σ → List (Deed σ ι ε)
  | .ret _, _ => []
  | .read next, s => .access s s :: (next s).deeds s

/-- What an ending does. -/
def Ending.deeds : Ending σ ω → σ → List (Deed σ ι ε)
  | .ret _, _ => []
  | .access write next, s => .access s (write s) :: (next s).deeds (write s)

/-- What a body does. -/
def Body.deeds : Body σ ι ε ω → σ → ι → List (Deed σ ι ε)
  | .ret _, _, _ => []
  | .access write next, s, i => .access s (write s) :: (next s).deeds (write s) i
  | .effect call next, s, i => .effect call i :: (next (call i).1).deeds s

/-- What a method does when nothing else runs, in its order. -/
def Method.deeds : Method σ ι ε ω → σ → ι → List (Deed σ ι ε)
  | .reject _, _, _ => []
  | .shared body, s, _ => body.deeds s
  | .exclusive body, s, i => body.deeds s i

/-- The members and the collaborator after a deed. -/
def Deed.after (w : σ × ι) : Deed σ ι ε → σ × ι
  | .access _ s => (s, w.2)
  | .effect call i => (w.1, (call i).2)

/-- What a reading program does changes nothing. -/
theorem Reading.foldl_deeds (body : Reading σ ω) (s : σ) (i : ι) :
    (body.deeds s : List (Deed σ ι ε)).foldl Deed.after (s, i) = (s, i) := by
  induction body with
  | ret answer => rfl
  | read next ih => exact ih s

/-- What an ending does leads to the members after it. -/
theorem Ending.foldl_deeds (body : Ending σ ω) (s : σ) (i : ι) :
    (body.deeds s : List (Deed σ ι ε)).foldl Deed.after (s, i) = ((body.run s).2, i) := by
  induction body generalizing s with
  | ret answer => rfl
  | access write next ih => exact ih s (write s)

/-- What a body does leads to the state after it. -/
theorem Body.foldl_deeds (body : Body σ ι ε ω) (s : σ) (i : ι) :
    (body.deeds s i).foldl Deed.after (s, i) = (body.run s i).2 := by
  induction body generalizing s with
  | ret answer => rfl
  | access write next ih => exact ih s (write s)
  | effect call next => exact (next (call i).1).foldl_deeds s (call i).2

/-- **What a method does leads to where it leads.** -/
theorem Method.foldl_deeds (method : Method σ ι ε ω) (s : σ) (i : ι) :
    (method.deeds s i).foldl Deed.after (s, i) = (method.run s i).2 := by
  cases method with
  | reject answer => rfl
  | shared body => exact body.foldl_deeds s i
  | exclusive body => exact body.foldl_deeds s i

end

section

variable {σ ι ε ω ω' : Type*} (f : ω → ω')

/-- A program with `f` of its answer. -/
def Reading.map : Reading σ ω → Reading σ ω'
  | .ret answer => .ret (f answer)
  | .read next => .read fun s => (next s).map

def Ending.map : Ending σ ω → Ending σ ω'
  | .ret answer => .ret (f answer)
  | .access write next => .access write fun s => (next s).map

def Body.map : Body σ ι ε ω → Body σ ι ε ω'
  | .ret answer => .ret (f answer)
  | .access write next => .access write fun s => (next s).map
  | .effect call next => .effect call fun e => (next e).map f

/-- A method with `f` of its answer. -/
def Method.map : Method σ ι ε ω → Method σ ι ε ω'
  | .reject answer => .reject (f answer)
  | .shared body => .shared (body.map f)
  | .exclusive body => .exclusive (body.map f)

/-- The answer of what reads, mapped. -/
theorem Reading.run_map (body : Reading σ ω) (s : σ) : (body.map f).run s = f (body.run s) := by
  induction body with
  | ret answer => rfl
  | read next ih => exact ih s

/-- The answer of what ends, mapped. -/
theorem Ending.run_map (body : Ending σ ω) (s : σ) :
    (body.map f).run s = (body.run s).map f id := by
  induction body generalizing s with
  | ret answer => rfl
  | access write next ih => exact ih s (write s)

/-- The answer of a body, mapped. -/
theorem Body.run_map (body : Body σ ι ε ω) (s : σ) (i : ι) :
    (body.map f).run s i = (body.run s i).map f id := by
  induction body generalizing s with
  | ret answer => rfl
  | access write next ih => exact ih s (write s)
  | effect call next =>
    change ((((next (call i).1).map f).run s).1, _, _) = _
    rw [Ending.run_map]
    rfl

/-- The answer of a method, mapped. -/
theorem Method.run_map (method : Method σ ι ε ω) (s : σ) (i : ι) :
    (method.map f).run s i = (method.run s i).map f id := by
  cases method with
  | reject answer => rfl
  | shared body =>
    change (_, s, i) = _
    rw [Reading.run_map]
    rfl
  | exclusive body => exact body.run_map f s i

end

section

variable {O : Type*} {σ : O → Type*} {ι ε κ ω : Type*}

/-- Objects with members `σ`, their methods, and one collaborator for all. -/
structure Objects (σ : O → Type*) (ι ε κ ω : Type*) where
  object : κ → O
  method : (k : κ) → Method (σ (object k)) ι ε ω

/-- The members of all objects, and the collaborator. -/
@[ext]
structure World (σ : O → Type*) (ι : Type*) where
  members : (o : O) → σ o
  collaborator : ι

variable [DecidableEq O]

/-- A method of one of the objects, with nothing else running. -/
def Objects.step (M : Objects σ ι ε κ ω) (k : κ) (w : World σ ι) : ω × World σ ι :=
  let (answer, s, i) := (M.method k).run (w.members (M.object k)) w.collaborator
  (answer, ⟨Function.update w.members (M.object k) s, i⟩)

end

end Foundation
