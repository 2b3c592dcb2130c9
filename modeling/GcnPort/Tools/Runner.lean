/-
# What the landing gate asks of its host

`tools/gcnport_tools/runner.py`, and the other ways in which the landing gate asks the
host that it runs on: whether a tool is there, and what a file says that a process has
written.  Any of this may be refused, which raises; no part of the gate catches what is
raised.  Every process is run in the root of the checkout, but for the one that asks
where LLVM is.
-/

import GcnPort.Foundation.Script
import GcnPort.Tools.ProjectVerifier
import GcnPort.Tools.TestListing

namespace GcnPort
namespace Tools

open Foundation

/-- What `json.loads` returns.  A number is its literal. -/
inductive Json where
  | null
  | boolean (value : Bool)
  | number (literal : Text)
  | string (value : Text)
  | array (elements : List Json)
  | object (members : List (Text × Json))

/-- What is raised. -/
inductive GateError where
  | runtimeError (error : RuntimeError)
  | assertionError (message : Text)
  | discovery (error : ListingError)
  | evidence (error : ResultError)
  | keyError (key : Text)
  | typeError
  | attributeError
  /-- A process that fails or cannot be started, a file that cannot be read, a document
  that is no JSON. -/
  | refused (description : Text)
deriving DecidableEq, Repr

/-- What is asked. -/
inductive Operation where
  /-- `shutil.which(name)`. -/
  | which (name : Text)
  /-- The output of `brew --prefix llvm@18`. -/
  | llvmPrefix
  /-- `Path(directory) / "bin" / name`, if that is a file. -/
  | candidate (directory name : Text)
  /-- `subprocess.run(command, cwd=root, check=True)`. -/
  | process (command : List Text)
  /-- The same with `capture_output=True`. -/
  | captured (command : List Text)
  /-- The entries of a compile database, if it is a file, and where each resolves to. -/
  | compileDatabase (path : Text)
  /-- `json.loads(path.read_text())`. -/
  | json (path : Text)
  /-- `directory.glob("*/CMakeCXXCompiler.cmake")`. -/
  | compilerFiles (directory : Text)
  /-- `path.read_text()`. -/
  | source (path : Text)
deriving DecidableEq, Repr

/-- What is answered. -/
@[reducible] def Operation.Result (flavour : Flavour) : Operation → Type
  | .which _ => Option Text
  | .llvmPrefix => Text
  | .candidate _ _ => Option Text
  | .process _ => Unit
  | .captured _ => Text
  | .compileDatabase _ => Option (List CompileEntry) × (CompileEntry → AbsolutePath flavour)
  | .json _ => Json
  | .compilerFiles _ => List Text
  | .source _ => Text

/-- The command of a process in the root. -/
def Operation.command : Operation → Option (List Text)
  | .process command => some command
  | .captured command => some command
  | _ => none

/-- A part of the landing gate. -/
abbrev Gate (flavour : Flavour) : Type → Type :=
  Script (Operation.Result flavour) GateError

/-- What was asked of a part, with its answers. -/
abbrev GateLog (flavour : Flavour) := Script.Transcript (Operation.Result flavour) GateError

/-- Whatever answers. -/
abbrev World (flavour : Flavour) (σ : Type) :=
  Handler (Reply (Operation.Result flavour) GateError) σ

section

variable {flavour : Flavour}

/-- Ask the host. -/
def ask (op : Operation) : Gate flavour (op.Result flavour) := Script.perform op

/-- `run`. -/
def run (command : List Text) : Gate flavour Unit := ask (.process command)

/-- `run`, one command after the other. -/
def runAll (plan : List (List Text)) : Gate flavour Unit := plan.forM run

/-- The command of `build_ninja`. -/
def ninjaCommand (build : Text) (target : Option Text) : List Text :=
  [text "cmake", text "--build", build] ++
    (match target with
      | none => []
      | some target => [text "--target", target, text "--parallel", text "2"]) ++
    [text "--", text "-k", text "0"]

/-- `build_ninja`. -/
def buildNinja (build : Text) (target : Option Text) : Gate flavour Unit :=
  run (ninjaCommand build target)

/-- `capture`. -/
def capture (command : List Text) : Gate flavour Text := ask (.captured command)

/-- Raise what was found. -/
def raise {α : Type} (error : GateError) : Gate flavour α := throw error

/-- The value, or the `RuntimeError`. -/
def orRuntimeError {α : Type} (r : Except RuntimeError α) : Gate flavour α :=
  Script.ofExcept (r.mapError .runtimeError)

/-- A process that exited with zero. -/
def ran (command : List Text) : Asked (Reply (Operation.Result flavour) GateError) :=
  ⟨.process command, .ok ()⟩

/-- The commands of the processes in the root, in their order. -/
def commands (asked : GateLog flavour) : List (List Text) :=
  Script.taken Operation.command asked

/-- The part runs the commands of a plan. -/
abbrev Follows {α : Type} (plan : List (List Text)) (x : Gate flavour α) : Prop :=
  x.KeepsTo Operation.command plan

variable {α β : Type} {command : List Text} {asked : GateLog flavour} {result : β}

/-- A check asks for nothing, so it stops at a refusal. -/
theorem closed_orRuntimeError (r : Except RuntimeError α) :
    Script.Closed (orRuntimeError r : Gate flavour α) :=
  Script.closed_ofExcept _

/-- An operation runs its own command, if it has one. -/
theorem follows_perform {op : Operation} {plan : List (List Text)}
    (h : op.command.toList = plan) : Follows plan (ask op : Gate flavour (op.Result flavour)) := by
  subst h
  exact Script.keepsTo_perform op

/-- What runs no process in the root takes no step. -/
theorem follows_ask {op : Operation} (h : op.command = none) :
    Follows [] (ask op : Gate flavour (op.Result flavour)) :=
  follows_perform (by rw [h]; rfl)

/-- `run` runs its command. -/
theorem follows_run (command : List Text) : Follows [command] (run command : Gate flavour Unit) :=
  follows_perform rfl

/-- `capture` runs its command. -/
theorem follows_capture (command : List Text) :
    Follows [command] (capture command : Gate flavour Text) :=
  follows_perform rfl

/-- A check runs no command. -/
theorem follows_orRuntimeError (r : Except RuntimeError α) :
    Follows [] (orRuntimeError r : Gate flavour α) :=
  Script.keepsTo_ofExcept _

/-- `run` returns once its command has exited with zero. -/
theorem ends_run_ok : (run command).Ends asked (.ok ()) ↔ asked = [ran command] :=
  Script.ends_perform

/-- To rename an error does not make a value of it. -/
theorem mapError_eq_ok_iff {ε δ : Type} {f : ε → δ} {r : Except ε α} {value : α} :
    r.mapError f = .ok value ↔ r = .ok value := by
  cases r with
  | error e =>
    constructor
    · intro h
      cases h
    · intro h
      cases h
  | ok value' => simp [Except.mapError]

/-- How a part returns that makes a check first. -/
theorem ends_orRuntimeError_bind_ok {r : Except RuntimeError α} {f : α → Gate flavour β} :
    (orRuntimeError r >>= f).Ends asked (.ok result) ↔
      ∃ value, r = .ok value ∧ (f value).Ends asked (.ok result) := by
  rw [orRuntimeError, Script.ends_ofExcept_bind_ok]
  simp only [mapError_eq_ok_iff]

/-- Commands return once each has exited with zero. -/
theorem ends_runAll_ok {plan : List (List Text)} :
    (runAll plan).Ends asked (.ok ()) ↔ asked = plan.map ran := by
  rw [List.map_eq_flatMap]
  exact Script.ends_forM_ok (fun _ _ => ends_run_ok) plan

/-- Commands stop at the first that fails. -/
theorem closed_runAll (plan : List (List Text)) : (runAll plan : Gate flavour Unit).Closed :=
  Script.Closed.forM (fun _ => Script.closed_perform _) plan

/-- Commands are run in their order. -/
theorem follows_runAll (plan : List (List Text)) :
    Follows plan (runAll plan : Gate flavour Unit) := by
  have h : Follows (plan.flatMap fun c => [c]) (runAll plan : Gate flavour Unit) :=
    Script.KeepsTo.forM follows_run plan
  rwa [List.flatMap_singleton'] at h

/-- How a part returns that runs a command first. -/
theorem ends_run_bind_ok {f : Unit → Gate flavour β} :
    (run command >>= f).Ends asked (.ok result) ↔
      ∃ rest, (f ()).Ends rest (.ok result) ∧ asked = ran command :: rest := by
  rw [run, ask, Script.ends_perform_bind_ok]
  constructor
  · rintro ⟨⟨⟩, rest, h, rfl⟩
    exact ⟨rest, h, rfl⟩
  · rintro ⟨rest, h, rfl⟩
    exact ⟨(), rest, h, rfl⟩

end

end Tools
end GcnPort
