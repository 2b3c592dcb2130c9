/-
# The host of the landing gate

`tools/gcnport_tools/host.py`: which hosts the gate is qualified for, and the tools that
it uses there.
-/

import GcnPort.Tools.Runner

namespace GcnPort
namespace Tools

open Foundation

/-- `operating_system` of a target. -/
inductive OperatingSystem where
  | linux
  | windows
  | macos
deriving DecidableEq, Repr

/-- `architecture` of a target. -/
inductive Architecture where
  | x64
  | arm64
deriving DecidableEq, Repr

/-- The text of an operating system. -/
def OperatingSystem.name : OperatingSystem → Text
  | .linux => text "linux"
  | .windows => text "windows"
  | .macos => text "macos"

/-- The text of an architecture. -/
def Architecture.name : Architecture → Text
  | .x64 => text "x64"
  | .arm64 => text "arm64"

/-- `SUPPORTED_TARGETS`. -/
def SUPPORTED_TARGETS : List (OperatingSystem × Architecture) :=
  [(.linux, .x64), (.linux, .arm64), (.windows, .x64), (.macos, .x64), (.macos, .arm64)]

/-- `HostTarget`. -/
structure HostTarget where
  operatingSystem : OperatingSystem
  architecture : Architecture
  cCompiler : Text
  cxxCompiler : Text
  cmakeCompilerId : Text
  formatter : Text
  linter : Text
deriving DecidableEq, Repr

/-- `system_names`. -/
def systemNames : List (Text × OperatingSystem) :=
  [(text "Linux", .linux), (text "Windows", .windows), (text "Darwin", .macos)]

/-- `architecture_names`. -/
def architectureNames : List (Text × Architecture) :=
  [(text "x86_64", .x64), (text "amd64", .x64), (text "aarch64", .arm64), (text "arm64", .arm64)]

/-- `platform` of Python, and `str.lower`. -/
structure Platform where
  system : Text
  machine : Text
  lower : Text → Text

/-- The arguments of `verify.py`. -/
structure Arguments where
  runtime : Bool
  expectedOs : Option OperatingSystem
  expectedArch : Option Architecture

/-- What was expected of the runner is what was detected, if anything was. -/
def checkExpected {α : Type} [DecidableEq α] (what : Text) (name : α → Text)
    (expected : Option α) (detected : α) : Except RuntimeError Unit :=
  match expected with
  | none => .ok ()
  | some expected =>
    if detected ≠ expected then
      .error ⟨text "runner " ++ what ++ text " mismatch: expected " ++ name expected ++
        text ", detected " ++ name detected⟩
    else
      .ok ()

/-- The checks of `detect_host`. -/
def Platform.target (platform : Platform) (arguments : Arguments) :
    Except RuntimeError (OperatingSystem × Architecture) :=
  let unsupported : RuntimeError :=
    ⟨text "unsupported native verification host: system=" ++ platform.system ++
      text ", architecture=" ++ platform.machine⟩
  match systemNames.lookup platform.system,
      architectureNames.lookup (platform.lower platform.machine) with
  | some system, some architecture =>
    if (system, architecture) ∉ SUPPORTED_TARGETS then
      .error unsupported
    else do
      checkExpected (text "OS") OperatingSystem.name arguments.expectedOs system
      checkExpected (text "architecture") Architecture.name arguments.expectedArch architecture
      pure (system, architecture)
  | _, _ => .error unsupported

/-- The compilers of a host, for C and for C++, and the name that CMake knows them by. -/
def OperatingSystem.toolchain : OperatingSystem → Text × Text × Text
  | .windows => (text "clang-cl", text "clang-cl", text "Clang")
  | .macos => (text "clang", text "clang++", text "AppleClang")
  | .linux => (text "clang", text "clang++", text "Clang")

/-- `str.strip`. -/
def strip (output : Text) : Text :=
  ((output.dropWhile isSpace).reverse.dropWhile isSpace).reverse

/-- The error of `_quality_tool`. -/
def unavailable (name : Text) : GateError :=
  .runtimeError ⟨text "required verification tool is unavailable: " ++ name⟩

/-- The error of `self_test`. -/
def unqualifiedMatrix : GateError :=
  .assertionError (text "supported-host matrix does not match the qualified scope")

section

variable {flavour : Flavour}

/-- `_quality_tool`. -/
def qualityTool (name : Text) (system : OperatingSystem) : Gate flavour Text := do
  match ← ask (.which name) with
  | some executable => pure executable
  | none =>
    if system = .macos then
      match ← ask (.which (text "brew")) with
      | some _ =>
        let output ← ask .llvmPrefix
        match ← ask (.candidate (strip output) name) with
        | some candidate => pure candidate
        | none => raise (unavailable name)
      | none => raise (unavailable name)
    else
      raise (unavailable name)

/-- `detect_host`. -/
def detectHost (platform : Platform) (arguments : Arguments) : Gate flavour HostTarget := do
  let (system, architecture) ← orRuntimeError (platform.target arguments)
  let (cCompiler, cxxCompiler, cmakeCompilerId) := system.toolchain
  let formatter ← qualityTool (text "clang-format") system
  let linter ← qualityTool (text "clang-tidy") system
  pure ⟨system, architecture, cCompiler, cxxCompiler, cmakeCompilerId, formatter, linter⟩

/-- `self_test`. -/
def selfTest : Gate flavour Unit :=
  if (.linux, .arm64) ∉ SUPPORTED_TARGETS ∨ (.windows, .arm64) ∈ SUPPORTED_TARGETS then
    raise unqualifiedMatrix
  else
    pure ()

/-! ### What a detected host is -/

/-- The target is the platform, it is supported, and it is as expected. -/
structure Platform.Is (platform : Platform) (arguments : Arguments)
    (target : OperatingSystem × Architecture) : Prop where
  system : systemNames.lookup platform.system = some target.1
  machine : architectureNames.lookup (platform.lower platform.machine) = some target.2
  supported : target ∈ SUPPORTED_TARGETS
  expectedOs : ∀ expected ∈ arguments.expectedOs, target.1 = expected
  expectedArch : ∀ expected ∈ arguments.expectedArch, target.2 = expected

/-- What is expected is met, or nothing is. -/
theorem checkExpected_eq_ok_iff {α : Type} [DecidableEq α] (what : Text) (name : α → Text)
    {expected : Option α} {detected : α} :
    checkExpected what name expected detected = .ok () ↔ ∀ e ∈ expected, detected = e := by
  cases expected with
  | none => simp [checkExpected]
  | some expected =>
    rw [checkExpected]
    split_ifs with h
    · simpa using h
    · simpa using h

/-- **The checks of the host**: they let through the target that the platform is. -/
theorem target_eq_ok_iff {platform : Platform} {arguments : Arguments}
    {target : OperatingSystem × Architecture} :
    platform.target arguments = .ok target ↔ platform.Is arguments target := by
  constructor
  · intro h
    rw [Platform.target] at h
    split at h
    · rename_i system architecture hsystem hmachine
      split_ifs at h with hsupported
      cases hos : checkExpected (text "OS") OperatingSystem.name arguments.expectedOs system with
      | error e => simp [hos, bind, Except.bind] at h
      | ok u =>
        cases harch : checkExpected (text "architecture") Architecture.name
            arguments.expectedArch architecture with
        | error e => simp [hos, harch, bind, Except.bind] at h
        | ok u =>
          obtain rfl : (system, architecture) = target := by
            simpa [hos, harch, bind, Except.bind, pure, Except.pure] using h
          exact ⟨hsystem, hmachine, hsupported, (checkExpected_eq_ok_iff _ _).1 hos,
            (checkExpected_eq_ok_iff _ _).1 harch⟩
    · cases h
  · intro h
    rw [Platform.target, h.system, h.machine]
    simp only [h.supported, not_true_eq_false, if_false,
      (checkExpected_eq_ok_iff _ _).2 h.expectedOs, (checkExpected_eq_ok_iff _ _).2 h.expectedArch]
    rfl

/-- How a tool was found. -/
inductive Located (name : Text) (system : OperatingSystem) : GateLog flavour → Text → Prop where
  | found (path : Text) : Located name system [⟨.which name, .ok (some path)⟩] path
  | llvm (brew output path : Text) (h : system = .macos) :
    Located name system
      [⟨.which name, .ok none⟩, ⟨.which (text "brew"), .ok (some brew)⟩, ⟨.llvmPrefix, .ok output⟩,
        ⟨.candidate (strip output) name, .ok (some path)⟩] path

variable {name path : Text} {system : OperatingSystem} {asked : GateLog flavour}

/-- **A tool is found** on the path or, on macOS, where Homebrew keeps LLVM. -/
theorem ends_qualityTool_ok :
    (qualityTool name system).Ends asked (.ok path) ↔ Located name system asked path := by
  rw [qualityTool, ask, Script.ends_perform_bind_ok]
  constructor
  · rintro ⟨executable, rest, h, rfl⟩
    cases executable with
    | some executable =>
      obtain ⟨rfl, hpath⟩ := Script.ends_pure.1 h
      obtain rfl := Except.ok.inj hpath
      exact .found _
    | none =>
      dsimp only at h
      split_ifs at h with hmac
      · obtain ⟨brew, _, hbrew, rfl⟩ := Script.ends_perform_bind_ok.1 h
        cases brew with
        | none => exact absurd hbrew Script.not_ends_throw_ok
        | some brew =>
          obtain ⟨output, _, houtput, rfl⟩ := Script.ends_perform_bind_ok.1 hbrew
          obtain ⟨candidate, _, hcandidate, rfl⟩ := Script.ends_perform_bind_ok.1 houtput
          cases candidate with
          | none => exact absurd hcandidate Script.not_ends_throw_ok
          | some candidate =>
            obtain ⟨rfl, hpath⟩ := Script.ends_pure.1 hcandidate
            obtain rfl := Except.ok.inj hpath
            exact .llvm brew output _ hmac
      · exact absurd h Script.not_ends_throw_ok
  · rintro (path | ⟨brew, output, path, hmac⟩)
    · exact ⟨some path, [], Script.ends_pure.2 ⟨rfl, rfl⟩, rfl⟩
    · refine ⟨none, _, ?_, rfl⟩
      simp only [if_pos hmac]
      refine Script.ends_perform_bind_ok.2 ⟨some brew, _, ?_, rfl⟩
      refine Script.ends_perform_bind_ok.2 ⟨output, _, ?_, rfl⟩
      exact Script.ends_perform_bind_ok.2 ⟨some path, [], Script.ends_pure.2 ⟨rfl, rfl⟩, rfl⟩

/-- The search for a tool stops at a refusal. -/
theorem closed_qualityTool (name : Text) (system : OperatingSystem) :
    (qualityTool name system : Gate flavour Text).Closed := by
  refine (Script.closed_perform _).bind fun executable => ?_
  cases executable with
  | some executable => exact Script.closed_pure _
  | none =>
    dsimp only
    split_ifs
    · refine (Script.closed_perform _).bind fun brew => ?_
      cases brew with
      | none => exact Script.closed_throw _
      | some brew =>
        refine (Script.closed_perform _).bind fun output =>
          (Script.closed_perform _).bind fun candidate => ?_
        cases candidate with
        | none => exact Script.closed_throw _
        | some candidate => exact Script.closed_pure _
    · exact Script.closed_throw _

/-- No process runs in the root while a tool is looked for. -/
theorem follows_qualityTool (name : Text) (system : OperatingSystem) :
    Follows [] (qualityTool name system : Gate flavour Text) := by
  refine (follows_ask rfl).bind fun executable _ _ => ?_
  cases executable with
  | some executable => exact Script.keepsTo_pure _
  | none =>
    dsimp only
    split_ifs
    · refine (follows_ask rfl).bind fun brew _ _ => ?_
      cases brew with
      | none => exact Script.keepsTo_throw _ _
      | some brew =>
        refine (follows_ask rfl).bind fun output _ _ =>
          (follows_ask rfl).bind fun candidate _ _ => ?_
        cases candidate with
        | none => exact Script.keepsTo_throw _ _
        | some candidate => exact Script.keepsTo_pure _
    · exact Script.keepsTo_throw _ _

/-- The host is the platform, with the compilers that it is qualified with. -/
structure HostTarget.Qualified (platform : Platform) (arguments : Arguments) (host : HostTarget) :
    Prop where
  target : platform.Is arguments (host.operatingSystem, host.architecture)
  toolchain : host.operatingSystem.toolchain =
    (host.cCompiler, host.cxxCompiler, host.cmakeCompilerId)

/-- The host was detected. -/
structure Detected (platform : Platform) (arguments : Arguments) (host : HostTarget)
    (asked : GateLog flavour) : Prop where
  qualified : host.Qualified platform arguments
  tools : ∃ asked₁ asked₂,
    Located (text "clang-format") host.operatingSystem asked₁ host.formatter ∧
    Located (text "clang-tidy") host.operatingSystem asked₂ host.linter ∧ asked = asked₁ ++ asked₂

variable {platform : Platform} {arguments : Arguments} {host : HostTarget}

/-- **What is detected.** -/
theorem ends_detectHost_ok :
    (detectHost platform arguments).Ends asked (.ok host) ↔
      Detected platform arguments host asked := by
  rw [detectHost, ends_orRuntimeError_bind_ok]
  constructor
  · rintro ⟨⟨system, architecture⟩, htarget, h⟩
    obtain ⟨formatter, asked₁, _, hformatter, h₁, rfl⟩ := Script.ends_bind_ok.1 h
    obtain ⟨linter, asked₂, _, hlinter, h₂, rfl⟩ := Script.ends_bind_ok.1 h₁
    obtain ⟨rfl, hhost⟩ := Script.ends_pure.1 h₂
    obtain rfl := Except.ok.inj hhost
    refine ⟨⟨target_eq_ok_iff.1 htarget, rfl⟩, asked₁, asked₂, ends_qualityTool_ok.1 hformatter,
      ends_qualityTool_ok.1 hlinter, by rw [List.append_nil]⟩
  · rintro ⟨⟨htarget, htoolchain⟩, asked₁, asked₂, hformatter, hlinter, rfl⟩
    refine ⟨_, target_eq_ok_iff.2 htarget, ?_⟩
    simp only [htoolchain]
    refine Script.ends_bind_ok.2 ⟨_, asked₁, asked₂, ends_qualityTool_ok.2 hformatter, ?_, rfl⟩
    exact Script.ends_bind_ok.2 ⟨_, asked₂, [], ends_qualityTool_ok.2 hlinter,
      Script.ends_pure.2 ⟨rfl, rfl⟩, (List.append_nil _).symm⟩

/-- The detection of the host stops at a refusal. -/
theorem closed_detectHost (platform : Platform) (arguments : Arguments) :
    (detectHost platform arguments : Gate flavour HostTarget).Closed := by
  refine (closed_orRuntimeError _).bind fun target => ?_
  refine (closed_qualityTool _ _).bind fun formatter => ?_
  exact (closed_qualityTool _ _).bind fun linter => Script.closed_pure _

/-- No process runs in the root while the host is detected. -/
theorem follows_detectHost (platform : Platform) (arguments : Arguments) :
    Follows [] (detectHost platform arguments : Gate flavour HostTarget) := by
  refine (follows_orRuntimeError _).bind fun target _ _ => ?_
  refine (follows_qualityTool _ _).bind fun formatter _ _ => ?_
  exact (follows_qualityTool _ _).bind fun linter _ _ => Script.keepsTo_pure _

end

end Tools
end GcnPort
