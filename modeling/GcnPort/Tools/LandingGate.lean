/-
# The landing gate

`tools/verify.py` and `tools/gcnport_tools/project_verifier.py`: the gate detects its
host, verifies the project and, if it is asked to, the runtime.  Whatever it is answered,
it asks for nothing behind a refusal, and the commands that it runs are the first ones of
one plan (`landing_gate_fails_closed`).  It returns exactly on evidence that is in order
(`ends_main_ok`), so a pass says what was linted, with which compiler, and which tests were
run (`landing_gate_shows`).  There are such answers for every qualified host but those on
Windows, if the checkout has the named sources (`landing_gate_can_pass_iff`).
-/

import GcnPort.Tools.RuntimeGate

namespace GcnPort
namespace Tools

open Foundation

/-- `checks` of `verify_project`. -/
def CHECKS : List Text :=
  [text "tools/check_structure.py", text "tools/check_dependency.py",
    text "tools/check_dolphin_contract.py", text "tools/check_ci.py"]

section

variable {flavour : Flavour}

/-- `build` of `verify_project`. -/
def Site.projectBuild (site : Site flavour) : Text :=
  site.path [text "build", text "verify"] (by decide)

/-- `database` of `_compiled_sources`. -/
def Site.compileCommands (site : Site flavour) : Text :=
  site.path [text "build", text "verify", text "compile_commands.json"] (by decide)

/-- `install` of `verify_project`. -/
def Site.projectInstall (site : Site flavour) : Text :=
  site.path [text "build", text "install"] (by decide)

/-- What `verify_project` runs before it lints. -/
def Site.projectCommands (site : Site flavour) (host : HostTarget) : List (List Text) :=
  CHECKS.map (fun check => [site.executable, check, text "--selftest"]) ++
    [[site.executable, text "tools/test_verifier_orchestration.py"],
      [site.executable, text "tools/test_dolphin_tests.py"],
      [site.executable, text "tools/check_structure.py", text "--root", site.root.str],
      [site.executable, text "tools/check_dependency.py", text "--root", text "extern/dolphin"],
      [site.executable, text "tools/check_dolphin_contract.py", text "--root",
        text "extern/dolphin"],
      [site.executable, text "tools/check_ci.py", text "--root", site.root.str],
      [text "cmake", text "-S", text ".", text "-B", site.projectBuild, text "-G", text "Ninja",
        text "-DCMAKE_CXX_COMPILER=" ++ host.cxxCompiler, text "-DCMAKE_BUILD_TYPE=Debug"],
      ninjaCommand site.projectBuild none,
      [text "ctest", text "--test-dir", site.projectBuild, text "--output-on-failure"],
      [text "cmake", text "--install", site.projectBuild, text "--prefix", site.projectInstall],
      [host.formatter, text "--dry-run", text "--Werror"] ++ cppFiles site.tree]

/-- `verify_project`. -/
def verifyProject (site : Site flavour) (host : HostTarget) : Gate flavour Unit := do
  runAll (site.projectCommands host)
  -- Named sources that are missing raise before the database is read.
  let _ ← orRuntimeError (dolphinDependentSources site.tree)
  let (database, resolve) ← ask (.compileDatabase site.compileCommands)
  let units ← orRuntimeError (lintedUnits site.platform.lower site.root site.tree
    site.compileCommands database resolve)
  run (lintCommand host site.projectBuild units)

/-- `main` of `verify.py`. -/
def main (site : Site flavour) (arguments : Arguments) : Gate flavour ℕ := do
  selfTest
  let host ← detectHost site.platform arguments
  verifyProject site host
  (if arguments.runtime then verifyRuntime site host else pure ())
  pure 0

/-! ### The project gate -/

/-- What the project gate sees where it returns. -/
structure ProjectEvidence (flavour : Flavour) where
  database : Option (List CompileEntry)
  resolve : CompileEntry → AbsolutePath flavour
  units : List Text

/-- The evidence is in order. -/
def ProjectEvidence.Accepted (evidence : ProjectEvidence flavour) (site : Site flavour) : Prop :=
  lintedUnits site.platform.lower site.root site.tree site.compileCommands evidence.database
    evidence.resolve = .ok evidence.units

/-- What is asked, with these answers. -/
def ProjectEvidence.log (evidence : ProjectEvidence flavour) (site : Site flavour)
    (host : HostTarget) : GateLog flavour :=
  (site.projectCommands host).map ran ++
    [⟨.compileDatabase site.compileCommands, .ok (evidence.database, evidence.resolve)⟩,
      ran (lintCommand host site.projectBuild evidence.units)]

/-- The commands of `verify_project`. -/
def Site.projectPlan (site : Site flavour) (host : HostTarget) : List (List Text) :=
  site.projectCommands host ++
    [lintCommand host site.projectBuild (translationUnits site.tree DOLPHIN_DEPENDENT_SOURCES)]

variable {site : Site flavour} {host : HostTarget} {arguments : Arguments} {asked : GateLog flavour}

/-- Where units are handed out, the named sources are there, and so is the database. -/
theorem lintedUnits_eq_ok {lower : Text → Text} {root : AbsolutePath flavour}
    {tree : Tree flavour} {path : Text} {database : Option (List CompileEntry)}
    {resolve : CompileEntry → AbsolutePath flavour} {units : List Text}
    (h : lintedUnits lower root tree path database resolve = .ok units) :
    tree.HasDependent ∧ (∃ entries, database = some entries) ∧
      units = translationUnits tree DOLPHIN_DEPENDENT_SOURCES := by
  cases hsources : dolphinDependentSources tree with
  | error e => simp [lintedUnits, hsources, bind, Except.bind] at h
  | ok names =>
    obtain ⟨hdependent, rfl⟩ := dolphinDependentSources_eq_ok hsources
    cases database with
    | none => simp [lintedUnits, hsources, compiledSources, bind, Except.bind] at h
    | some entries =>
      refine ⟨hdependent, ⟨entries, rfl⟩, ?_⟩
      rcases lintedUnits_cases hdependent with ⟨-, e, hraises⟩ | ⟨-, hok⟩
      · rw [h] at hraises
        cases hraises
      · exact Except.ok.inj (h.symm.trans hok)

/-- **The project gate returns** exactly on a database in order. -/
theorem ends_verifyProject_ok :
    (verifyProject site host).Ends asked (.ok ()) ↔ ∃ evidence : ProjectEvidence flavour,
      evidence.Accepted site ∧ asked = evidence.log site host := by
  rw [verifyProject, Script.ends_bind_ok]
  simp only [ask, ends_orRuntimeError_bind_ok, Script.ends_perform_bind_ok, ends_run_ok]
  constructor
  · rintro ⟨⟨⟩, _, _, hruns, ⟨_, -, ⟨database, resolve⟩, _, ⟨units, hunits, rfl⟩, rfl⟩, rfl⟩
    obtain rfl := ends_runAll_ok.1 hruns
    exact ⟨⟨database, resolve, units⟩, hunits, rfl⟩
  · rintro ⟨evidence, h, rfl⟩
    have hsources := dolphinDependentSources_eq (lintedUnits_eq_ok h).1
    exact ⟨(), _, _, ends_runAll_ok.2 rfl, ⟨_, hsources, ⟨evidence.database, evidence.resolve⟩, _,
      ⟨_, h, rfl⟩, rfl⟩, rfl⟩

/-- The project gate stops at a refusal. -/
theorem closed_verifyProject (site : Site flavour) (host : HostTarget) :
    (verifyProject site host).Closed := by
  refine (closed_runAll _).bind fun _ => ?_
  refine (closed_orRuntimeError _).bind fun _ => (Script.closed_perform _).bind fun database => ?_
  exact (closed_orRuntimeError _).bind fun units => Script.closed_perform _

/-- The commands of the project gate, whatever it is answered. -/
theorem follows_verifyProject (site : Site flavour) (host : HostTarget) :
    Follows (site.projectPlan host) (verifyProject site host) := by
  refine (follows_runAll _).bind fun _ _ _ => ?_
  refine (follows_orRuntimeError _).bind fun _ _ _ => ?_
  refine (follows_ask rfl).bind fun database _ _ => ?_
  refine (follows_orRuntimeError _).bind fun units _ h => ?_
  have hunits := mapError_eq_ok_iff.1 (Script.ends_ofExcept.1 h).2.symm
  rw [← (lintedUnits_eq_ok hunits).2.2]
  exact follows_run _

/-- On Windows no database is in order. -/
theorem ProjectEvidence.Accepted.posix {evidence : ProjectEvidence flavour}
    (h : evidence.Accepted site) : flavour = .posix := by
  cases flavour with
  | posix => rfl
  | windows =>
    obtain ⟨hdependent, ⟨entries, hdatabase⟩, -⟩ := lintedUnits_eq_ok h
    rw [ProjectEvidence.Accepted, hdatabase] at h
    obtain ⟨e, he⟩ := lintedUnits_windows hdependent
    rw [he] at h
    cases h

/-- **A database in order** has every translation unit that is not named, and what the two gates
lint is all there is. -/
theorem ProjectEvidence.Accepted.covers {evidence : ProjectEvidence flavour}
    (h : evidence.Accepted site) :
    (∃ entries, evidence.database = some entries ∧
        ¬Unlinted site.platform.lower site.root site.tree entries evidence.resolve) ∧
      ((∀ d ∈ site.tree.directories, d.suffix ≠ text ".cpp") →
        Partition site.tree evidence.units dependentUnitNames) := by
  obtain rfl := h.posix
  obtain ⟨hdependent, ⟨entries, hdatabase⟩, -⟩ := lintedUnits_eq_ok h
  rw [ProjectEvidence.Accepted, hdatabase] at h
  refine ⟨⟨entries, hdatabase, ?_⟩, fun hdirectories => ?_⟩
  · rintro ⟨f, hf, hsuffix, hnamed, hcompiled⟩
    obtain ⟨e, he⟩ := (lintedUnits_posix hdependent).2
      ⟨f, List.mem_append_left _ hf, hsuffix, hnamed, hcompiled⟩
    rw [h] at he
    cases he
  · have hruntime : dolphinDependentTranslationUnits site.tree = .ok dependentUnitNames :=
      congrArg (Except.map _) (dolphinDependentSources_eq hdependent)
    exact partition_posix hdependent hdirectories h hruntime

/-! ### The landing gate -/

/-- What the landing gate sees where it returns. -/
structure Evidence (flavour : Flavour) where
  host : HostTarget
  tools : GateLog flavour
  project : ProjectEvidence flavour
  runtime : Option RuntimeEvidence

/-- The evidence is in order. -/
structure Evidence.Accepted (evidence : Evidence flavour) (site : Site flavour)
    (arguments : Arguments) : Prop where
  host : Detected site.platform arguments evidence.host evidence.tools
  project : evidence.project.Accepted site
  complete : evidence.runtime.isSome = arguments.runtime
  runtime : ∀ r ∈ evidence.runtime, r.Accepted site evidence.host

/-- What is asked, with these answers. -/
def Evidence.log (evidence : Evidence flavour) (site : Site flavour) : GateLog flavour :=
  evidence.tools ++ evidence.project.log site evidence.host ++
    evidence.runtime.elim [] fun r => r.log site evidence.host

/-- The commands of the landing gate. -/
def Site.plan (site : Site flavour) (arguments : Arguments) (host : HostTarget)
    (options : EmbeddedOptions) : List (List Text) :=
  site.projectPlan host ++ if arguments.runtime then site.runtimePlan host options else []

/-- The matrix of hosts is the qualified one. -/
theorem selfTest_bind {α : Type} (f : Unit → Gate flavour α) : (selfTest >>= f) = f () := by
  have h : (selfTest : Gate flavour Unit) = pure () := if_neg (by decide)
  rw [h]
  rfl

/-- **The landing gate returns** exactly on evidence that is in order. -/
theorem ends_main_ok {code : ℕ} :
    (main site arguments).Ends asked (.ok code) ↔ code = 0 ∧ ∃ evidence : Evidence flavour,
      evidence.Accepted site arguments ∧ asked = evidence.log site := by
  rw [main, selfTest_bind]
  constructor
  · intro h
    obtain ⟨host, tools, _, htools, h₁, rfl⟩ := Script.ends_bind_ok.1 h
    obtain ⟨⟨⟩, _, _, hproject, h₂, rfl⟩ := Script.ends_bind_ok.1 h₁
    obtain ⟨project, haccepted, rfl⟩ := ends_verifyProject_ok.1 hproject
    obtain ⟨⟨⟩, runtimeLog, _, hruntime, h₃, rfl⟩ := Script.ends_bind_ok.1 h₂
    obtain ⟨rfl, hcode⟩ := Script.ends_pure.1 h₃
    refine ⟨(Except.ok.inj hcode), ?_⟩
    have hdetected := ends_detectHost_ok.1 htools
    split_ifs at hruntime with hasked
    · obtain ⟨runtime, hr, rfl⟩ := ends_verifyRuntime_ok.1 hruntime
      refine ⟨⟨host, tools, project, some runtime⟩, ⟨hdetected, haccepted, hasked.symm, ?_⟩,
        by simp [Evidence.log]⟩
      rintro r ⟨⟩
      exact hr
    · obtain ⟨rfl, -⟩ := Script.ends_pure.1 hruntime
      refine ⟨⟨host, tools, project, none⟩, ⟨hdetected, haccepted, ?_, ?_⟩, by simp [Evidence.log]⟩
      · simpa using hasked
      · rintro r ⟨⟩
  · rintro ⟨rfl, ⟨host, tools, project, runtime⟩, ⟨hdetected, haccepted, hasked, hruntime⟩, rfl⟩
    refine Script.ends_bind_ok.2 ⟨host, tools, _, ends_detectHost_ok.2 hdetected, ?_,
      List.append_assoc _ _ _⟩
    refine Script.ends_bind_ok.2
      ⟨(), _, _, ends_verifyProject_ok.2 ⟨project, haccepted, rfl⟩, ?_, rfl⟩
    refine Script.ends_bind_ok.2 ⟨(), _, [], ?_, Script.ends_pure.2 ⟨rfl, rfl⟩,
      (List.append_nil _).symm⟩
    cases runtime with
    | none =>
      rw [← hasked]
      exact Script.ends_pure.2 ⟨rfl, rfl⟩
    | some runtime =>
      rw [← hasked]
      exact ends_verifyRuntime_ok.2 ⟨runtime, hruntime runtime rfl, rfl⟩

/-- The landing gate stops at a refusal. -/
theorem closed_main (site : Site flavour) (arguments : Arguments) :
    (main site arguments).Closed := by
  rw [main, selfTest_bind]
  refine (closed_detectHost _ _).bind fun host => ?_
  refine (closed_verifyProject _ _).bind fun _ => ?_
  refine Script.Closed.bind ?_ fun _ => Script.closed_pure _
  split_ifs
  · exact closed_verifyRuntime site host
  · exact Script.closed_pure _

/-! ### Every run -/

/-- A checkout on Linux, on 64-bit Arm. -/
def sampleSite : Site .posix where
  root := ⟨['/'], [component .posix (text "checkout") (by decide)]⟩
  tree := sampleTree .posix
  executable := text "/usr/bin/python3"
  platform := ⟨text "Linux", text "aarch64", id⟩
  isalnum := fun _ => false
  str := fun _ => []
  repr := fun _ => []

/-- The runtime gate on a runner that should be on Linux. -/
def sampleArguments : Arguments := ⟨true, some .linux, none⟩

/-- The commands are the first ones of the plan for the host that was detected, with the
tools that were found for it, and all of them where the gate passes; those of the runtime
gate are for the options that were read in the manifest. -/
structure Planned (site : Site flavour) (arguments : Arguments) (asked : GateLog flavour)
    (r : Except GateError ℕ) (host : HostTarget) (options : EmbeddedOptions) : Prop where
  detected : ∃ tools, tools <+: asked ∧ Detected site.platform arguments host tools
  read : commands asked <+: site.projectPlan host ∨ site.ReadOptions asked options
  order : commands asked <+: site.plan arguments host options
  whole : ∀ code, r = .ok code → commands asked = site.plan arguments host options

/-- **What every run keeps to**: nothing is asked behind a refusal, nothing was refused where the
gate passes, and no command is run but those of the plan. -/
structure FailsClosed (site : Site flavour) (arguments : Arguments) (asked : GateLog flavour)
    (r : Except GateError ℕ) : Prop where
  before : ∀ a ∈ asked.dropLast, Script.granted a = true
  passes : ∀ code, r = .ok code → ∀ a ∈ asked, Script.granted a = true
  planned : (commands asked = [] ∧ ∃ e, r = .error e) ∨
    ∃ host options, Planned site arguments asked r host options

/-- The commands of the runtime gate, if it is asked for. -/
theorem planned_runtime {r : Except GateError Unit}
    (h : (if arguments.runtime then verifyRuntime site host else pure () : Gate flavour Unit).Ends
      asked r) :
    ∃ options, (commands asked = [] ∨ site.ReadOptions asked options) ∧
      commands asked <+: (if arguments.runtime then site.runtimePlan host options else []) ∧
      (r = .ok () →
        commands asked = if arguments.runtime then site.runtimePlan host options else []) := by
  split_ifs at h with hasked
  · simp only [if_pos hasked]
    rcases planned_verifyRuntime h with ⟨hnone, e, rfl⟩ | ⟨options, hread, horder, hwhole⟩
    · refine ⟨⟨[], []⟩, .inl hnone, hnone ▸ List.nil_prefix, ?_⟩
      rintro ⟨⟩
    · exact ⟨options, .inr hread, horder, hwhole⟩
  · simp only [if_neg hasked]
    obtain ⟨rfl, -⟩ := Script.ends_pure.1 h
    exact ⟨⟨[], []⟩, .inl rfl, List.prefix_refl [], fun _ => rfl⟩

/-- Behind the detection of the host, the commands are those of the plan. -/
theorem planned_main {r : Except GateError ℕ} (h : (main site arguments).Ends asked r) :
    (commands asked = [] ∧ ∃ e, r = .error e) ∨
      ∃ host options, Planned site arguments asked r host options := by
  rw [main, selfTest_bind] at h
  rcases (follows_detectHost _ _).of_bind h with
    ⟨e, rfl, hnone⟩ | ⟨host, tools, rest, htools, hrest, rfl, htaken⟩
  · exact .inl ⟨List.prefix_nil.1 hnone, e, rfl⟩
  · have hdetected : ∃ t, t <+: tools ++ rest ∧ Detected site.platform arguments host t :=
      ⟨tools, List.prefix_append _ _, ends_detectHost_ok.1 htools⟩
    have hcommands : commands (tools ++ rest) = commands rest := htaken
    rcases (follows_verifyProject site host).of_bind hrest with
      ⟨e, rfl, hproject⟩ | ⟨⟨⟩, asked₁, rest, -, h₁, rfl, htaken₁⟩
    · refine .inr ⟨host, ⟨[], []⟩, hdetected, .inl ?_, ?_, ?_⟩
      · rwa [hcommands]
      · rw [hcommands]
        exact hproject.trans (List.prefix_append _ _)
      · rintro code ⟨⟩
    · obtain ⟨r', hruntime, hok⟩ : ∃ r', (if arguments.runtime then verifyRuntime site host
          else pure () : Gate flavour Unit).Ends rest r' ∧ ∀ code, r = .ok code → r' = .ok () := by
        rcases Script.ends_bind.1 h₁ with ⟨e, rfl, hends⟩ | ⟨⟨⟩, asked₂, _, hends, hcode, rfl⟩
        · exact ⟨_, hends, fun code hcode => by cases hcode⟩
        · obtain ⟨rfl, -⟩ := Script.ends_pure.1 hcode
          exact ⟨_, by rwa [List.append_nil], fun _ _ => rfl⟩
      obtain ⟨options, hread, horder, hwhole⟩ := planned_runtime hruntime
      have hall : commands (tools ++ (asked₁ ++ rest)) = site.projectPlan host ++ commands rest :=
        hcommands.trans htaken₁
      refine .inr ⟨host, options, hdetected, ?_, ?_, fun code hcode => ?_⟩
      · rcases hread with hnone | ⟨manifest, hmem, hoptions⟩
        · rw [hall, hnone, List.append_nil]
          exact .inl (List.prefix_refl _)
        · exact .inr ⟨manifest, by simp [hmem], hoptions⟩
      · rw [hall, Site.plan, List.prefix_append_right_inj]
        exact horder
      · rw [hall, Site.plan, hwhole (hok code hcode)]

/-- **The landing gate fails closed**, whatever answers. -/
theorem landing_gate_fails_closed {σ : Type} {H : World flavour σ} {s s' : σ}
    {r : Except GateError ℕ} (h : (main site arguments).run.run H s = some (r, asked, s')) :
    FailsClosed site arguments asked r := by
  have hends : (main site arguments).Ends asked r := (Program.run_eq_some_iff.1 h).1
  have hclosed := closed_main site arguments
  refine ⟨hclosed.before asked r hends, ?_, planned_main hends⟩
  rintro code rfl
  exact hclosed.returns asked code hends

/-- A host that refuses everything. -/
def refusing : World flavour Unit := fun _ s => some (.error (.refused []), s)

/-- Where everything is refused, no command is run. -/
theorem landing_gate_fails_closed_refusing :
    FailsClosed sampleSite sampleArguments
      [⟨.which (text "clang-format"), .error (.refused [])⟩] (.error (.refused [])) :=
  landing_gate_fails_closed (H := refusing) (s := ()) rfl

/-! ### Where the gate can pass -/

/-- A database of everything that is in the tree, each entry named after its path. -/
def completeDatabase (tree : Tree flavour) : List CompileEntry :=
  (tree.files ++ tree.directories).map fun p => ⟨[], p.asPosix⟩

/-- Where its entries resolve to. -/
def resolveUnder (root : AbsolutePath flavour) (tree : Tree flavour) (entry : CompileEntry) :
    AbsolutePath flavour :=
  ((tree.files ++ tree.directories).find? fun p => p.asPosix = entry.file).elim root root.join

/-- **A complete database is in order**, on POSIX. -/
theorem lintedUnits_completeDatabase {site : Site .posix} (h : site.tree.HasDependent) :
    ∃ units, lintedUnits site.platform.lower site.root site.tree site.compileCommands
      (some (completeDatabase site.tree)) (resolveUnder site.root site.tree) = .ok units := by
  cases hlinted : lintedUnits site.platform.lower site.root site.tree site.compileCommands
      (some (completeDatabase site.tree)) (resolveUnder site.root site.tree) with
  | ok units => exact ⟨units, rfl⟩
  | error e =>
    obtain ⟨p, hp, -, -, hcompiled⟩ := (lintedUnits_posix h).1 ⟨e, hlinted⟩
    refine absurd ⟨⟨[], p.asPosix⟩, List.mem_map.2 ⟨p, hp, rfl⟩, ?_⟩ hcompiled
    have hfind : (site.tree.files ++ site.tree.directories).find?
        (fun q => q.asPosix = p.asPosix) = some p := by
      cases hq : (site.tree.files ++ site.tree.directories).find?
          (fun q => q.asPosix = p.asPosix) with
      | none =>
        have hnone := List.find?_eq_none.1 hq p hp
        simp at hnone
      | some q =>
        have hsame : q.asPosix = p.asPosix := by simpa using List.find?_some hq
        rw [RelativePath.asPosix_inj.1 hsame]
    rw [resolveUnder, hfind]
    exact ⟨rfl, rfl⟩

/-- The manifest with one option of each kind. -/
def sampleManifest : Json :=
  .object [(text "dolphin", .object [(text "embedded_build_options", .object
    [(text "off", .array [.string (text "ENABLE_QT")]),
      (text "linux_off", .array [.string (text "ENABLE_ALSA")])])])]

/-- What CMake writes of its compiler. -/
def compilerSource (id : Text) : Text := compilerMarker ++ id ++ text "\")\n"

/-- The name of the compiler is read back. -/
theorem compilerIdentity_compilerSource {platform : Platform}
    (h : host.Qualified platform arguments) :
    compilerIdentity (compilerSource host.cmakeCompilerId) = .ok host.cmakeCompilerId := by
  have hid : ∀ system : OperatingSystem, compilerIdentity (compilerSource system.toolchain.2.2) =
      .ok system.toolchain.2.2 := by
    rintro (_ | _ | _) <;> decide
  have := hid host.operatingSystem
  rwa [h.toolchain] at this

/-- On POSIX, with the named sources, some answers let a qualified host pass. -/
theorem exists_evidence {site : Site .posix} (htree : site.tree.HasDependent)
    (hhost : host.Qualified site.platform arguments) :
    ∃ evidence : Evidence .posix, evidence.Accepted site arguments := by
  obtain ⟨units, hunits⟩ := lintedUnits_completeDatabase htree
  obtain ⟨listing, output, hlisting, houtput⟩ := inventory_met site.isalnum host
  have hid := compilerIdentity_compilerSource hhost
  have hdependent : dolphinDependentTranslationUnits site.tree = .ok dependentUnitNames :=
    congrArg (Except.map _) (dolphinDependentSources_eq htree)
  let runtime : RuntimeEvidence :=
    ⟨sampleManifest, ⟨[text "ENABLE_QT"], [text "ENABLE_ALSA"]⟩,
      ⟨[], compilerSource host.cmakeCompilerId⟩, listing, output,
      ⟨[], compilerSource host.cmakeCompilerId⟩, dependentUnitNames⟩
  have hruntime : runtime.Accepted site host :=
    ⟨rfl, hid, hhost.target.supported, hlisting, houtput, hid, hdependent⟩
  refine ⟨⟨host, _, ⟨some (completeDatabase site.tree), resolveUnder site.root site.tree, units⟩,
    if arguments.runtime then some runtime else none⟩,
    ⟨⟨hhost, _, _, .found host.formatter, .found host.linter, rfl⟩, hunits, ?_, ?_⟩⟩
  · cases arguments.runtime <;> rfl
  · intro r hr
    split_ifs at hr with hasked
    · obtain rfl := Option.some.inj hr
      exact hruntime
    · cases hr

/-- So a gate can pass. -/
theorem exists_pass {site : Site .posix} (htree : site.tree.HasDependent)
    (hhost : host.Qualified site.platform arguments) : ∃ asked,
      (main site arguments).run.run Program.replay asked = some (.ok 0, asked, []) := by
  obtain ⟨evidence, haccepted⟩ := exists_evidence htree hhost
  refine ⟨evidence.log site, Program.run_eq_some_iff.2 ⟨?_, Program.plays_replay _⟩⟩
  exact ends_main_ok.2 ⟨rfl, evidence, haccepted, rfl⟩

/-- **Where the landing gate can pass**: some answers let it pass exactly if the host is POSIX,
the platform is a supported target that is as expected, and the named sources are there. -/
theorem landing_gate_can_pass_iff (site : Site flavour) (arguments : Arguments) :
    (∃ (σ : Type) (H : World flavour σ) (s s' : σ) (asked : GateLog flavour),
        (main site arguments).run.run H s = some (.ok 0, asked, s')) ↔
      flavour = .posix ∧ site.tree.HasDependent ∧ ∃ target, site.platform.Is arguments target := by
  constructor
  · rintro ⟨σ, H, s, s', asked, h⟩
    obtain ⟨-, evidence, haccepted, -⟩ := ends_main_ok.1 (Program.run_eq_some_iff.1 h).1
    exact ⟨haccepted.project.posix, (lintedUnits_eq_ok haccepted.project).1, _,
      haccepted.host.qualified.target⟩
  · rintro ⟨rfl, htree, target, htarget⟩
    let host : HostTarget := ⟨target.1, target.2, target.1.toolchain.1, target.1.toolchain.2.1,
      target.1.toolchain.2.2, [], []⟩
    have hhost : host.Qualified site.platform arguments := ⟨htarget, rfl⟩
    obtain ⟨asked, hpass⟩ := exists_pass htree hhost
    exact ⟨_, Program.replay, asked, [], asked, hpass⟩

/-! ### What a pass shows -/

/-- The required tests were listed, each once; they were selected, run and passed. -/
structure Tested (site : Site flavour) (host : HostTarget) (asked : GateLog flavour) : Prop where
  listed : ∃ listing, ⟨.captured (site.listTests host), .ok listing⟩ ∈ asked ∧
    ∀ name ∈ host.inventory, (discover site.isalnum listing).found.count name = 1
  selected : (joined ':' host.inventory).splitOn ':' = host.inventory ∧
    ∀ name ∈ host.inventory, ∀ c ∈ name, c ∉ ['*', '?', '-']
  passed : ∃ output, ⟨.captured (site.runTests host host.inventory), .ok output⟩ ∈ asked ∧
    failurePattern.search output = false ∧
    (∀ status ∈ STATUSES, ((statusPattern status).findall output).Perm host.inventory) ∧
    summaryPattern.findall output = [str host.inventory.length]

/-- **What a pass shows.** -/
structure Shown (site : Site flavour) (arguments : Arguments) (host : HostTarget)
    (asked : GateLog flavour) : Prop where
  qualified : host.Qualified site.platform arguments
  posix : flavour = .posix
  compiled : ∃ entries resolve,
    ⟨.compileDatabase site.compileCommands, .ok (some entries, resolve)⟩ ∈ asked ∧
      ¬Unlinted site.platform.lower site.root site.tree entries resolve
  linted : ∃ project, ran (lintCommand host site.projectBuild project) ∈ asked ∧
    (arguments.runtime = true →
      ran (lintCommand host site.adapterBuild dependentUnitNames) ∈ asked ∧
        ((∀ d ∈ site.tree.directories, d.suffix ≠ text ".cpp") →
          Partition site.tree project dependentUnitNames))
  tested : arguments.runtime = true → Tested site host asked
  compilers : arguments.runtime = true → ∀ files ∈ [site.runtimeFiles, site.adapterFiles],
    ∃ identity : Identity, compilerIdentity identity.source = .ok host.cmakeCompilerId ∧
      identity.log files ⊆ asked

/-- The evidence of the runtime gate says that the required tests were run. -/
theorem RuntimeEvidence.Accepted.tested {evidence : RuntimeEvidence}
    (h : evidence.Accepted site host) (hasked : evidence.log site host ⊆ asked) :
    Tested site host asked := by
  obtain ⟨hsearch, hrun, hok, hsummary⟩ := validateResult_eq_ok_iff.1 h.output
  refine ⟨⟨evidence.listing, hasked ?_, validateListing_eq_ok_iff.1 h.listing⟩,
    splitOn_filter host, evidence.output, hasked ?_, hsearch, ?_, hsummary⟩
  · simp [RuntimeEvidence.log]
  · simp [RuntimeEvidence.log]
  · intro status hstatus
    rcases List.mem_pair.1 hstatus with rfl | rfl
    · exact hrun
    · exact hok

/-- **What a pass of the landing gate shows**, whatever answered. -/
theorem landing_gate_shows {σ : Type} {H : World flavour σ} {s s' : σ} {code : ℕ}
    (h : (main site arguments).run.run H s = some (.ok code, asked, s')) :
    ∃ host, Shown site arguments host asked := by
  obtain ⟨-, evidence, haccepted, rfl⟩ := ends_main_ok.1 (Program.run_eq_some_iff.1 h).1
  obtain ⟨⟨entries, hdatabase, hcompiled⟩, hpartition⟩ := haccepted.project.covers
  have hruntime (hasked : arguments.runtime = true) : ∃ r : RuntimeEvidence,
      r.Accepted site evidence.host ∧ r.log site evidence.host ⊆ evidence.log site := by
    have hsome := haccepted.complete
    rw [hasked, Option.isSome_iff_exists] at hsome
    obtain ⟨r, hr⟩ := hsome
    refine ⟨r, haccepted.runtime r hr, ?_⟩
    rw [Evidence.log, hr]
    exact List.subset_append_right _ _
  refine ⟨evidence.host, haccepted.host.qualified, haccepted.project.posix,
    ⟨entries, evidence.project.resolve, ?_, hcompiled⟩,
    ⟨evidence.project.units, ?_, fun hasked => ⟨?_, hpartition⟩⟩, fun hasked => ?_,
    fun hasked => ?_⟩
  · simp [Evidence.log, ProjectEvidence.log, hdatabase]
  · simp [Evidence.log, ProjectEvidence.log]
  · obtain ⟨r, hr, hlog⟩ := hruntime hasked
    rw [← dolphinDependentTranslationUnits_eq_ok hr.units]
    exact hlog (by simp [RuntimeEvidence.log, Site.adapterLog])
  · obtain ⟨r, hr, hlog⟩ := hruntime hasked
    exact hr.tested hlog
  · obtain ⟨r, hr, hlog⟩ := hruntime hasked
    intro files hfiles
    rcases List.mem_pair.1 hfiles with rfl | rfl
    · refine ⟨r.runtime, hr.runtime, fun a ha => hlog ?_⟩
      simp [RuntimeEvidence.log, ha]
    · refine ⟨r.adapter, hr.adapter, fun a ha => hlog ?_⟩
      simp [RuntimeEvidence.log, Site.adapterLog, ha]

/-- A pass of both gates on the sample checkout. -/
theorem landing_gate_shows_sample :
    ∃ asked host, Shown sampleSite sampleArguments host asked := by
  have htarget : sampleSite.platform.target sampleArguments = .ok (.linux, .arm64) := rfl
  have hhost : HostTarget.Qualified sampleSite.platform sampleArguments
      ⟨.linux, .arm64, text "clang", text "clang++", text "Clang", text "clang-format",
        text "clang-tidy"⟩ :=
    ⟨target_eq_ok_iff.1 htarget, rfl⟩
  obtain ⟨asked, hpass⟩ := exists_pass (sampleTree_hasDependent .posix) hhost
  exact ⟨asked, landing_gate_shows hpass⟩

end

end Tools
end GcnPort
