/-
# The runtime gate

`tools/gcnport_tools/dolphin_runtime.py`, and the inventory of
`tools/gcnport_tools/dolphin_tests.py`.  The gate builds Dolphin on its own and runs the
required tests of its test binary, whose listing and whose log it validates; then it
builds the adapter, tests it and lints what only that build compiles.  Each of the two
builds must have been configured with the compiler that the host is qualified with.
-/

import GcnPort.Tools.Host
import GcnPort.Tools.PassingLog

namespace GcnPort
namespace Tools

open Foundation

/-! ### The required tests -/

/-- `SHIPPING_JIT_TEST`. -/
def SHIPPING_JIT_TEST : Text := text "GcnPortRuntime.ShippingJitCacheHookOriginalAndInvalidation"

/-- `COMMON_TESTS`. -/
def COMMON_TESTS : List Text :=
  [SHIPPING_JIT_TEST,
    text "GcnPortRuntime.BootAuthenticatedImageAppliesGameCubeOsInitRegisters",
    text "GcnPortRuntime.BootAuthenticatedImageDefaultsToNoGameCubeOsInit",
    text "GcnPortRuntime.ExecuteJitBlockAdvancesCoreTimingAndRunsExactlyOneBlock",
    text "GcnPortRuntime.BootOwnsTheSubsystemsDolphinDereferencesUnchecked",
    text "GcnPortRuntime.ExecuteJitBlocksChainsBlocksAndRestoresTheOneBlockCap",
    text "GcnPortRuntime.DiscImageRefusalsNeverBootSilentlyWithoutTheDisc",
    text "GcnPortRuntime.DiscRegionAndShippedSettingsConfigureTheConsole",
    text "GcnPortRuntime.MemoryCardAttachesOnlyWhenTheConsumerNamesOne",
    text "GcnPortRuntime.MediaInitOwnsHeadlessVideoAndDspOrRefuses",
    text "GcnPortRuntime.PublicAdapterBootExecuteOriginalAndTypedFallback",
    text "GcnPortRuntime.HookCallsOriginalSynchronouslyThenResumesNativeWork",
    text "GcnPortRuntime.ClassifyFallbackReasonMatchesStaticOpcodeTables",
    text "GcnPortRuntime.FallbackAccountingNamesItsSitesAndReportsItsOwnTruncation",
    text "GcnPortRuntime.BootAuthenticatedImageAppliesGameCubeHardwareInitMmio",
    text "GcnPortRuntime.BootAuthenticatedImageWithoutHardwareInitFaultsOnMmioAccess",
    text "MsgHandlerTest.AssertForwardsZeroOneAndTwoFormatArguments",
    text "MsgHandlerTest.SuccessfulConditionDoesNotEvaluateArgumentsOrReachSink",
    text "MsgHandlerTest.HandlerRegistrationReturnsAndRestoresPreviousOwner",
    text "MemberOffset.AddressesLiveNonStandardSubobjects",
    text "MemberOffsetDeathTest.RejectsForeignSubobject",
    text "SocketHandle.NativeDescriptorIdentity",
    text "AMMediaboardSocket.NativeIdentitySurvivesAcquisitionAndMapping",
    text "AMMediaboardSocket.FailedNativeAcquisitionNeverPublishesOrConfigures",
    text "AMMediaboardSocket.UnavailableGuestSlotNeverAcquiresNativeResource",
    text "SSLTransportTest.BinaryPayloadRetryAndEndOfStream",
    text "SSLTransportTest.InvalidContextAndWriteBackpressure",
    text "SSLTransportTest.ClosedSocketFailsAndResetIsDistinct"]

/-- `POSIX_TESTS`. -/
def POSIX_TESTS : List Text := [text "SSLTransportTest.MatchesMbedTLSReference"]

/-- `X64_TESTS`. -/
def X64_TESTS : List Text :=
  [text "DSPJitState.RegisterOperandsAddressTheLiveState",
    text "DSPJitState.ClearProductWritesOnlyTheProductRegister",
    text "Jit64.StateOffsetsAddressTheLiveState"]

/-- The tests that a host requires. -/
def HostTarget.inventory (host : HostTarget) : List Text :=
  COMMON_TESTS ++ (if host.operatingSystem ≠ .windows then POSIX_TESTS else []) ++
    if host.architecture = .x64 then X64_TESTS else []

/-- `required_tests`; `repr` is that of the data class. -/
def requiredTests (repr : HostTarget → Text) (host : HostTarget) :
    Except RuntimeError (List Text) :=
  if SUPPORTED_TARGETS.contains (host.operatingSystem, host.architecture) then
    .ok host.inventory
  else
    .error ⟨text "no Dolphin regression inventory for " ++ repr host⟩

/-- The suite of a test. -/
def suiteOf (name : Text) : Text := name.takeWhile (· ≠ '.')

/-- The test behind its suite. -/
def testOf (name : Text) : Text := name.drop ((suiteOf name).length + 1)

/-! ### What the gate reads -/

/-- `document[key]`. -/
def Json.index (key : Text) : Json → Except GateError Json
  | .object members =>
    match members.lookup key with
    | some value => .ok value
    | none => .error (.keyError key)
  | _ => .error .typeError

/-- `str(value)`; of a value that is no string, it is a parameter. -/
def Json.str (other : Json → Text) : Json → Text
  | .string value => value
  | value => other value

/-- One member of `embedded_build_options`. -/
def optionNames (other : Json → Text) (options : Json) (member : Text) :
    Except GateError (List Text) :=
  match options with
  | .object members =>
    match members.lookup member with
    | some (.array (name :: names)) => .ok ((name :: names).map (Json.str other))
    | _ => .error (.runtimeError
        ⟨text "dependencies.json has no non-empty dolphin.embedded_build_options." ++ member ++
          text " array"⟩)
  | _ => .error .attributeError

/-- The names of the options of the embedded build. -/
structure EmbeddedOptions where
  off : List Text
  linuxOff : List Text

/-- `_embedded_option_names` of the manifest. -/
def embeddedOptionNames (other : Json → Text) (manifest : Json) :
    Except GateError EmbeddedOptions := do
  let dolphin ← manifest.index (text "dolphin")
  let options ← dolphin.index (text "embedded_build_options")
  let off ← optionNames other options (text "off")
  let linuxOff ← optionNames other options (text "linux_off")
  pure ⟨off, linuxOff⟩

/-- `source.find(marker)`. -/
def find (marker source : Text) : Option ℕ :=
  source.tails.findIdx? fun rest => marker.isPrefixOf rest

/-- `marker` of `_compiler_id`. -/
def compilerMarker : Text := text "set(CMAKE_CXX_COMPILER_ID \""

/-- `_compiler_id` of the source. -/
def compilerIdentity (source : Text) : Except RuntimeError Text :=
  match find compilerMarker source with
  | none => .error ⟨text "CMake compiler identity is absent"⟩
  | some start =>
    let rest := source.drop (start + compilerMarker.length)
    match find ['"'] rest with
    | some length => .ok (rest.take length)
    -- `find` returns -1, so the slice ends before the last character.
    | none => .ok rest.dropLast

/-! ### The commands -/

/-- A name that is a component of a path on every host. -/
abbrev PlainName (name : Text) : Prop :=
  name ≠ [] ∧ name ≠ ['.'] ∧ ∀ c ∈ name, c ≠ '/' ∧ c ≠ '\\'

/-- The checkout, and the Python that runs the gate. -/
structure Site (flavour : Flavour) where
  root : AbsolutePath flavour
  tree : Tree flavour
  executable : Text
  platform : Platform
  isalnum : Char → Bool
  str : Json → Text
  repr : HostTarget → Text

section

variable {flavour : Flavour}

/-- `str(root / names)`. -/
def Site.path (site : Site flavour) (names : List Text) (h : ∀ name ∈ names, PlainName name) :
    Text :=
  (site.root.join ⟨names.pmap (component flavour) h⟩).str

/-- `build` of `verify_runtime`. -/
def Site.runtimeBuild (site : Site flavour) : Text :=
  site.path [text "build", text "dolphin-runtime"] (by decide)

/-- `build / "CMakeFiles"` of `verify_runtime`. -/
def Site.runtimeFiles (site : Site flavour) : Text :=
  site.path [text "build", text "dolphin-runtime", text "CMakeFiles"] (by decide)

/-- `build` of `_verify_dolphin_adapter`. -/
def Site.adapterBuild (site : Site flavour) : Text :=
  site.path [text "build", text "dolphin-adapter"] (by decide)

/-- `build / "CMakeFiles"` of `_verify_dolphin_adapter`. -/
def Site.adapterFiles (site : Site flavour) : Text :=
  site.path [text "build", text "dolphin-adapter", text "CMakeFiles"] (by decide)

/-- `root / "dependencies.json"` of `_embedded_option_names`. -/
def Site.manifest (site : Site flavour) : Text :=
  site.path [text "dependencies.json"] (by decide)

/-- `executable` of `verify_runtime`. -/
def Site.testBinary (site : Site flavour) (host : HostTarget) : Text :=
  if host.operatingSystem = .windows then
    site.path [text "build", text "dolphin-runtime", text "Binaries", text "Tests",
      text "tests.exe"] (by decide)
  else
    site.path [text "build", text "dolphin-runtime", text "Binaries", text "Tests",
      text "tests"] (by decide)

/-- `f"-D{name}=OFF"`. -/
def switchedOff (name : Text) : Text := text "-D" ++ name ++ text "=OFF"

/-- What both builds of the gate are configured with. -/
def configureCommand (source build : Text) (host : HostTarget) : List Text :=
  [text "cmake", text "-S", source, text "-B", build, text "-G", text "Ninja",
    text "-DCMAKE_C_COMPILER=" ++ host.cCompiler, text "-DCMAKE_CXX_COMPILER=" ++ host.cxxCompiler,
    text "-DCMAKE_BUILD_TYPE=Release"]

/-- Configure Dolphin. -/
def Site.configureRuntime (site : Site flavour) (host : HostTarget) (options : EmbeddedOptions) :
    List Text :=
  configureCommand (site.path [text "extern", text "dolphin"] (by decide)) site.runtimeBuild host ++
    (text "-DENABLE_TESTS=ON" :: options.off.map switchedOff) ++
    if host.operatingSystem = .linux then options.linuxOff.map switchedOff else []

/-- Configure the adapter. -/
def Site.configureAdapter (site : Site flavour) (host : HostTarget) : List Text :=
  configureCommand site.root.str site.adapterBuild host ++
    [text "-DGCPORT_BUILD_DOLPHIN_ADAPTER=ON"]

/-- List the tests. -/
def Site.listTests (site : Site flavour) (host : HostTarget) : List Text :=
  [site.testBinary host, text "--gtest_list_tests"]

/-- Run the tests. -/
def Site.runTests (site : Site flavour) (host : HostTarget) (expected : List Text) : List Text :=
  [site.testBinary host, text "--gtest_filter=" ++ joined ':' expected]

/-- Test the adapter. -/
def Site.testAdapter (site : Site flavour) : List Text :=
  [text "ctest", text "--test-dir", site.adapterBuild, text "-R", text "dolphin_adapter",
    text "--output-on-failure"]

/-- Lint what a build compiles. -/
def lintCommand (host : HostTarget) (build : Text) (units : List Text) : List Text :=
  [host.linter, text "-p", build, text "--config-file=.clang-tidy"] ++ units

/-! ### The gate -/

/-- `_compiler_id`. -/
def compilerId (files : Text) : Gate flavour Text := do
  match ← ask (.compilerFiles files) with
  | [candidate] =>
    let source ← ask (.source candidate)
    orRuntimeError (compilerIdentity source)
  | candidates =>
    raise (.runtimeError ⟨text "expected one CMake compiler identity file, found " ++
      str candidates.length⟩)

/-- The build was configured with the compiler of the host. -/
def checkCompiler (what files : Text) (host : HostTarget) : Gate flavour Unit := do
  let actual ← compilerId files
  if actual ≠ host.cmakeCompilerId then
    raise (.runtimeError ⟨what ++ text " compiler mismatch: expected " ++ host.cmakeCompilerId ++
      text ", found " ++ actual⟩)
  else
    pure ()

/-- `_verify_dolphin_adapter`. -/
def verifyDolphinAdapter (site : Site flavour) (host : HostTarget) : Gate flavour Unit := do
  run (site.configureAdapter host)
  checkCompiler (text "Dolphin adapter") site.adapterFiles host
  buildNinja site.adapterBuild (some (text "gcnport_dolphin_adapter_test"))
  run site.testAdapter
  let units ← orRuntimeError (dolphinDependentTranslationUnits site.tree)
  run (lintCommand host site.adapterBuild units)

/-- `verify_runtime`, from the configuration on. -/
def verifyConfigured (site : Site flavour) (host : HostTarget) (options : EmbeddedOptions) :
    Gate flavour Unit := do
  run (site.configureRuntime host options)
  checkCompiler (text "Dolphin") site.runtimeFiles host
  buildNinja site.runtimeBuild (some (text "tests"))
  let listing ← capture (site.listTests host)
  let expected ← orRuntimeError (requiredTests site.repr host)
  Script.ofExcept ((validateListing site.isalnum listing expected).mapError .discovery)
  let output ← capture (site.runTests host expected)
  Script.ofExcept ((validateResult output expected).mapError .evidence)
  verifyDolphinAdapter site host

/-- `verify_runtime`. -/
def verifyRuntime (site : Site flavour) (host : HostTarget) : Gate flavour Unit := do
  let manifest ← ask (.json site.manifest)
  let options ← Script.ofExcept (embeddedOptionNames site.str manifest)
  verifyConfigured site host options

/-! ### How the gate returns -/

/-- The one identity file of a build, and what it says. -/
structure Identity where
  file : Text
  source : Text

/-- Reading it. -/
def Identity.log (identity : Identity) (files : Text) : GateLog flavour :=
  [⟨.compilerFiles files, .ok [identity.file]⟩, ⟨.source identity.file, .ok identity.source⟩]

/-- What the gate sees where it returns. -/
structure RuntimeEvidence where
  manifest : Json
  options : EmbeddedOptions
  runtime : Identity
  listing : Text
  output : Text
  adapter : Identity
  units : List Text

/-- The evidence is in order. -/
structure RuntimeEvidence.Accepted (evidence : RuntimeEvidence) (site : Site flavour)
    (host : HostTarget) : Prop where
  options : embeddedOptionNames site.str evidence.manifest = .ok evidence.options
  runtime : compilerIdentity evidence.runtime.source = .ok host.cmakeCompilerId
  supported : (host.operatingSystem, host.architecture) ∈ SUPPORTED_TARGETS
  listing : validateListing site.isalnum evidence.listing host.inventory = .ok ()
  output : validateResult evidence.output host.inventory = .ok ()
  adapter : compilerIdentity evidence.adapter.source = .ok host.cmakeCompilerId
  units : dolphinDependentTranslationUnits site.tree = .ok evidence.units

/-- What is asked of the adapter. -/
def Site.adapterLog (site : Site flavour) (host : HostTarget) (identity : Identity)
    (units : List Text) : GateLog flavour :=
  ran (site.configureAdapter host) :: identity.log site.adapterFiles ++
    [ran (ninjaCommand site.adapterBuild (some (text "gcnport_dolphin_adapter_test"))),
      ran site.testAdapter, ran (lintCommand host site.adapterBuild units)]

/-- What is asked, with these answers. -/
def RuntimeEvidence.log (evidence : RuntimeEvidence) (site : Site flavour) (host : HostTarget) :
    GateLog flavour :=
  [⟨.json site.manifest, .ok evidence.manifest⟩,
      ran (site.configureRuntime host evidence.options)] ++
    evidence.runtime.log site.runtimeFiles ++
    [ran (ninjaCommand site.runtimeBuild (some (text "tests"))),
      ⟨.captured (site.listTests host), .ok evidence.listing⟩,
      ⟨.captured (site.runTests host host.inventory), .ok evidence.output⟩] ++
    site.adapterLog host evidence.adapter evidence.units

variable {site : Site flavour} {host : HostTarget} {asked : GateLog flavour} {what files : Text}

/-- The tests of a supported host are its inventory. -/
theorem requiredTests_eq_ok_iff {repr : HostTarget → Text} {expected : List Text} :
    requiredTests repr host = .ok expected ↔
      (host.operatingSystem, host.architecture) ∈ SUPPORTED_TARGETS ∧
        expected = host.inventory := by
  rw [requiredTests]
  split_ifs with h
  · rw [List.contains_iff_mem] at h
    simp [h, eq_comm]
  · rw [List.contains_iff_mem] at h
    simp [h]

/-- The compiler is read from the one identity file there is. -/
theorem ends_compilerId_ok {actual : Text} :
    (compilerId files).Ends asked (.ok actual) ↔ ∃ identity : Identity,
      compilerIdentity identity.source = .ok actual ∧ asked = identity.log files := by
  rw [compilerId, ask, Script.ends_perform_bind_ok]
  constructor
  · rintro ⟨candidates, rest, h, rfl⟩
    rcases candidates with _ | ⟨candidate, _ | ⟨candidate', candidates⟩⟩
    · exact absurd h Script.not_ends_throw_ok
    · obtain ⟨source, _, hsource, rfl⟩ := Script.ends_perform_bind_ok.1 h
      obtain ⟨rfl, hidentity⟩ := Script.ends_ofExcept.1 hsource
      exact ⟨⟨candidate, source⟩, mapError_eq_ok_iff.1 hidentity.symm, rfl⟩
    · exact absurd h Script.not_ends_throw_ok
  · rintro ⟨identity, hidentity, rfl⟩
    refine ⟨[identity.file], _, Script.ends_perform_bind_ok.2 ⟨identity.source, [], ?_, rfl⟩, rfl⟩
    exact Script.ends_ofExcept.2 ⟨rfl, (mapError_eq_ok_iff.2 hidentity).symm⟩

/-- **The compiler is checked** against the one identity file of the build. -/
theorem ends_checkCompiler_ok :
    (checkCompiler what files host).Ends asked (.ok ()) ↔ ∃ identity : Identity,
      compilerIdentity identity.source = .ok host.cmakeCompilerId ∧ asked = identity.log files := by
  rw [checkCompiler, Script.ends_bind_ok]
  simp only [ends_compilerId_ok]
  constructor
  · rintro ⟨actual, _, rest, ⟨identity, hidentity, rfl⟩, h, rfl⟩
    split_ifs at h with hactual
    · exact absurd h Script.not_ends_throw_ok
    · obtain ⟨rfl, -⟩ := Script.ends_pure.1 h
      rw [not_not] at hactual
      exact ⟨identity, hactual ▸ hidentity, List.append_nil _⟩
  · rintro ⟨identity, hidentity, rfl⟩
    refine ⟨_, _, [], ⟨identity, hidentity, rfl⟩, ?_, (List.append_nil _).symm⟩
    rw [if_neg (not_not.2 rfl)]
    exact Script.ends_pure.2 ⟨rfl, rfl⟩

/-- How a part returns that checks the compiler first. -/
theorem ends_checkCompiler_bind_ok {β : Type} {f : Unit → Gate flavour β} {result : β} :
    (checkCompiler what files host >>= f).Ends asked (.ok result) ↔
      ∃ (identity : Identity) (rest : GateLog flavour),
      compilerIdentity identity.source = .ok host.cmakeCompilerId ∧ (f ()).Ends rest (.ok result) ∧
        asked = identity.log files ++ rest := by
  rw [Script.ends_bind_ok]
  constructor
  · rintro ⟨⟨⟩, _, rest, h, hrest, rfl⟩
    obtain ⟨identity, hidentity, rfl⟩ := ends_checkCompiler_ok.1 h
    exact ⟨identity, rest, hidentity, hrest, rfl⟩
  · rintro ⟨identity, rest, hidentity, hrest, rfl⟩
    exact ⟨(), _, rest, ends_checkCompiler_ok.2 ⟨identity, hidentity, rfl⟩, hrest, rfl⟩

/-- How the adapter gate returns. -/
theorem ends_verifyDolphinAdapter_ok :
    (verifyDolphinAdapter site host).Ends asked (.ok ()) ↔
      ∃ (identity : Identity) (units : List Text),
      compilerIdentity identity.source = .ok host.cmakeCompilerId ∧
        dolphinDependentTranslationUnits site.tree = .ok units ∧
          asked = site.adapterLog host identity units := by
  simp only [verifyDolphinAdapter, buildNinja, ends_run_bind_ok, ends_checkCompiler_bind_ok,
    ends_orRuntimeError_bind_ok, ends_run_ok]
  constructor
  · rintro ⟨_, ⟨identity, _, hidentity, ⟨_, ⟨_, ⟨units, hunits, rfl⟩, rfl⟩, rfl⟩, rfl⟩, rfl⟩
    exact ⟨identity, units, hidentity, hunits, rfl⟩
  · rintro ⟨identity, units, hidentity, hunits, rfl⟩
    exact ⟨_, ⟨identity, _, hidentity, ⟨_, ⟨_, ⟨units, hunits, rfl⟩, rfl⟩, rfl⟩, rfl⟩, rfl⟩

/-- **The runtime gate returns** exactly on evidence that is in order. -/
theorem ends_verifyRuntime_ok :
    (verifyRuntime site host).Ends asked (.ok ()) ↔ ∃ evidence : RuntimeEvidence,
      evidence.Accepted site host ∧ asked = evidence.log site host := by
  simp only [verifyRuntime, verifyConfigured, ask, capture, buildNinja, Script.ends_perform_bind_ok,
    Script.ends_ofExcept_bind_ok, ends_run_bind_ok, ends_checkCompiler_bind_ok,
    ends_orRuntimeError_bind_ok, ends_verifyDolphinAdapter_ok, mapError_eq_ok_iff,
    requiredTests_eq_ok_iff]
  constructor
  · rintro ⟨manifest, _, ⟨options, hoptions, _, ⟨runtime, _, hruntime, ⟨_, ⟨listing, _,
      ⟨_, ⟨hsupported, rfl⟩, ⟨⟩, hlisting, output, _, ⟨⟨⟩, houtput, adapter, units, hadapter,
      hunits, rfl⟩, rfl⟩, rfl⟩, rfl⟩, rfl⟩, rfl⟩, rfl⟩
    exact ⟨⟨manifest, options, runtime, listing, output, adapter, units⟩,
      ⟨hoptions, hruntime, hsupported, hlisting, houtput, hadapter, hunits⟩, rfl⟩
  · rintro ⟨e, h, rfl⟩
    exact ⟨_, _, ⟨_, h.options, _, ⟨_, _, h.runtime, ⟨_, ⟨_, _, ⟨_, ⟨h.supported, rfl⟩, (),
      h.listing, _, _, ⟨(), h.output, _, _, h.adapter, h.units, rfl⟩, rfl⟩, rfl⟩, rfl⟩, rfl⟩, rfl⟩,
      rfl⟩

/-! ### How the gate proceeds -/

/-- The named sources that are translation units. -/
def dependentUnitNames : List Text := DOLPHIN_DEPENDENT_SOURCES.filter (endsWith (text ".cpp"))

/-- The commands of `_verify_dolphin_adapter`. -/
def Site.adapterPlan (site : Site flavour) (host : HostTarget) : List (List Text) :=
  [site.configureAdapter host,
    ninjaCommand site.adapterBuild (some (text "gcnport_dolphin_adapter_test")), site.testAdapter,
    lintCommand host site.adapterBuild dependentUnitNames]

/-- The commands of `verify_runtime`. -/
def Site.runtimePlan (site : Site flavour) (host : HostTarget) (options : EmbeddedOptions) :
    List (List Text) :=
  [site.configureRuntime host options, ninjaCommand site.runtimeBuild (some (text "tests")),
    site.listTests host, site.runTests host host.inventory] ++ site.adapterPlan host

/-- The named sources are handed out only where they are there. -/
theorem dolphinDependentSources_eq_ok {tree : Tree flavour} {names : List Text}
    (h : dolphinDependentSources tree = .ok names) :
    tree.HasDependent ∧ names = DOLPHIN_DEPENDENT_SOURCES := by
  unfold dolphinDependentSources at h
  dsimp only at h
  split_ifs at h with hmissing
  refine ⟨fun name hname => ?_, (Except.ok.inj h).symm⟩
  rw [not_not, List.filter_eq_nil_iff] at hmissing
  have hfile := hmissing name hname
  simpa [Tree.isFile] using hfile

/-- The units that are handed out are the named ones. -/
theorem dolphinDependentTranslationUnits_eq_ok {tree : Tree flavour} {units : List Text}
    (h : dolphinDependentTranslationUnits tree = .ok units) : units = dependentUnitNames := by
  rw [dolphinDependentTranslationUnits] at h
  cases hsources : dolphinDependentSources tree with
  | error e =>
    rw [hsources] at h
    cases h
  | ok names =>
    rw [hsources, (dolphinDependentSources_eq_ok hsources).2] at h
    exact (Except.ok.inj h).symm

/-- The check of the compiler stops at a refusal. -/
theorem closed_checkCompiler (what files : Text) (host : HostTarget) :
    (checkCompiler what files host : Gate flavour Unit).Closed := by
  have hread : (compilerId files : Gate flavour Text).Closed := by
    refine (Script.closed_perform _).bind fun candidates => ?_
    rcases candidates with _ | ⟨candidate, _ | ⟨candidate', candidates⟩⟩
    · exact Script.closed_throw _
    · exact (Script.closed_perform _).bind fun source => closed_orRuntimeError _
    · exact Script.closed_throw _
  refine hread.bind fun actual => ?_
  split_ifs
  · exact Script.closed_throw _
  · exact Script.closed_pure _

/-- The check of the compiler runs no command. -/
theorem follows_checkCompiler (what files : Text) (host : HostTarget) :
    Follows [] (checkCompiler what files host : Gate flavour Unit) := by
  have hread : Follows [] (compilerId files : Gate flavour Text) := by
    refine (follows_ask rfl).bind fun candidates _ _ => ?_
    rcases candidates with _ | ⟨candidate, _ | ⟨candidate', candidates⟩⟩
    · exact Script.keepsTo_throw _ _
    · exact (follows_ask rfl).bind fun source _ _ => follows_orRuntimeError _
    · exact Script.keepsTo_throw _ _
  refine hread.bind fun actual _ _ => ?_
  split_ifs
  · exact Script.keepsTo_throw _ _
  · exact Script.keepsTo_pure _

/-- The adapter gate stops at a refusal. -/
theorem closed_verifyDolphinAdapter (site : Site flavour) (host : HostTarget) :
    (verifyDolphinAdapter site host).Closed := by
  refine (Script.closed_perform _).bind fun _ => (closed_checkCompiler _ _ _).bind fun _ => ?_
  refine (Script.closed_perform _).bind fun _ => (Script.closed_perform _).bind fun _ => ?_
  exact (closed_orRuntimeError _).bind fun units => Script.closed_perform _

/-- The commands of the adapter gate, whatever it is answered. -/
theorem follows_verifyDolphinAdapter (site : Site flavour) (host : HostTarget) :
    Follows (site.adapterPlan host) (verifyDolphinAdapter site host) := by
  refine (follows_run _).bind fun _ _ _ => (follows_checkCompiler _ _ _).bind fun _ _ _ => ?_
  refine (follows_run _).bind fun _ _ _ => (follows_run _).bind fun _ _ _ => ?_
  refine (follows_orRuntimeError _).bind fun units _ h => ?_
  have hunits := mapError_eq_ok_iff.1 (Script.ends_ofExcept.1 h).2.symm
  rw [← dolphinDependentTranslationUnits_eq_ok hunits]
  exact follows_run _

/-- The runtime gate stops at a refusal. -/
theorem closed_verifyRuntime (site : Site flavour) (host : HostTarget) :
    (verifyRuntime site host).Closed := by
  refine (Script.closed_perform _).bind fun manifest => ?_
  refine (Script.closed_ofExcept _).bind fun options => ?_
  refine (Script.closed_perform _).bind fun _ => (closed_checkCompiler _ _ _).bind fun _ => ?_
  refine (Script.closed_perform _).bind fun _ => (Script.closed_perform _).bind fun listing => ?_
  refine (closed_orRuntimeError _).bind fun expected => (Script.closed_ofExcept _).bind fun _ => ?_
  refine (Script.closed_perform _).bind fun output => (Script.closed_ofExcept _).bind fun _ => ?_
  exact closed_verifyDolphinAdapter site host

/-- The commands of the runtime gate behind the manifest, whatever it is answered. -/
theorem follows_verifyConfigured (site : Site flavour) (host : HostTarget)
    (options : EmbeddedOptions) :
    Follows (site.runtimePlan host options) (verifyConfigured site host options) := by
  refine (follows_run _).bind fun _ _ _ => (follows_checkCompiler _ _ _).bind fun _ _ _ => ?_
  refine (follows_run _).bind fun _ _ _ => (follows_capture _).bind fun listing _ _ => ?_
  refine (follows_orRuntimeError _).bind fun expected _ h => ?_
  obtain ⟨-, rfl⟩ :=
    requiredTests_eq_ok_iff.1 (mapError_eq_ok_iff.1 (Script.ends_ofExcept.1 h).2.symm)
  refine (Script.keepsTo_ofExcept _).bind fun _ _ _ => ?_
  refine (follows_capture _).bind fun output _ _ => ?_
  exact (Script.keepsTo_ofExcept _).bind fun _ _ _ => follows_verifyDolphinAdapter site host

/-- The manifest was read, and these are its options. -/
def Site.ReadOptions (site : Site flavour) (asked : GateLog flavour)
    (options : EmbeddedOptions) : Prop :=
  ∃ manifest, ⟨.json site.manifest, .ok manifest⟩ ∈ asked ∧
    embeddedOptionNames site.str manifest = .ok options

/-- **The commands of the runtime gate**, whatever it is answered: none before it has read
options in the manifest, and then the first ones of the plan for those. -/
theorem planned_verifyRuntime {r : Except GateError Unit}
    (h : (verifyRuntime site host).Ends asked r) :
    (commands asked = [] ∧ ∃ e, r = .error e) ∨
      ∃ options, site.ReadOptions asked options ∧
        commands asked <+: site.runtimePlan host options ∧
        (r = .ok () → commands asked = site.runtimePlan host options) := by
  have hask : Follows [] (ask (.json site.manifest) : Gate flavour Json) := follows_ask rfl
  rcases hask.of_bind h with ⟨e, rfl, hnone⟩ | ⟨manifest, _, _, hread, h₁, rfl, hnone⟩
  · exact .inl ⟨List.prefix_nil.1 hnone, e, rfl⟩
  · obtain rfl := Script.ends_perform.1 hread
    rcases (Script.keepsTo_ofExcept _).of_bind h₁ with
      ⟨e, rfl, hnone₁⟩ | ⟨options, _, rest, hoptions, h₂, rfl, hnone₁⟩
    · exact .inl ⟨hnone.trans (List.prefix_nil.1 hnone₁), e, rfl⟩
    · obtain ⟨rfl, hok⟩ := Script.ends_ofExcept.1 hoptions
      have hplan := follows_verifyConfigured site host options
      have hcommands := hnone.trans hnone₁
      refine .inr ⟨options, ⟨manifest, List.mem_cons_self, hok.symm⟩, ?_, ?_⟩
      · rw [commands, hcommands]
        exact hplan.order rest r h₂
      · rintro rfl
        rw [commands, hcommands]
        exact hplan.whole rest () h₂

/-! ### The required tests -/

/-- The name of a suite and a test, as they are listed. -/
abbrev IsTestName (name : Text) : Prop :=
  (suiteOf name ≠ [] ∧ ∀ c ∈ suiteOf name, isListedChar c = true) ∧
    (testOf name ≠ [] ∧ ∀ c ∈ testOf name, isListedChar c = true) ∧
      suiteOf name ++ (text "." ++ testOf name) = name

/-- The tests that some host requires. -/
def allTests : List Text := COMMON_TESTS ++ POSIX_TESTS ++ X64_TESTS

/-- A host requires some of the tests, in their order. -/
theorem inventory_sublist (host : HostTarget) : host.inventory.Sublist allTests := by
  refine ((List.Sublist.refl _).append ?_).append ?_
  · split_ifs
    · exact List.Sublist.refl _
    · exact List.nil_sublist _
  · split_ifs
    · exact List.Sublist.refl _
    · exact List.nil_sublist _

/-- The characters of a literal. -/
theorem cons_text {t : Text} {rest rest' : List Text} (h : rest = rest') :
    text (String.ofList t) :: rest = t :: rest' := by
  rw [h, text, String.toList_ofList]

/-- The tests have different names, and each is the name of a suite and a test. -/
theorem allTests_spec : allTests.Nodup ∧ ∀ name ∈ allTests, IsTestName name := by
  -- The literals are taken apart first: to decide anything about them is slow.
  have h : ∃ names, allTests = names ∧ (names.Nodup ∧ ∀ name ∈ names, IsTestName name) := by
    apply Exists.intro
    constructor
    · repeat apply cons_text
      exact rfl
    · decide +kernel
  obtain ⟨names, hnames, hspec⟩ := h
  rw [hnames]
  exact hspec

/-- No test is required twice. -/
theorem inventory_nodup (host : HostTarget) : host.inventory.Nodup :=
  (inventory_sublist host).nodup allTests_spec.1

/-- What is required is named as tests are. -/
theorem isTestName_of_mem_inventory {name : Text} (h : name ∈ host.inventory) :
    IsTestName name :=
  allTests_spec.2 name ((inventory_sublist host).subset h)

/-- Every host requires some test. -/
theorem inventory_ne_nil (host : HostTarget) : host.inventory ≠ [] := by
  simp [HostTarget.inventory, COMMON_TESTS]

/-- A name has the characters of listed names, and a dot. -/
theorem IsTestName.mem_cases {name : Text} (h : IsTestName name) {c : Char} (hc : c ∈ name) :
    isListedChar c = true ∨ c = '.' := by
  obtain ⟨⟨-, hsuite⟩, ⟨-, htest⟩, hname⟩ := h
  rw [← hname] at hc
  rcases List.mem_append.1 hc with hc | hc
  · exact .inl (hsuite c hc)
  · rcases List.mem_cons.1 hc with rfl | hc
    · exact .inr rfl
    · exact .inl (htest c hc)

/-- Such a character means nothing in a filter, and starts no tag of a log. -/
theorem IsTestName.plain {name : Text} (h : IsTestName name) {c : Char} (hc : c ∈ name) :
    isNonSpace c = true ∧ c ∉ [':', '*', '?', '-', '['] := by
  rcases h.mem_cases hc with hlisted | rfl
  · refine ⟨by simp [isNonSpace, (isSpace_of_isListedChar hlisted).1], fun hmem => ?_⟩
    have hnone : ∀ c ∈ [':', '*', '?', '-', '['], isListedChar c = false := by decide
    rw [hnone c hmem] at hlisted
    cases hlisted
  · decide

/-- **The filter names the required tests**: its patterns are their names, none of which has a
wildcard or starts what is left out. -/
theorem splitOn_filter (host : HostTarget) :
    (joined ':' host.inventory).splitOn ':' = host.inventory ∧
      ∀ name ∈ host.inventory, ∀ c ∈ name, c ∉ ['*', '?', '-'] := by
  constructor
  · refine List.splitOn_intercalate ':' (fun name hname hc => ?_) (inventory_ne_nil host)
    exact ((isTestName_of_mem_inventory hname).plain hc).2 (by decide)
  · intro name hname c hc hmem
    refine ((isTestName_of_mem_inventory hname).plain hc).2 ?_
    exact List.mem_cons_of_mem _ (List.mem_append_left ['['] hmem)

/-- The listing of one test. -/
def listedSuite (name : Text) (h : IsTestName name) : ListedSuite :=
  ⟨⟨suiteOf name, h.1.1, h.1.2⟩, ⟨0, none⟩, [⟨⟨testOf name, h.2.1.1, h.2.1.2⟩, ⟨0, none⟩⟩]⟩

/-- The listing of one test lists it. -/
theorem names_listedSuite {name : Text} (h : IsTestName name) :
    (listedSuite name h).names = [name] := by
  have hname := h.2.2
  simpa [listedSuite, ListedSuite.names, ListedSuite.stem] using hname

/-- The run of one test. -/
def passingRun (name : Text) (h : IsTestName name) : TestRun :=
  ⟨⟨name, ⟨by
    rintro rfl
    exact h.1.1 rfl, fun c hc => (h.plain hc).1⟩, fun hc => (h.plain hc).2 (by decide)⟩, [], 0, []⟩

/-- **The required tests can be met**: a binary that lists them and passes them is accepted. -/
theorem inventory_met (isalnum : Char → Bool) (host : HostTarget) :
    ∃ listing output, validateListing isalnum listing host.inventory = .ok () ∧
      validateResult output host.inventory = .ok () := by
  have hall : ∀ name ∈ host.inventory, IsTestName name := fun name =>
    isTestName_of_mem_inventory
  let listing : Listing isalnum := ⟨[], by simp, List.Pairwise.nil,
    host.inventory.attach.map fun name => listedSuite name.1 (hall name.1 name.2)⟩
  let log : PassingLog := ⟨[],
    host.inventory.attach.map fun name => passingRun name.1 (hall name.1 name.2), false, []⟩
  have hnames : listing.names = host.inventory := by
    simp [listing, Listing.names, List.flatMap_map, names_listedSuite]
  have hobserved : log.observed = host.inventory := by
    simp [log, PassingLog.observed, passingRun, Function.comp_def]
  refine ⟨listing.text, log.text, ?_, ?_⟩
  · rw [validateListing_eq_ok_iff, discover_text, hnames]
    exact fun name hname => List.count_eq_one_of_mem (inventory_nodup host) hname
  · have hstatus : ∀ status ∈ STATUSES, ((statusPattern status).findall log.text).Perm
        host.inventory := fun status hmem => hobserved ▸ log.findall_status_text hmem
    refine validateResult_eq_ok_iff.2 ⟨log.search_failurePattern_text, hstatus _ (by decide),
      hstatus _ (by decide), ?_⟩
    have hlength : log.tests.length = host.inventory.length := by simp [log]
    rw [log.findall_summary_text, hlength]

end

end Tools
end GcnPort
