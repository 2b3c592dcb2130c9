/-
# Which translation units are linted

`tools/gcnport_tools/adapter_sources.py` and the lint coverage check of
`tools/gcnport_tools/project_verifier.py`.  The project gate lints the first-party
translation units that are not named in `DOLPHIN_DEPENDENT_SOURCES`, and raises
if one of them is in no compile database; the runtime gate lints the named ones
(`_verify_dolphin_adapter` of `tools/gcnport_tools/dolphin_runtime.py`).

The paths of the units are written with the separator of the host, the named
sources and the compiled ones with a slash.  On POSIX these are the same texts.
On Windows no unit is ever named or compiled, so the gate always raises
(`lintedUnits_windows`).  `rglob` also finds directories, and a directory called
like a translation unit is taken for one.  `lint_coverage_iff` says when the gate
does what it is for all the same.
-/

import GcnPort.Tools.Pathlib
import Mathlib.Data.Char
import Mathlib.Data.List.Dedup
import Mathlib.Data.List.Lex

namespace GcnPort
namespace Tools

/-- `RuntimeError`. -/
structure RuntimeError where
  message : Text
deriving DecidableEq, Repr

/-- `path.endswith(ending)`. -/
def endsWith (ending path : Text) : Bool := ending.isSuffixOf path

/-- `sorted(texts)`, by code points. -/
def sorted (texts : List Text) : List Text := texts.mergeSort fun a b => a ≤ b

/-- `owners` of the first-party files. -/
def owners : List Text := [text "include", text "src", text "tests"]

/-- The files and directories under the owners. -/
structure Tree (flavour : Flavour) where
  files : List (RelativePath flavour)
  directories : List (RelativePath flavour)
  apart : ∀ p ∈ files, p ∉ directories
  owned : ∀ p ∈ files ++ directories, ∃ owner rest, owner.name ∈ owners ∧ rest ≠ [] ∧
    p.parts = owner :: rest

/-- `DOLPHIN_DEPENDENT_SOURCES`. -/
def DOLPHIN_DEPENDENT_SOURCES : List Text :=
  [text "include/gcnport/dolphin_adapter.h", text "src/dolphin_adapter.cpp",
    text "tests/dolphin_adapter_test.cpp"]

/-- An entry of `compile_commands.json`. -/
structure CompileEntry where
  directory : Text
  file : Text
deriving DecidableEq, Repr

section

variable {flavour : Flavour}

/-- `(root / name).is_file()`. -/
def Tree.isFile (tree : Tree flavour) (name : Text) : Bool :=
  tree.files.any fun p => p.asPosix = name

/-- `dolphin_dependent_sources`. -/
def dolphinDependentSources (tree : Tree flavour) : Except RuntimeError (List Text) :=
  let missing := DOLPHIN_DEPENDENT_SOURCES.filter fun name => !tree.isFile name
  if missing ≠ [] then
    .error ⟨text "adapter_sources names files that do not exist: " ++
      (text ", ").intercalate (sorted missing)⟩
  else
    .ok DOLPHIN_DEPENDENT_SOURCES

/-- `dolphin_dependent_translation_units`, which the runtime gate lints. -/
def dolphinDependentTranslationUnits (tree : Tree flavour) : Except RuntimeError (List Text) :=
  (dolphinDependentSources tree).map fun names => names.filter (endsWith (text ".cpp"))

/-- `(root / owner).rglob("*")`. -/
def Tree.rglob (tree : Tree flavour) (owner : Text) : List (RelativePath flavour) :=
  (tree.files ++ tree.directories).filter fun p => p.parts.head?.map Component.name = some owner

/-- `cpp_files` of `verify_project`. -/
def cppFiles (tree : Tree flavour) : List Text :=
  sorted (((owners.flatMap tree.rglob).filter fun p =>
    p.suffix = text ".cpp" ∨ p.suffix = text ".h").map RelativePath.str)

/-- `_compiled_sources`.  Where an entry resolves to is up to the file system. -/
def compiledSources (lower : Text → Text) (root : AbsolutePath flavour) (path : Text)
    (database : Option (List CompileEntry)) (resolve : CompileEntry → AbsolutePath flavour) :
    Except RuntimeError (List Text) :=
  match database with
  | none => .error ⟨text "no compile database at " ++ path⟩
  | some entries =>
    .ok (entries.filterMap fun entry =>
      ((resolve entry).relativeTo lower root).map RelativePath.asPosix)

/-- `translation_units` of `verify_project`. -/
def translationUnits (tree : Tree flavour) (deferred : List Text) : List Text :=
  (cppFiles tree).filter fun path => endsWith (text ".cpp") path ∧ path ∉ deferred

/-- The lint coverage check of `verify_project`, and the translation units it
then lints. -/
def lintedUnits (lower : Text → Text) (root : AbsolutePath flavour) (tree : Tree flavour)
    (path : Text) (database : Option (List CompileEntry))
    (resolve : CompileEntry → AbsolutePath flavour) : Except RuntimeError (List Text) := do
  let deferred ← dolphinDependentSources tree
  let units := translationUnits tree deferred
  let compiled ← compiledSources lower root path database resolve
  let unlinted := sorted (units.dedup.filter (· ∉ compiled))
  if unlinted ≠ [] then
    throw ⟨text ("first-party translation units are in no compile database and are not " ++
      "deferred to the runtime gate: ") ++ (text ", ").intercalate unlinted⟩
  pure units

/-- The named sources are among the files of the tree. -/
def Tree.HasDependent (tree : Tree flavour) : Prop :=
  ∀ name ∈ DOLPHIN_DEPENDENT_SOURCES, ∃ f ∈ tree.files, f.asPosix = name

/-- Some entry of the database resolves to `p` under `root`. -/
def Compiled (lower : Text → Text) (root : AbsolutePath flavour) (entries : List CompileEntry)
    (resolve : CompileEntry → AbsolutePath flavour) (p : RelativePath flavour) : Prop :=
  ∃ entry ∈ entries, (resolve entry).Same lower (root.join p)

/-- Some first-party translation unit is linted by neither gate. -/
def Unlinted (lower : Text → Text) (root : AbsolutePath flavour) (tree : Tree flavour)
    (entries : List CompileEntry) (resolve : CompileEntry → AbsolutePath flavour) : Prop :=
  ∃ f ∈ tree.files, f.suffix = text ".cpp" ∧ f.asPosix ∉ DOLPHIN_DEPENDENT_SOURCES ∧
    ¬Compiled lower root entries resolve f

/-- The texts name translation units of the tree, and between them each one
once. -/
structure Partition (tree : Tree flavour) (project runtime : List Text) : Prop where
  ofProject : ∀ name ∈ project, ∃ f ∈ tree.files, f.suffix = text ".cpp" ∧ name = f.str
  ofRuntime : ∀ name ∈ runtime, ∃ f ∈ tree.files, f.suffix = text ".cpp" ∧ name = f.asPosix
  once : ∀ f ∈ tree.files, f.suffix = text ".cpp" → (f.str ∈ project ↔ f.asPosix ∉ runtime)

/-- The coverage check raises exactly if a translation unit is linted by neither
gate, and otherwise the two gates lint all of them between them. -/
structure LintCoverage (lower : Text → Text) (root : AbsolutePath flavour) (tree : Tree flavour)
    (path : Text) (entries : List CompileEntry)
    (resolve : CompileEntry → AbsolutePath flavour) : Prop where
  raises : (∃ e, lintedUnits lower root tree path (some entries) resolve = .error e) ↔
    Unlinted lower root tree entries resolve
  partition : ∀ project runtime, lintedUnits lower root tree path (some entries) resolve =
    .ok project → dolphinDependentTranslationUnits tree = .ok runtime →
      Partition tree project runtime

variable {lower : Text → Text} {root : AbsolutePath flavour} {tree : Tree flavour} {path : Text}
  {entries : List CompileEntry} {resolve : CompileEntry → AbsolutePath flavour}
  {p : RelativePath flavour} {name : Text}

/-- If the named sources are there, they are what is deferred. -/
theorem dolphinDependentSources_eq (h : tree.HasDependent) :
    dolphinDependentSources tree = .ok DOLPHIN_DEPENDENT_SOURCES := by
  have hmissing : (DOLPHIN_DEPENDENT_SOURCES.filter fun name => !tree.isFile name) = [] := by
    refine List.filter_eq_nil_iff.2 fun name hname => ?_
    obtain ⟨f, hf, hname⟩ := h name hname
    simpa [Tree.isFile] using ⟨f, hf, hname⟩
  unfold dolphinDependentSources
  rw [hmissing]
  rfl

/-- A path with the suffix `.cpp` or `.h` ends with `.cpp` exactly if it has the
suffix `.cpp`. -/
theorem endsWith_str_iff (h : p.suffix = text ".cpp" ∨ p.suffix = text ".h") :
    endsWith (text ".cpp") p.str = true ↔ p.suffix = text ".cpp" := by
  have hsuffix := p.suffix_suffix_str
  rw [endsWith, List.isSuffixOf_iff_suffix]
  rcases h with h | h <;> rw [h] at hsuffix ⊢
  · exact ⟨fun _ => rfl, fun _ => hsuffix⟩
  · constructor
    · intro hcpp
      have : text ".h" <:+ text ".cpp" :=
        List.suffix_of_suffix_length_le hsuffix hcpp (by decide)
      exact absurd this (by decide)
    · intro hcpp
      exact absurd hcpp (by decide)

/-- **The units of the project gate** are the texts of the files, and of the
directories, with the suffix `.cpp`, other than those that are named. -/
theorem mem_translationUnits_iff {deferred : List Text} :
    name ∈ translationUnits tree deferred ↔ ∃ p ∈ tree.files ++ tree.directories,
      p.suffix = text ".cpp" ∧ p.str = name ∧ name ∉ deferred := by
  simp only [translationUnits, cppFiles, sorted, Tree.rglob, List.mem_filter, List.mem_mergeSort,
    List.mem_map, List.mem_flatMap, decide_eq_true_eq]
  constructor
  · rintro ⟨⟨p, ⟨⟨owner, -, hp, -⟩, hsuffix⟩, rfl⟩, hends, hdeferred⟩
    exact ⟨p, hp, (endsWith_str_iff hsuffix).1 hends, rfl, hdeferred⟩
  · rintro ⟨p, hp, hsuffix, rfl, hdeferred⟩
    obtain ⟨owner, rest, howner, -, hparts⟩ := tree.owned p hp
    refine ⟨⟨p, ⟨⟨owner.name, howner, hp, ?_⟩, .inl hsuffix⟩, rfl⟩,
      (endsWith_str_iff (.inl hsuffix)).2 hsuffix, hdeferred⟩
    rw [hparts]
    rfl

/-- Some entry of the database is compiled under the name `name`. -/
def NamedCompiled (lower : Text → Text) (root : AbsolutePath flavour)
    (entries : List CompileEntry) (resolve : CompileEntry → AbsolutePath flavour)
    (name : Text) : Prop :=
  ∃ entry ∈ entries, ∃ p, (resolve entry).relativeTo lower root = some p ∧ p.asPosix = name

/-- **What the check does**: it raises if some unit is not among the compiled
names, and hands out the units otherwise. -/
theorem lintedUnits_cases (h : tree.HasDependent) :
    ((∃ name ∈ translationUnits tree DOLPHIN_DEPENDENT_SOURCES,
        ¬NamedCompiled lower root entries resolve name) ∧
      ∃ e, lintedUnits lower root tree path (some entries) resolve = .error e) ∨
    (∀ name ∈ translationUnits tree DOLPHIN_DEPENDENT_SOURCES,
        NamedCompiled lower root entries resolve name) ∧
      lintedUnits lower root tree path (some entries) resolve =
        .ok (translationUnits tree DOLPHIN_DEPENDENT_SOURCES) := by
  have hname (name : Text) : name ∈ entries.filterMap (fun entry =>
      ((resolve entry).relativeTo lower root).map RelativePath.asPosix) ↔
        NamedCompiled lower root entries resolve name := by
    simp [NamedCompiled, List.mem_filterMap]
  have hunlinted : sorted ((translationUnits tree DOLPHIN_DEPENDENT_SOURCES).dedup.filter
      (· ∉ entries.filterMap fun entry =>
        ((resolve entry).relativeTo lower root).map RelativePath.asPosix)) = [] ↔
      ∀ name ∈ translationUnits tree DOLPHIN_DEPENDENT_SOURCES,
        NamedCompiled lower root entries resolve name := by
    simp only [List.eq_nil_iff_forall_not_mem, sorted, List.mem_mergeSort, List.mem_filter,
      List.mem_dedup, hname, decide_eq_true_eq, not_and, not_not]
  unfold lintedUnits
  rw [dolphinDependentSources_eq h]
  by_cases hall : ∀ name ∈ translationUnits tree DOLPHIN_DEPENDENT_SOURCES,
      NamedCompiled lower root entries resolve name
  · refine .inr ⟨hall, ?_⟩
    have hnil := hunlinted.2 hall
    simp only [compiledSources, bind, Except.bind, hnil]
    rfl
  · refine .inl ⟨by simpa using hall, ?_⟩
    have hcons := mt hunlinted.1 hall
    simp only [compiledSources, bind, Except.bind]
    rw [if_pos hcons]
    exact ⟨_, rfl⟩

/-- The named sources that are translation units, as paths. -/
def dependentUnits (flavour : Flavour) : List (RelativePath flavour) :=
  [⟨[⟨text "src", by decide, by decide, by cases flavour <;> decide⟩,
      ⟨text "dolphin_adapter.cpp", by decide, by decide, by cases flavour <;> decide⟩]⟩,
    ⟨[⟨text "tests", by decide, by decide, by cases flavour <;> decide⟩,
      ⟨text "dolphin_adapter_test.cpp", by decide, by decide, by cases flavour <;> decide⟩]⟩]

/-- They are what the runtime gate lints. -/
theorem map_asPosix_dependentUnits (flavour : Flavour) :
    (dependentUnits flavour).map RelativePath.asPosix =
      DOLPHIN_DEPENDENT_SOURCES.filter (endsWith (text ".cpp")) := by
  cases flavour <;> decide

/-- The deferred units are translation units in a directory of the root. -/
theorem suffix_dependentUnits {p : RelativePath flavour} (h : p ∈ dependentUnits flavour) :
    p.suffix = text ".cpp" ∧ p.parts.length = 2 := by
  cases flavour <;> revert p <;> decide

/-- A file that the runtime gate lints is a translation unit. -/
theorem suffix_of_mem_runtime
    (h : p.asPosix ∈ DOLPHIN_DEPENDENT_SOURCES.filter (endsWith (text ".cpp"))) :
    p.suffix = text ".cpp" ∧ p.parts.length = 2 := by
  rw [← map_asPosix_dependentUnits flavour] at h
  obtain ⟨q, hq, heq⟩ := List.mem_map.1 h
  rw [← RelativePath.asPosix_inj.1 heq]
  exact suffix_dependentUnits hq

/-- **On Windows, the check always raises.**  The text of a named translation
unit there has a backslash, and neither a named source nor a compiled one has. -/
theorem lintedUnits_windows {root : AbsolutePath .windows} {tree : Tree .windows}
    {resolve : CompileEntry → AbsolutePath .windows} (h : tree.HasDependent) :
    ∃ e, lintedUnits lower root tree path (some entries) resolve = .error e := by
  rcases @lintedUnits_cases .windows lower root tree path entries resolve h with
    ⟨-, hraises⟩ | ⟨hall, -⟩
  · exact hraises
  · have hnamed : text "src/dolphin_adapter.cpp" ∈
        DOLPHIN_DEPENDENT_SOURCES.filter (endsWith (text ".cpp")) := by decide
    obtain ⟨f, hf, hname⟩ := h _ (List.mem_of_mem_filter hnamed)
    rw [← hname] at hnamed
    obtain ⟨hsuffix, hlength⟩ := suffix_of_mem_runtime hnamed
    have hbackslash : '\\' ∈ f.str := RelativePath.sep_mem_str (by rw [hlength])
    have hfree : f.str ∉ DOLPHIN_DEPENDENT_SOURCES := by
      intro hmem
      have : ∀ name ∈ DOLPHIN_DEPENDENT_SOURCES, '\\' ∉ name := by decide
      exact this _ hmem hbackslash
    have hunit : f.str ∈ translationUnits tree DOLPHIN_DEPENDENT_SOURCES :=
      mem_translationUnits_iff.2 ⟨f, List.mem_append_left _ hf, hsuffix, rfl, hfree⟩
    obtain ⟨entry, -, q, -, hq⟩ := hall _ hunit
    rw [← hq] at hbackslash
    exact absurd hbackslash q.backslash_not_mem_asPosix

/-- On POSIX, a path is compiled under its own name. -/
theorem namedCompiled_posix_iff {root : AbsolutePath .posix} {p : RelativePath .posix}
    {resolve : CompileEntry → AbsolutePath .posix} :
    NamedCompiled lower root entries resolve p.str ↔ Compiled lower root entries resolve p := by
  rw [RelativePath.str_posix]
  constructor
  · rintro ⟨entry, hentry, q, hq, hname⟩
    obtain rfl := RelativePath.asPosix_inj.1 hname
    exact ⟨entry, hentry, AbsolutePath.relativeTo_posix_eq_some_iff.1 hq⟩
  · rintro ⟨entry, hentry, hsame⟩
    exact ⟨entry, hentry, p, AbsolutePath.relativeTo_posix_eq_some_iff.2 hsame, rfl⟩

/-- **On POSIX**, the check raises exactly if a file, or a directory, with the
suffix `.cpp` is neither named nor compiled. -/
theorem lintedUnits_posix {root : AbsolutePath .posix} {tree : Tree .posix}
    {resolve : CompileEntry → AbsolutePath .posix} (h : tree.HasDependent) :
    (∃ e, lintedUnits lower root tree path (some entries) resolve = .error e) ↔
      ∃ p ∈ tree.files ++ tree.directories, p.suffix = text ".cpp" ∧
        p.asPosix ∉ DOLPHIN_DEPENDENT_SOURCES ∧ ¬Compiled lower root entries resolve p := by
  have hstr (name : Text) : (∃ p ∈ tree.files ++ tree.directories, p.suffix = text ".cpp" ∧
      p.str = name ∧ name ∉ DOLPHIN_DEPENDENT_SOURCES) ↔
        name ∈ translationUnits tree DOLPHIN_DEPENDENT_SOURCES :=
    mem_translationUnits_iff.symm
  rcases @lintedUnits_cases .posix lower root tree path entries resolve h with
    ⟨⟨name, hunit, hnot⟩, hraises⟩ | ⟨hall, hok⟩
  · obtain ⟨p, hp, hsuffix, rfl, hnamed⟩ := (hstr name).2 hunit
    exact ⟨fun _ => ⟨p, hp, hsuffix, hnamed, mt namedCompiled_posix_iff.2 hnot⟩, fun _ => hraises⟩
  · rw [hok]
    refine ⟨fun ⟨_, he⟩ => (nomatch he), fun ⟨p, hp, hsuffix, hnamed, hnot⟩ => ?_⟩
    have hcompiled := hall _ ((hstr _).1 ⟨p, hp, hsuffix, rfl, hnamed⟩)
    exact absurd (namedCompiled_posix_iff.1 hcompiled) hnot

/-- On POSIX, the two gates lint all translation units between them, if the
project gate passes and no directory is called like one. -/
theorem partition_posix {root : AbsolutePath .posix} {tree : Tree .posix}
    {resolve : CompileEntry → AbsolutePath .posix} (h : tree.HasDependent)
    (hdirectories : ∀ d ∈ tree.directories, d.suffix ≠ text ".cpp") {project runtime : List Text}
    (hproject : lintedUnits lower root tree path (some entries) resolve = .ok project)
    (hruntime : dolphinDependentTranslationUnits tree = .ok runtime) :
    Partition tree project runtime := by
  have hunits : project = translationUnits tree DOLPHIN_DEPENDENT_SOURCES := by
    rcases @lintedUnits_cases .posix lower root tree path entries resolve h with
      ⟨-, e, hraises⟩ | ⟨-, hok⟩
    · rw [hraises] at hproject
      cases hproject
    · exact Except.ok.inj (hproject.symm.trans hok)
  rw [dolphinDependentTranslationUnits, dolphinDependentSources_eq h] at hruntime
  obtain rfl := Except.ok.inj hruntime
  subst hunits
  constructor
  · intro name hname
    obtain ⟨p, hp, hsuffix, rfl, -⟩ := mem_translationUnits_iff.1 hname
    rcases List.mem_append.1 hp with hp | hp
    · exact ⟨p, hp, hsuffix, rfl⟩
    · exact absurd hsuffix (hdirectories p hp)
  · intro name hname
    obtain ⟨f, hf, rfl⟩ := h name (List.mem_of_mem_filter hname)
    exact ⟨f, hf, (suffix_of_mem_runtime hname).1, rfl⟩
  · intro f hf hsuffix
    rw [mem_translationUnits_iff, List.mem_filter]
    have hends : endsWith (text ".cpp") f.asPosix = true :=
      (endsWith_str_iff (p := f) (.inl hsuffix)).2 hsuffix
    rw [hends, RelativePath.str_posix]
    constructor
    · rintro ⟨-, -, -, -, hnamed⟩ ⟨hmem, -⟩
      exact hnamed hmem
    · intro hnot
      exact ⟨f, List.mem_append_left _ hf, hsuffix, rfl, fun hmem => hnot ⟨hmem, rfl⟩⟩

/-- On POSIX, a directory that is called like a translation unit is linted, and is no
translation unit. -/
theorem not_partition_posix {tree : Tree .posix} (h : tree.HasDependent)
    {d : RelativePath .posix} (hd : d ∈ tree.directories) (hsuffix : d.suffix = text ".cpp")
    (runtime : List Text) :
    ¬Partition tree (translationUnits tree DOLPHIN_DEPENDENT_SOURCES) runtime := by
  intro hpartition
  have hfile : ∀ f ∈ tree.files, f.asPosix ≠ d.asPosix := by
    intro f hf hsame
    rw [RelativePath.asPosix_inj.1 hsame] at hf
    exact tree.apart d hf hd
  have hunit : d.str ∈ translationUnits tree DOLPHIN_DEPENDENT_SOURCES := by
    refine mem_translationUnits_iff.2 ⟨d, List.mem_append_right _ hd, hsuffix, rfl, ?_⟩
    intro hnamed
    obtain ⟨f, hf, hname⟩ := h _ hnamed
    exact hfile f hf hname
  obtain ⟨f, hf, -, hname⟩ := hpartition.ofProject _ hunit
  exact hfile f hf hname.symm

/-- **Lint coverage**: over a tree with the named sources, the check is what it is
for exactly if a translation unit is linted by neither gate, or the host is POSIX
and no directory of the tree is called like a translation unit. -/
theorem lint_coverage_iff (h : tree.HasDependent) :
    LintCoverage lower root tree path entries resolve ↔
      Unlinted lower root tree entries resolve ∨
        flavour = .posix ∧ ∀ d ∈ tree.directories, d.suffix ≠ text ".cpp" := by
  cases flavour with
  | windows =>
    have hraises : ∃ e, lintedUnits lower root tree path (some entries) resolve = .error e :=
      lintedUnits_windows h
    constructor
    · intro hcoverage
      exact .inl (hcoverage.raises.1 hraises)
    · rintro (hunlinted | ⟨hposix, -⟩)
      · refine ⟨⟨fun _ => hunlinted, fun _ => hraises⟩, fun project runtime hproject => ?_⟩
        obtain ⟨e, he⟩ := hraises
        rw [he] at hproject
        cases hproject
      · cases hposix
  | posix =>
    have hraises := @lintedUnits_posix lower path entries root tree resolve h
    have hunlinted : Unlinted lower root tree entries resolve →
        ∃ e, lintedUnits lower root tree path (some entries) resolve = .error e := by
      rintro ⟨f, hf, hsuffix, hnamed, hnot⟩
      exact hraises.2 ⟨f, List.mem_append_left _ hf, hsuffix, hnamed, hnot⟩
    constructor
    · intro hcoverage
      by_contra hnone
      obtain ⟨hcovered, hdirectories⟩ := not_or.1 hnone
      obtain ⟨d, hd, hsuffix⟩ : ∃ d ∈ tree.directories, d.suffix = text ".cpp" := by
        simpa using hdirectories
      rcases @lintedUnits_cases .posix lower root tree path entries resolve h with
        ⟨-, he⟩ | ⟨-, hok⟩
      · exact hcovered (hcoverage.raises.1 he)
      · have hruntime : dolphinDependentTranslationUnits tree = .ok _ :=
          congrArg (Except.map _) (dolphinDependentSources_eq h)
        exact not_partition_posix h hd hsuffix _ (hcoverage.partition _ _ hok hruntime)
    · intro hcondition
      have hdirectories (hno : ¬Unlinted lower root tree entries resolve) :
          ∀ d ∈ tree.directories, d.suffix ≠ text ".cpp" :=
        (hcondition.resolve_left hno).2
      refine ⟨⟨fun he => ?_, hunlinted⟩, fun project runtime hproject hruntime => ?_⟩
      · by_contra hno
        obtain ⟨p, hp, hsuffix, hnamed, hnot⟩ := hraises.1 he
        rcases List.mem_append.1 hp with hp | hp
        · exact hno ⟨p, hp, hsuffix, hnamed, hnot⟩
        · exact hdirectories hno p hp hsuffix
      · have hno : ¬Unlinted lower root tree entries resolve := by
          intro hyes
          obtain ⟨e, he⟩ := hunlinted hyes
          rw [he] at hproject
          cases hproject
        exact partition_posix h (hdirectories hno) hproject hruntime

end

/-- A component with a name that is plain in both flavours. -/
def component (flavour : Flavour) (name : Text)
    (h : name ≠ [] ∧ name ≠ ['.'] ∧ ∀ c ∈ name, c ≠ '/' ∧ c ≠ '\\') : Component flavour where
  name := name
  nonempty := h.1
  ne_dot := h.2.1
  plain := fun c hc => by cases flavour <;> simp [Flavour.isSeparator, h.2.2 c hc]

/-- `src/native_hooks.cpp`. -/
def nativeHooks (flavour : Flavour) : RelativePath flavour :=
  ⟨[component flavour (text "src") (by decide),
    component flavour (text "native_hooks.cpp") (by decide)]⟩

/-- The named sources, and `src/native_hooks.cpp`. -/
def sampleTree (flavour : Flavour) : Tree flavour where
  files := nativeHooks flavour ::
    ⟨[component flavour (text "include") (by decide), component flavour (text "gcnport") (by decide),
      component flavour (text "dolphin_adapter.h") (by decide)]⟩ :: dependentUnits flavour
  directories := [⟨[component flavour (text "include") (by decide),
    component flavour (text "gcnport") (by decide)]⟩]
  apart := by cases flavour <;> decide
  owned := by
    intro p hp
    have : ∃ owner ∈ p.parts.head?, owner.name ∈ owners ∧ p.parts.tail ≠ [] := by
      revert p
      cases flavour <;> decide
    obtain ⟨owner, hhead, howner, htail⟩ := this
    exact ⟨owner, p.parts.tail, howner, htail, (List.cons_head?_tail hhead).symm⟩

/-- The sample checkout has the named sources. -/
theorem sampleTree_hasDependent (flavour : Flavour) : (sampleTree flavour).HasDependent := by
  cases flavour <;> unfold Tree.HasDependent <;> decide

/-- On POSIX, with `src/native_hooks.cpp` compiled. -/
theorem lint_coverage_posix :
    LintCoverage id ⟨['/'], []⟩ (sampleTree .posix) (text "/compile_commands.json")
      [⟨text "/", text "src/native_hooks.cpp"⟩] fun _ => ⟨['/'], (nativeHooks .posix).parts⟩ :=
  (lint_coverage_iff (sampleTree_hasDependent .posix)).2 (.inr ⟨rfl, by decide⟩)

/-- **On Windows, with every translation unit linted**, the check raises. -/
theorem not_lint_coverage_windows :
    ¬LintCoverage id ⟨text "C:\\", []⟩ (sampleTree .windows) (text "C:\\compile_commands.json")
      [⟨text "C:\\", text "src\\native_hooks.cpp"⟩]
      fun _ => ⟨text "C:\\", (nativeHooks .windows).parts⟩ := by
  intro h
  obtain ⟨f, hf, hsuffix, hnamed, hnot⟩ :=
    h.raises.1 (lintedUnits_windows (sampleTree_hasDependent .windows))
  refine hnot ⟨_, List.mem_singleton_self _, ?_⟩
  have hall : ∀ f ∈ (sampleTree .windows).files, f.suffix = text ".cpp" →
      f.asPosix ∉ DOLPHIN_DEPENDENT_SOURCES → f = nativeHooks .windows := by decide
  rw [hall f hf hsuffix hnamed]
  exact ⟨rfl, rfl⟩

end Tools
end GcnPort
