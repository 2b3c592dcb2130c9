/-
# Which actions the hosted workflow may use

`inspect_workflow` of `tools/gcnport_tools/ci_contract.py` takes the references of
a workflow with `^\s*uses:\s*(\S+)\s*$` and wants them to be the three pins.  A
step reference is more than that expression finds: YAML lets the key follow a
list marker and be followed by a comment (`StepReference.IsLine`).  What has
neither is always compared, though another match may take its line
(`pinned_of_plain`); what has one is never looked at.  So an accepted workflow
pins its actions exactly when the references that the expression does not find
happen to be pins (`actions_pinned_iff`).
-/

import GcnPort.Tools.Regex

namespace GcnPort
namespace Tools

open Foundation

/-- `RUNNERS`: the runner, its system and its architecture. -/
def RUNNERS : List (Text × Text × Text) :=
  [(text "ubuntu-26.04", text "linux", text "x64"),
    (text "ubuntu-26.04-arm", text "linux", text "arm64"),
    (text "windows-2022", text "windows", text "x64"),
    (text "macos-15-intel", text "macos", text "x64"),
    (text "macos-15", text "macos", text "arm64")]

/-- `ACTION_PINS`. -/
def ACTION_PINS : List Text :=
  [text "actions/checkout@3d3c42e5aac5ba805825da76410c181273ba90b1",
    text "actions/setup-python@5fda3b95a4ea91299a34e894583c3862153e4b97",
    text "astral-sh/setup-uv@20cfd1bf945f4377ade1205e4dbc17946fc9a30d"]

/-- The tokens a workflow has to hold. -/
def REQUIRED : List Text :=
  [text "permissions:\n  contents: read", text "fetch-depth: 0", text "submodules: recursive",
    text "persist-credentials: false", text "python-version: \"3.12\"", text "timeout-minutes:",
    text "uv run --frozen python tools/verify.py --runtime", text "--expected-os",
    text "--expected-arch"]

/-- The tokens it must not hold, in whatever case. -/
def FORBIDDEN : List Text :=
  [text "continue-on-error", text "android", text "pull_request_target"]

/-- The entry of a runner:
`- runner: RUNNER\s+target_os: SYSTEM\s+target_arch: ARCHITECTURE(?:\s|$)`. -/
def entryPattern (runner system architecture : Text) : Pattern Char :=
  .sequence [.literal (text "- runner: " ++ runner), someSpaces,
    .literal (text "target_os: " ++ system), someSpaces,
    .literal (text "target_arch: " ++ architecture), .alt (.one isSpace) textEnd]

/-- `^\s*uses:\s*(\S+)\s*$`. -/
def usesPattern : Pattern Char :=
  .sequence [lineStart, spaces, .literal (text "uses:"), spaces, word, spaces, lineEnd]

/-- `token in source`. -/
def isIn (token source : Text) : Bool := source.tails.any token.isPrefixOf

/-- The lower case of a character whose lower case has a letter of ASCII.  Any
other character is left as it is: no token can tell. -/
def lowerChar (c : Char) : Text :=
  if c.toNat = 0x130 then ['i', Char.ofNat 0x307]
  else if c.toNat = 0x212a then ['k']
  else if 0x41 ≤ c.toNat ∧ c.toNat ≤ 0x5a then [Char.ofNat (c.toNat + 0x20)]
  else [c]

/-- `source.lower()`, as far as a token of ASCII can tell. -/
def lower (source : Text) : Text := source.flatMap lowerChar

/-- `inspect_workflow`. -/
def inspectWorkflow (source : Text) : List Text :=
  let entries := RUNNERS.filterMap fun (runner, system, architecture) =>
    if (entryPattern runner system architecture).search source then none
    else some (text "missing native matrix entry: " ++ runner ++ text " -> " ++ system ++
      text "/" ++ architecture)
  let actions :=
    if usesPattern.findall source ≠ ACTION_PINS then
      [text "workflow actions must be exactly the three approved immutable pins: " ++
        (text ", ").intercalate ACTION_PINS]
    else []
  let missing := (REQUIRED.filter fun token => !isIn token source).map fun token =>
    text "missing hosted verification contract: " ++ token
  let forbidden := (FORBIDDEN.filter fun token => isIn token (lower source)).map fun token =>
    text "forbidden hosted verification token: " ++ token
  entries ++ actions ++ missing ++ forbidden

/-! ### Step references -/

/-- A step reference, and whether its line has a list marker or a comment. -/
structure StepReference where
  marked : Bool
  commented : Bool
  reference : Text
deriving DecidableEq, Repr

/-- What stands behind a list marker, if there is one. -/
def listItem (rest : Text) : Bool × Text :=
  match rest with
  | '-' :: c :: rest =>
    if isSpace c then (true, rest.dropWhile isSpace) else (false, '-' :: c :: rest)
  | rest => (false, rest)

/-- The step reference on a line. -/
def stepReference (line : Text) : Option StepReference := do
  let item := listItem (line.dropWhile isSpace)
  let rest ← item.2.dropPrefix? (text "uses:")
  let reference ← wordAfter rest
  match ((rest.dropWhile isSpace).dropWhile isNonSpace).dropWhile isSpace with
  | [] => some ⟨item.1, false, reference⟩
  | c :: _ => if c = '#' then some ⟨item.1, true, reference⟩ else none

/-- The step references of a workflow. -/
def stepReferences (source : Text) : List StepReference := (lines source).filterMap stepReference

/-- **Every action is pinned.** -/
def ActionsPinned (source : Text) : Prop :=
  ∀ r ∈ stepReferences source, r.reference ∈ ACTION_PINS

instance (source : Text) : Decidable (ActionsPinned source) :=
  inferInstanceAs (Decidable (∀ r ∈ stepReferences source, r.reference ∈ ACTION_PINS))

/-- The list marker of a reference. -/
def StepReference.IsMarker (r : StepReference) (marker : Text) : Prop :=
  if r.marked then ∃ w, IsBlank w ∧ w ≠ [] ∧ marker = text "-" ++ w else marker = []

/-- What follows a reference: white space, and a comment behind it. -/
def StepReference.IsEnding (r : StepReference) (ending : Text) : Prop :=
  if r.commented then ∃ w comment, IsBlank w ∧ w ≠ [] ∧ ending = w ++ (text "#" ++ comment)
  else IsBlank ending

/-- **The line of a step reference**: indentation, a list marker or none, the key,
white space, the reference, and a comment or none. -/
def StepReference.IsLine (r : StepReference) (line : Text) : Prop :=
  ∃ indentation marker w ending, IsBlank indentation ∧ r.IsMarker marker ∧ IsBlank w ∧ w ≠ [] ∧
    IsWord r.reference ∧ r.IsEnding ending ∧
    line = indentation ++ (marker ++ (text "uses:" ++ (w ++ (r.reference ++ ending))))

section

variable {before rest t rest' reference line source : Text} {captures : List Text}
  {r : StepReference}

/-! ### What the expression finds -/

/-- The text of a key and its reference. -/
def IsUses (reference t : Text) : Prop :=
  ∃ w₁ w₂ w₃, IsBlank w₁ ∧ IsBlank w₂ ∧ IsBlank w₃ ∧ IsWord reference ∧
    t = w₁ ++ (text "uses:" ++ (w₂ ++ (reference ++ w₃)))

/-- **What the expression matches.** -/
theorem matches_usesPattern :
    usesPattern.Matches before rest t rest' captures ↔
      (∀ c ∈ before.head?, c = newline) ∧ (∀ c ∈ rest'.head?, c = newline) ∧ rest = t ++ rest' ∧
        ∃ reference, captures = [reference] ∧ IsUses reference t := by
  constructor
  · intro h
    obtain ⟨hstart, h₁⟩ := Pattern.matches_lineStart_then.mp h
    obtain ⟨w₁, _, _, rfl, hw₁, rfl, h₂⟩ := Pattern.matches_many_then.mp h₁
    obtain ⟨_, _, rfl, rfl, h₃⟩ := Pattern.matches_literal_then.mp h₂
    obtain ⟨w₂, _, _, rfl, hw₂, rfl, h₄⟩ := Pattern.matches_many_then.mp h₃
    obtain ⟨reference, _, _, _, rfl, hword, hne, rfl, rfl, h₅⟩ :=
      Pattern.matches_captured_then.mp h₄
    obtain ⟨w₃, _, _, rfl, hw₃, rfl, h₆⟩ := Pattern.matches_many_then.mp h₅
    obtain ⟨hend, rfl, rfl, rfl⟩ := Pattern.matches_lineEnd_last.mp h₆
    exact ⟨by simpa using hstart, by simpa using hend, by simp, reference, rfl,
      w₁, w₂, w₃, hw₁, hw₂, hw₃, ⟨hne, hword⟩, by simp⟩
  · rintro ⟨hstart, hend, rfl, reference, rfl, w₁, w₂, w₃, hw₁, hw₂, hw₃, hword, rfl⟩
    refine Pattern.matches_lineStart_then.mpr ⟨by simpa using hstart, ?_⟩
    refine Pattern.matches_many_then.mpr ⟨w₁, _, _, by simp; rfl, hw₁, rfl, ?_⟩
    refine Pattern.matches_literal_then.mpr ⟨_, _, rfl, rfl, ?_⟩
    refine Pattern.matches_many_then.mpr ⟨w₂, _, _, rfl, hw₂, rfl, ?_⟩
    refine Pattern.matches_captured_then.mpr ⟨reference, _, _, [], rfl, hword.2, hword.1, rfl, rfl,
      ?_⟩
    refine Pattern.matches_many_then.mpr ⟨w₃, rest', [], rfl, hw₃, by simp, ?_⟩
    exact Pattern.matches_lineEnd_last.mpr ⟨by simpa using hend, rfl, rfl, rfl⟩

/-- The reference that follows the key at the beginning of a text. -/
def leadingReference (rest : Text) : Option Text :=
  ((rest.dropWhile isSpace).dropPrefix? (text "uses:")).map fun rest =>
    (rest.dropWhile isSpace).takeWhile isNonSpace

/-- A match begins with its reference. -/
theorem IsUses.leadingReference (h : IsUses reference t) (hend : ∀ c ∈ rest'.head?, isSpace c) :
    leadingReference (t ++ rest') = some reference := by
  obtain ⟨w₁, w₂, w₃, hw₁, hw₂, hw₃, hword, rfl⟩ := h
  have hkey : IsWord (text "uses:") := by decide
  have hrest : w₁ ++ (text "uses:" ++ (w₂ ++ (reference ++ w₃))) ++ rest' =
      w₁ ++ (text "uses:" ++ (w₂ ++ (reference ++ (w₃ ++ rest')))) := by simp
  rw [Tools.leadingReference, hrest, dropWhile_blank hw₁ (hkey.head _),
    dropPrefix?_eq_some.mpr rfl, Option.map_some, dropWhile_blank hw₂ (hword.head _),
    takeWhile_word hword (hw₃.head_append hend)]

/-- The `uses` expression reads a line at a time. -/
theorem linePattern_uses : LinePattern usesPattern IsUses leadingReference :=
  ⟨matches_usesPattern, fun h hend => h.leadingReference (isSpace_of_newline hend)⟩

/-! ### What a step reference looks like -/

/-- A list marker is read off, where there is one. -/
theorem listItem_spec (rest : Text) :
    ∃ marker, rest = marker ++ (listItem rest).2 ∧
      ∀ r : StepReference, r.marked = (listItem rest).1 → r.IsMarker marker := by
  unfold listItem
  split
  · rename_i c rest
    split
    · rename_i hc
      refine ⟨text "-" ++ (c :: rest).takeWhile isSpace, ?_, fun r hr => ?_⟩
      · simp [text, hc]
      · rw [StepReference.IsMarker, if_pos hr]
        exact ⟨_, isBlank_takeWhile (c :: rest), by simp [hc], rfl⟩
    · refine ⟨[], rfl, fun r hr => ?_⟩
      rw [StepReference.IsMarker, if_neg (by simp [hr])]
  · refine ⟨[], rfl, fun r hr => ?_⟩
    rw [StepReference.IsMarker, if_neg (by simp [hr])]

/-- The key ends the reading of a marker. -/
theorem listItem_of_isMarker {marker : Text} (h : r.IsMarker marker) (rest : Text) :
    listItem (marker ++ (text "uses:" ++ rest)) = (r.marked, text "uses:" ++ rest) := by
  have hkey : IsWord (text "uses:") := by decide
  rw [StepReference.IsMarker] at h
  split at h
  · rename_i hmarked
    obtain ⟨w, hw, hne, rfl⟩ := h
    obtain ⟨c, w, rfl⟩ := List.exists_cons_of_ne_nil hne
    have hc : isSpace c := hw c (List.mem_cons_self ..)
    have hw : IsBlank w := fun d hd => hw d (List.mem_cons_of_mem _ hd)
    have hitem : text "-" ++ c :: w ++ (text "uses:" ++ rest) =
        '-' :: c :: (w ++ (text "uses:" ++ rest)) := by simp [text]
    rw [hitem, listItem, if_pos hc, dropWhile_blank hw (hkey.head rest), hmarked]
  · rename_i hmarked
    obtain rfl := h
    simp only [Bool.not_eq_true] at hmarked
    rw [hmarked]
    rfl

/-- The end of the line says whether there is a comment. -/
theorem ending_iff {marked : Bool} {ending : Text} (hending : ∀ c ∈ ending.head?, isSpace c) :
    (match ending.dropWhile isSpace with
      | [] => some (⟨marked, false, reference⟩ : StepReference)
      | c :: _ => if c = '#' then some ⟨marked, true, reference⟩ else none) = some r ↔
      r.marked = marked ∧ r.reference = reference ∧ r.IsEnding ending := by
  obtain ⟨marked', commented, reference'⟩ := r
  have hhash : IsWord (text "#") := by decide
  have hcomment : (∃ w comment, IsBlank w ∧ w ≠ [] ∧ ending = w ++ (text "#" ++ comment)) ↔
      ∃ comment, ending.dropWhile isSpace = '#' :: comment := by
    constructor
    · rintro ⟨w, comment, hw, -, rfl⟩
      exact ⟨comment, dropWhile_blank hw (hhash.head comment)⟩
    · rintro ⟨comment, hdrop⟩
      refine ⟨ending.takeWhile isSpace, comment, isBlank_takeWhile _, ?_, ?_⟩
      · intro htake
        have hend := List.takeWhile_append_dropWhile (p := isSpace) (l := ending)
        rw [htake, hdrop, List.nil_append] at hend
        exact absurd (hending '#' (by rw [← hend]; rfl)) (by decide)
      · calc ending = ending.takeWhile isSpace ++ ending.dropWhile isSpace :=
            List.takeWhile_append_dropWhile.symm
          _ = _ := by rw [hdrop]; rfl
  have hblank : IsBlank ending ↔ ending.dropWhile isSpace = [] := by
    rw [List.dropWhile_eq_nil_iff]
    rfl
  simp only [StepReference.IsEnding]
  rw [hcomment, hblank]
  cases hdrop : ending.dropWhile isSpace with
  | nil => cases commented <;> simp [eq_comm]
  | cons c comment => by_cases hc : c = '#' <;> cases commented <;> simp [hc, eq_comm]

/-- What follows a reference starts with white space. -/
theorem StepReference.IsEnding.head {ending : Text} (h : r.IsEnding ending) :
    ∀ c ∈ ending.head?, isSpace c := by
  rw [StepReference.IsEnding] at h
  split at h
  · obtain ⟨w, comment, hw, hne, rfl⟩ := h
    exact head_of_ne_nil hne hw
  · exact fun c hc => h c (List.mem_of_head? hc)

/-- A marker and the key start with no white space. -/
theorem StepReference.IsMarker.head {marker : Text} (h : r.IsMarker marker) (rest : Text) :
    ∀ c ∈ (marker ++ (text "uses:" ++ rest)).head?, isSpace c = false := by
  rw [StepReference.IsMarker] at h
  split at h
  · obtain ⟨w, -, -, rfl⟩ := h
    rw [List.append_assoc]
    exact IsWord.head (show IsWord (text "-") by decide) _
  · obtain rfl := h
    exact IsWord.head (show IsWord (text "uses:") by decide) rest

/-- **A step reference is read off its line**, and off no other. -/
theorem stepReference_eq_some_iff : stepReference line = some r ↔ r.IsLine line := by
  simp only [stepReference, Option.bind_eq_bind, Option.bind_eq_some_iff, dropPrefix?_eq_some,
    wordAfter_eq_some_iff]
  constructor
  · rintro ⟨_, hkey, reference, ⟨w, ending, hw, hne, hword, hending, rfl⟩, h⟩
    rw [dropWhile_blank hw (hword.head ending), dropWhile_word hword hending,
      ending_iff hending] at h
    obtain ⟨hmarked, rfl, hend⟩ := h
    obtain ⟨marker, hline, hmarker⟩ := listItem_spec (line.dropWhile isSpace)
    refine ⟨line.takeWhile isSpace, marker, w, ending, isBlank_takeWhile line, hmarker r hmarked,
      hw, hne, hword, hend, ?_⟩
    rw [← hkey, ← hline, List.takeWhile_append_dropWhile]
  · rintro ⟨indentation, marker, w, ending, hindentation, hmarker, hw, hne, hword, hend, rfl⟩
    refine ⟨w ++ (r.reference ++ ending), ?_, r.reference,
      ⟨w, ending, hw, hne, hword, hend.head, rfl⟩, ?_⟩
    · rw [dropWhile_blank hindentation (hmarker.head _), listItem_of_isMarker hmarker]
    · rw [dropWhile_blank hindentation (hmarker.head _), listItem_of_isMarker hmarker,
        dropWhile_blank hw (hword.head ending), dropWhile_word hword hend.head,
        ending_iff hend.head]
      exact ⟨rfl, rfl, hend⟩

/-- The line of a reference with neither marker nor comment. -/
theorem StepReference.IsLine.plain (h : r.IsLine line) (hmarked : r.marked = false)
    (hcommented : r.commented = false) :
    ∃ w₁ w₂ w₃, IsBlank w₁ ∧ IsBlank w₂ ∧ w₂ ≠ [] ∧ IsBlank w₃ ∧ IsWord r.reference ∧
      line = w₁ ++ (text "uses:" ++ (w₂ ++ (r.reference ++ w₃))) := by
  obtain ⟨w₁, marker, w₂, w₃, hw₁, hmarker, hw₂, hne, hword, hend, rfl⟩ := h
  rw [StepReference.IsMarker, if_neg (by simp [hmarked])] at hmarker
  rw [StepReference.IsEnding, if_neg (by simp [hcommented])] at hend
  obtain rfl := hmarker
  exact ⟨w₁, w₂, w₃, hw₁, hw₂, hne, hend, hword, rfl⟩

/-! ### What is compared -/

/-- **An accepted workflow** has the pins for its references. -/
theorem findall_of_accepted (h : inspectWorkflow source = []) :
    usesPattern.findall source = ACTION_PINS := by
  simp only [inspectWorkflow, List.append_eq_nil_iff] at h
  by_contra hne
  simp [hne] at h

/-- No pin is the key. -/
theorem key_not_mem_pins : text "uses:" ∉ ACTION_PINS := by decide

/-- White space before the key holds no line end, where the key is on the line. -/
theorem not_blank_before_key {q : Position Char} {w₁ after v : Text}
    (hline : q.line newline = w₁ ++ (text "uses:" ++ after)) (hw₁ : IsBlank w₁) (hv : IsBlank v)
    (hrest : q.rest = v ++ rest') (hend : ∀ c ∈ rest'.head?, c = newline) : False := by
  have hkey : IsWord (text "uses:") := by decide
  have hsplit : q.rest = w₁ ++ (text "uses:" ++ (after ++ q.rest.dropWhile (· ≠ newline))) := by
    calc q.rest = q.line newline ++ q.rest.dropWhile (· ≠ newline) := q.rest_eq_line_append newline
      _ = _ := by rw [hline]; simp
  have hspaces : q.rest.takeWhile isSpace = w₁ := by
    rw [hsplit]
    exact takeWhile_run hw₁ (hkey.head _)
  cases rest' with
  | nil =>
    have hu : 'u' ∈ v := by
      rw [← List.append_nil v, ← hrest, hsplit]
      simp [text]
    exact absurd (hv 'u' hu) (by decide)
  | cons c rest' =>
    obtain rfl : c = newline := hend c rfl
    have hmem : newline ∈ q.line newline := by
      rw [hline, ← hspaces, hrest, List.takeWhile_append_of_pos hv]
      have hspace : isSpace newline := by decide
      simp [hspace]
    simpa using List.mem_takeWhile_imp hmem

/-- The first word of a line with a key is the key. -/
theorem firstWord_of_line {q : Position Char} {w₁ w₂ after : Text}
    (hline : q.line newline = w₁ ++ (text "uses:" ++ (w₂ ++ after))) (hw₁ : IsBlank w₁)
    (hw₂ : IsBlank w₂) (hne : w₂ ≠ []) :
    (q.rest.dropWhile isSpace).takeWhile isNonSpace = text "uses:" := by
  have hkey : IsWord (text "uses:") := by decide
  have hspace : ∀ c ∈ (w₂ ++ after ++ q.rest.dropWhile (· ≠ newline)).head?, isSpace c := by
    rw [List.append_assoc]
    exact head_of_ne_nil hne hw₂
  rw [q.rest_eq_line_append newline, hline, List.append_assoc, List.append_assoc,
    dropWhile_blank hw₁ (hkey.head _), takeWhile_word hkey hspace]

/-- **A reference in the text that a match takes.**  Whether the place lies in the
white space before the key, before the reference or behind it, the reference is
the one that the match captures. -/
theorem mem_pins_of_within {q : Position Char} {u v w₁ w₂ w₃ reference' : Text}
    (hline : q.line newline = w₁ ++ (text "uses:" ++ (w₂ ++ (reference ++ w₃))))
    (hw₁ : IsBlank w₁) (hw₂ : IsBlank w₂) (hne : w₂ ≠ []) (hw₃ : IsBlank w₃)
    (hword : IsWord reference) (huses : IsUses reference' (u ++ v))
    (hu : u.getLast? = some newline) (hrest : q.rest = v ++ rest')
    (hend : ∀ c ∈ rest'.head?, c = newline) (hpin : reference' ∈ ACTION_PINS) :
    reference ∈ ACTION_PINS := by
  have hlead : leadingReference q.rest = some reference := by
    have hlineUses : IsUses reference (q.line newline) :=
      ⟨w₁, w₂, w₃, hw₁, hw₂, hw₃, hword, hline⟩
    rw [q.rest_eq_line_append newline]
    exact hlineUses.leadingReference (isSpace_of_newline head_behind_line)
  have hfirst := firstWord_of_line hline hw₁ hw₂ hne
  -- the match goes on with its key and reference, or with its reference
  have hagain : IsUses reference' v → reference ∈ ACTION_PINS := fun h => by
    have hlead' := h.leadingReference (isSpace_of_newline hend)
    rw [← hrest, hlead] at hlead'
    rwa [Option.some.inj hlead']
  obtain ⟨a₁, a₂, a₃, ha₁, ha₂, ha₃, hword', htaken⟩ := huses
  have hreference : ∀ z, IsBlank z → v ≠ z ++ (reference' ++ a₃) := by
    rintro z hz rfl
    have hafter := ha₃.head_append (isSpace_of_newline hend)
    rw [hrest, List.append_assoc, List.append_assoc, dropWhile_blank hz (hword'.head _),
      takeWhile_word hword' hafter] at hfirst
    exact key_not_mem_pins (hfirst ▸ hpin)
  -- the white space before the key of the match, and its key
  rcases split_cases (.inr hu) htaken with ⟨z, rfl, rfl⟩ | ⟨x, rfl, hx, hlast⟩
  · have hz : IsBlank z := fun c hc => ha₁ c (List.mem_append_right _ hc)
    exact hagain ⟨z, a₂, a₃, hz, ha₂, ha₃, hword', rfl⟩
  rcases split_past hlast (by decide) hx with rfl | ⟨y, rfl, hy, hlast⟩
  · exact hagain ⟨[], a₂, a₃, by simp [IsBlank], ha₂, ha₃, hword', hx⟩
  exfalso
  -- the white space before its reference, and its reference
  rcases split_cases (.inr hlast) hy with ⟨z, rfl, hv⟩ | ⟨x, rfl, hx, hlast⟩
  · exact hreference z (fun c hc => ha₂ c (List.mem_append_right _ hc)) hv
  rcases split_past hlast hword'.newline_not_mem hx with rfl | ⟨z, rfl, hz, -⟩
  · exact hreference [] (by simp [IsBlank]) hx
  · have hv : IsBlank v := fun c hc => ha₃ c (hz ▸ List.mem_append_right _ hc)
    exact not_blank_before_key hline hw₁ hv hrest hend

/-- **What has neither marker nor comment is a pin** in an accepted workflow. -/
theorem pinned_of_plain (h : inspectWorkflow source = []) (hr : r ∈ stepReferences source)
    (hmarked : r.marked = false) (hcommented : r.commented = false) :
    r.reference ∈ ACTION_PINS := by
  rw [stepReferences, lines, ← filterMap_atLine, List.mem_filterMap] at hr
  obtain ⟨q, hq, hr⟩ := hr
  obtain ⟨hstart, hline⟩ := Position.atLine_eq_some_iff.mp hr
  obtain ⟨w₁, w₂, w₃, hw₁, hw₂, hne, hw₃, hword, hline⟩ :=
    (stepReference_eq_some_iff.mp hline).plain hmarked hcommented
  have hcaptured : ∀ {p o}, (p, o) ∈ Pattern.founds (usesPattern.scan source) →
      Pattern.captured o ∈ ACTION_PINS := fun hfound => by
    rw [← findall_of_accepted h]
    exact List.mem_map_of_mem hfound
  have huses : IsUses r.reference (q.line newline) :=
    ⟨w₁, w₂, w₃, hw₁, hw₂, hw₃, hword, hline⟩
  rcases Pattern.position_cases usesPattern hq with hmiss | ⟨o, hfound⟩ | hpassed
  · obtain ⟨o, ho, -⟩ := linePattern_uses.exists_first hstart head_behind_line huses
    rw [← q.rest_eq_line_append newline, hmiss] at ho
    cases ho
  · obtain ⟨-, -, hread⟩ := linePattern_uses.of_found hfound
    have hend : ∀ c ∈ (q.rest.dropWhile (· ≠ newline)).head?, c = newline := head_behind_line
    have hlead := linePattern_uses.read_append huses hend
    rw [← q.rest_eq_line_append newline, hread] at hlead
    exact Option.some.inj hlead ▸ hcaptured hfound
  · obtain ⟨p, o, u, v, hfound, htaken, hu, -, -, hv, hbefore⟩ :=
      Pattern.exists_found_of_passed hpassed
    obtain ⟨hend, huses', -⟩ := linePattern_uses.of_found hfound
    rw [htaken] at huses'
    have hlast := Position.getLast?_of_startsLine hstart hu hbefore
    exact mem_pins_of_within hline hw₁ hw₂ hne hw₃ hword huses' hlast hv hend (hcaptured hfound)

/-- **An accepted workflow pins its actions** exactly when it pins those behind a
list marker and those before a comment. -/
theorem actions_pinned_iff (h : inspectWorkflow source = []) :
    ActionsPinned source ↔
      ∀ r ∈ stepReferences source, r.marked ∨ r.commented → r.reference ∈ ACTION_PINS := by
  constructor
  · intro hall r hr _
    exact hall r hr
  · intro hunseen r hr
    by_cases hplain : r.marked ∨ r.commented
    · exact hunseen r hr hplain
    · simp only [not_or, Bool.not_eq_true] at hplain
      exact pinned_of_plain h hr hplain.1 hplain.2

/-- The fixture of `self_test`. -/
def complete : Text :=
  (text "\n").intercalate
    ((RUNNERS.map fun (runner, system, architecture) =>
        text "- runner: " ++ runner ++ text "\n  target_os: " ++ system ++
          text "\n  target_arch: " ++ architecture) ++
      (ACTION_PINS.map fun action => text "uses: " ++ action) ++
      [text "permissions:\n  contents: read", text "fetch-depth: 0", text "submodules: recursive",
        text "persist-credentials: false", text "python-version: \"3.12\"", text "timeout-minutes:",
        text "uv run --frozen python tools/verify.py --runtime --expected-os x --expected-arch y"])

/-- Its references are the pins. -/
theorem stepReferences_complete :
    stepReferences complete = ACTION_PINS.map fun action => ⟨false, false, action⟩ := by
  decide +kernel

/-- The fixture of `self_test`, whose actions are pinned. -/
theorem actions_pinned_complete : stepReferences complete ≠ [] ∧ ActionsPinned complete := by
  refine ⟨?_, (actions_pinned_iff (by decide +kernel)).mpr ?_⟩
  · rw [stepReferences_complete]
    exact List.cons_ne_nil _ _
  · rw [stepReferences_complete]
    simp [ACTION_PINS]

/-- The fixture with one more step. -/
def unpinned : Text := complete ++ text "\n- uses: actions/cache@main\n"

/-- **A step that starts with its key is not seen**, and uses what it likes. -/
theorem actions_not_pinned :
    inspectWorkflow unpinned = [] ∧ ¬ ActionsPinned unpinned := by
  decide +kernel

end

end Tools
end GcnPort
