/-
# What a passing Dolphin test log says

`validate_result` of `tools/gcnport_tools/dolphin_tests.py` reads a GoogleTest
log with regular expressions in which `\s` may be the end of a line.  A log is
meant to be read line by line (`LogExact`), and the two readings differ in two
ways.  A status takes more than its line: the lines its tag and its name go on
over, and the next line whole where the name ends its line, since the optional tail
may start with the line end (`linesTaken`).  The names on the lines that are taken
along are lost (`lostNames`).  And a tag that is broken over lines is found although
no line has it (`brokenNames`).  Both are read off the lines of the log, and nothing
else goes wrong (`lineScan_status`, `findall_status_perm`): an accepted log says what
it is accepted for exactly when the names lost are the names broken and no summary is
broken (`log_exact_iff`).  Where no tag is broken over lines, that is: no status line
stands right behind one whose name ends it (`log_exact_iff_of_unbroken`).
-/

import GcnPort.Foundation.LineScan
import GcnPort.Tools.Regex

namespace GcnPort
namespace Tools

open Foundation

/-- `^\[\s*STATUS\s*\]\s+(\S+)(?:\s.*)?$`. -/
def statusPattern (status : Text) : Pattern Char :=
  .sequence [lineStart, bracketed (.literal status), someSpaces, word,
    .opt (.seq (.one isSpace) (.many (· ≠ newline))), lineEnd]

/-- `^\[\s*PASSED\s*\]\s+(\d+) tests?\.$`. -/
def summaryPattern : Pattern Char :=
  .sequence [lineStart, bracketed (.literal (text "PASSED")), someSpaces,
    .group (.atLeastOne isDecimal), .literal (text " test"), .opt (.literal (text "s")),
    .literal (text "."), lineEnd]

/-- `\[\s*(?:FAILED|SKIPPED)\s*\]`. -/
def failurePattern : Pattern Char :=
  bracketed (.alt (.literal (text "FAILED")) (.literal (text "SKIPPED")))

/-- The tags of `failurePattern`. -/
def failureTags : List Text := [text "FAILED", text "SKIPPED"]

/-- The tags of failures are words. -/
theorem isWord_of_mem_failureTags {tag : Text} (h : tag ∈ failureTags) : IsWord tag := by
  rcases h with _ | ⟨_, _ | ⟨_, h⟩⟩
  · decide
  · decide
  · cases h

/-- The errors of `validate_result`. -/
inductive ResultError where
  | failureOrSkip
  | inventoryMismatch (status : Text) (expected names : List Text)
  | passingCountMismatch (expected : ℕ) (summaries : List Text)
deriving DecidableEq, Repr

/-- `str(n)`. -/
def str (n : ℕ) : Text := Nat.toDigits 10 n

/-- The message of the `RuntimeError`; `repr` is Python's of a list. -/
def ResultError.message (repr : List Text → Text) : ResultError → Text
  | .failureOrSkip => text "required Dolphin regressions reported a failure or skip"
  | .inventoryMismatch status expected names =>
    text "Dolphin " ++ status ++ text " inventory mismatch: expected " ++ repr expected ++
      text ", observed " ++ repr names
  | .passingCountMismatch expected summaries =>
    text "Dolphin passing-count mismatch: expected " ++ str expected ++ text ", observed " ++
      repr summaries

/-- The statuses whose names are compared. -/
def STATUSES : List Text := [text "RUN", text "OK"]

/-- The comparison of the names of one status; equal counters are permutations. -/
def checkInventory (output : Text) (expected : List Text) (status : Text) :
    Except ResultError Unit :=
  let names := (statusPattern status).findall output
  if names.Perm expected then .ok () else .error (.inventoryMismatch status expected names)

/-- `validate_result`. -/
def validateResult (output : Text) (expected : List Text) : Except ResultError Unit := do
  if failurePattern.search output then
    throw .failureOrSkip
  STATUSES.forM (checkInventory output expected)
  let summaries := summaryPattern.findall output
  if summaries ≠ [str expected.length] then
    throw (.passingCountMismatch expected.length summaries)

/-! ### A log, line by line -/

/-- The name on a line of a status: the tag, white space and the name. -/
def statusName (status line : Text) : Option Text := (afterTag status line).bind wordAfter

/-- The number on a summary line. -/
def summaryNumber (line : Text) : Option Text := do
  let rest ← afterTag (text "PASSED") line
  let number := (rest.dropWhile isSpace).takeWhile isDecimal
  let ending := (rest.dropWhile isSpace).dropWhile isDecimal
  let rest' ← (ending.dropPrefix? (text " test.")).or (ending.dropPrefix? (text " tests."))
  if rest.head?.any isSpace ∧ number ≠ [] ∧ rest'.head?.all (· = newline) then some number else none

/-- The line has a bracketed tag somewhere. -/
def HasTag (tag line : Text) : Prop :=
  ∃ before rest, line = before ++ rest ∧ (afterTag tag rest).isSome

/-- **What the log of a passing run says**, line by line. -/
structure LogExact (output : Text) (expected : List Text) : Prop where
  runs : ((lines output).filterMap (statusName (text "RUN"))).Perm expected
  oks : ((lines output).filterMap (statusName (text "OK"))).Perm expected
  passed : (lines output).filterMap summaryNumber = [str expected.length]
  clean : ∀ line ∈ lines output, ¬ HasTag (text "FAILED") line ∧ ¬ HasTag (text "SKIPPED") line

/-- What stands behind the tag of a status and its name. -/
def behindName (status rest : Text) : Option Text :=
  (afterTag status rest).bind fun behind =>
    (wordAfter behind).map fun _ => (behind.dropWhile isSpace).dropWhile isNonSpace

/-- **The lines a status takes along** behind its own: those that its tag and its name
go on over, and the next line whole where the name ends its line. -/
def linesTaken (status : Text) (ls : List Text) : ℕ :=
  match behindName status (joined newline ls) with
  | none => 0
  | some behind =>
    ((joined newline ls).count newline - behind.count newline) +
      if behind.head? = some newline then 1 else 0

/-- The names on the lines that a status takes along: nothing looks at them. -/
def lostNames (status : Text) (ls : List Text) : List Text :=
  (takenLines (linesTaken status) 0 ls).filterMap (statusName status)

/-- The names of the statuses whose tag is broken over lines: no line has them. -/
def brokenNames (status : Text) (ls : List Text) : List Text :=
  (ownLines (linesTaken status) 0 ls).filterMap (broken newline (statusName status))

/-- Nothing that is read at a line is broken over lines. -/
def Unbroken (read : Text → Option Text) (ls : List Text) : Prop :=
  ∀ rest ∈ ls.tails, broken newline read rest = none

instance (read : Text → Option Text) (ls : List Text) : Decidable (Unbroken read ls) :=
  inferInstanceAs (Decidable (∀ rest ∈ ls.tails, broken newline read rest = none))

section

variable {status before rest t rest' name number : Text} {captures : List Text}

/-! ### What the status expression finds -/

/-- The name behind a tag. -/
theorem statusName_eq_some_iff (hstatus : IsWord status) :
    statusName status rest = some name ↔
      ∃ piece w after, IsTag status piece ∧ IsBlank w ∧ w ≠ [] ∧ IsWord name ∧
        (∀ c ∈ after.head?, isSpace c) ∧ rest = piece ++ (w ++ (name ++ after)) := by
  simp only [statusName, Option.bind_eq_some_iff, afterTag_eq_some_iff hstatus,
    wordAfter_eq_some_iff]
  constructor
  · rintro ⟨_, ⟨piece, hpiece, rfl⟩, w, after, hw, hne, hname, hafter, rfl⟩
    exact ⟨piece, w, after, hpiece, hw, hne, hname, hafter, rfl⟩
  · rintro ⟨piece, w, after, hpiece, hw, hne, hname, hafter, rfl⟩
    exact ⟨_, ⟨piece, hpiece, rfl⟩, w, after, hw, hne, hname, hafter, rfl⟩

/-- The tail of a status: nothing, or a space and the rest of a line. -/
def IsTail (tail : Text) : Prop :=
  tail = [] ∨ ∃ c line, isSpace c ∧ newline ∉ line ∧ tail = c :: line

/-- A tail starts with white space, as the end of a line does. -/
theorem IsTail.head_append {tail : Text} (h : IsTail tail) (hend : ∀ c ∈ rest'.head?, c = newline) :
    ∀ c ∈ (tail ++ rest').head?, isSpace c := by
  rcases h with rfl | ⟨c, line, hc, -, rfl⟩
  · exact isSpace_of_newline hend
  · intro d hd
    obtain rfl : c = d := by simpa using hd
    exact hc

/-- The text of a tag and its name. -/
def IsStatus (status name t : Text) : Prop :=
  ∃ piece w tail, IsTag status piece ∧ IsBlank w ∧ w ≠ [] ∧ IsWord name ∧ IsTail tail ∧
    t = piece ++ (w ++ (name ++ tail))

/-- White space and the rest of its line. -/
theorem matches_spaceAndLine :
    (Pattern.seq (.one isSpace) (.many (· ≠ newline))).Matches before rest t rest' captures ↔
      ∃ c line, isSpace c ∧ newline ∉ line ∧ t = c :: line ∧ rest = t ++ rest' ∧ captures = [] := by
  constructor
  · intro h
    obtain ⟨_, _, _, line, _, hone, hmany, rfl, rfl⟩ := Pattern.matches_seq.mp h
    obtain ⟨c, hc, rfl, rfl, rfl⟩ := Pattern.matches_one.mp hone
    obtain ⟨rfl, hnewline, rfl⟩ := matches_restOfLine.mp hmany
    exact ⟨c, line, hc, hnewline, rfl, by simp, rfl⟩
  · rintro ⟨c, line, hc, hnewline, rfl, rfl, rfl⟩
    refine Pattern.matches_seq.mpr ⟨[c], line ++ rest', [], line, [], ?_, ?_, rfl, rfl⟩
    · exact Pattern.matches_one.mpr ⟨c, hc, rfl, rfl, rfl⟩
    · exact matches_restOfLine.mpr ⟨rfl, hnewline, rfl⟩

/-- The pattern of the tail. -/
theorem matches_tail :
    (Pattern.sequence [.opt (.seq (.one isSpace) (.many (· ≠ newline))), lineEnd]).Matches
        before rest t rest' captures ↔
      IsTail t ∧ rest = t ++ rest' ∧ (∀ c ∈ rest'.head?, c = newline) ∧ captures = [] := by
  constructor
  · intro h
    obtain ⟨tail, r, cs, _, _, htail, h₁, rfl, rfl⟩ := Pattern.matches_sequence_cons.mp h
    obtain ⟨hend, rfl, rfl, rfl⟩ := Pattern.matches_lineEnd_last.mp h₁
    rcases Pattern.matches_opt.mp htail with htail | ⟨rfl, rfl, rfl⟩
    · obtain ⟨c, line, hc, hnewline, rfl, rfl, rfl⟩ := matches_spaceAndLine.mp htail
      exact ⟨.inr ⟨c, line, hc, hnewline, by simp⟩, by simp, by simpa using hend, rfl⟩
    · exact ⟨.inl rfl, rfl, by simpa using hend, rfl⟩
  · rintro ⟨htail, rfl, hend, rfl⟩
    refine Pattern.matches_sequence_cons.mpr ⟨t, rest', [], [], [], ?_,
      Pattern.matches_lineEnd_last.mpr ⟨by simpa using hend, rfl, rfl, rfl⟩, by simp, rfl⟩
    rcases htail with rfl | ⟨c, line, hc, hnewline, rfl⟩
    · exact Pattern.matches_opt.mpr (.inr ⟨rfl, rfl, rfl⟩)
    · exact Pattern.matches_opt.mpr (.inl
        (matches_spaceAndLine.mpr ⟨c, line, hc, hnewline, rfl, rfl, rfl⟩))

/-- **What the status expression matches.** -/
theorem matches_statusPattern :
    (statusPattern status).Matches before rest t rest' captures ↔
      (∀ c ∈ before.head?, c = newline) ∧ (∀ c ∈ rest'.head?, c = newline) ∧ rest = t ++ rest' ∧
        ∃ name, captures = [name] ∧ IsStatus status name t := by
  constructor
  · intro h
    obtain ⟨hstart, h₁⟩ := Pattern.matches_lineStart_then.mp h
    obtain ⟨piece, _, _, hpiece, rfl, rfl, h₂⟩ := matches_bracketed_then.mp h₁
    obtain ⟨w, _, _, rfl, hw, hne, rfl, h₃⟩ := Pattern.matches_atLeastOne_then.mp h₂
    obtain ⟨name, _, _, _, rfl, hname, hname', rfl, rfl, h₄⟩ :=
      Pattern.matches_captured_then.mp h₃
    obtain ⟨htail, rfl, hend, rfl⟩ := matches_tail.mp h₄
    exact ⟨by simpa using hstart, hend, by simp, name, rfl,
      piece, w, _, hpiece, hw, hne, ⟨hname', hname⟩, htail, rfl⟩
  · rintro ⟨hstart, hend, rfl, name, rfl, piece, w, tail, hpiece, hw, hne, hname, htail, rfl⟩
    refine Pattern.matches_lineStart_then.mpr ⟨by simpa using hstart, ?_⟩
    refine matches_bracketed_then.mpr ⟨piece, _, _, hpiece, by simp; rfl, rfl, ?_⟩
    refine Pattern.matches_atLeastOne_then.mpr ⟨w, _, _, rfl, hw, hne, rfl, ?_⟩
    refine Pattern.matches_captured_then.mpr ⟨name, _, _, [], rfl, hname.2, hname.1, rfl, rfl, ?_⟩
    exact matches_tail.mpr ⟨htail, rfl, hend, rfl⟩

/-- **The name that is captured** stands behind the tag in the rest of the text. -/
theorem IsStatus.statusName_append (hstatus : IsWord status) (h : IsStatus status name t)
    (hend : ∀ c ∈ rest'.head?, c = newline) : statusName status (t ++ rest') = some name := by
  obtain ⟨piece, w, tail, hpiece, hw, hne, hname, htail, rfl⟩ := h
  exact (statusName_eq_some_iff hstatus).mpr
    ⟨piece, w, tail ++ rest', hpiece, hw, hne, hname, htail.head_append hend, by simp⟩

/-- A name behind a tag is the name of a status, which takes the tail. -/
theorem exists_status_of_statusName (hstatus : IsWord status)
    (h : statusName status rest = some name) :
    ∃ t rest', IsStatus status name t ∧ (∀ c ∈ rest'.head?, c = newline) ∧ rest = t ++ rest' := by
  obtain ⟨piece, w, after, hpiece, hw, hne, hname, hafter, rfl⟩ :=
    (statusName_eq_some_iff hstatus).mp h
  cases after with
  | nil =>
    exact ⟨piece ++ (w ++ (name ++ [])), [],
      ⟨piece, w, [], hpiece, hw, hne, hname, .inl rfl, rfl⟩, by simp, by simp⟩
  | cons c line =>
    have hnewline : newline ∉ line.takeWhile (· ≠ newline) := fun hmem => by
      simpa using List.mem_takeWhile_imp hmem
    refine ⟨piece ++ (w ++ (name ++ c :: line.takeWhile (· ≠ newline))),
      line.dropWhile (· ≠ newline), ⟨piece, w, _, hpiece, hw, hne, hname,
        .inr ⟨c, _, hafter c rfl, hnewline, rfl⟩, rfl⟩, head_behind_line, ?_⟩
    simp [List.takeWhile_append_dropWhile]

/-- The status expression reads a line at a time. -/
theorem linePattern_status (hstatus : IsWord status) :
    LinePattern (statusPattern status) (IsStatus status) (statusName status) :=
  ⟨matches_statusPattern, fun h hend => h.statusName_append hstatus hend⟩

/-- The preferred tail is nothing at the end of the text only: a line end is taken
with the line behind it. -/
theorem first_tail {o : Outcome Char}
    (h : (Pattern.sequence [.opt (.seq (.one isSpace) (.many (· ≠ newline))), lineEnd]).first
      before rest = some o) (htaken : o.taken = []) : o.rest = [] := by
  obtain ⟨-, hrest, hend, -⟩ := matches_tail.mp (Pattern.matches_of_first h)
  rw [htaken, List.nil_append] at hrest
  cases hr : o.rest with
  | nil => rfl
  | cons c line =>
    -- the tail could take the line end and the line behind it
    have hc : isSpace c := isSpace_of_newline hend c (by rw [hr]; rfl)
    have hline : newline ∉ line.takeWhile (· ≠ newline) := fun hmem => by
      simpa using List.mem_takeWhile_imp hmem
    have hbehind : ∀ d ∈ (line.dropWhile (· ≠ newline)).head?, d = newline := head_behind_line
    have htail : (Pattern.seq (.one isSpace) (.many (· ≠ newline))).Matches before rest
        (c :: line.takeWhile (· ≠ newline)) (line.dropWhile (· ≠ newline)) [] :=
      matches_spaceAndLine.mpr ⟨c, _, hc, hline, rfl, by simp [hrest, hr], rfl⟩
    have hlast : ∀ before, (Pattern.sequence [lineEnd]).Matches before
        (line.dropWhile (· ≠ newline)) [] (line.dropWhile (· ≠ newline)) [] := fun before =>
      Pattern.matches_lineEnd_last.mpr ⟨by simpa using hbehind, rfl, rfl, rfl⟩
    obtain ⟨o', ho'⟩ := Pattern.exists_first
      (Pattern.matches_sequence_cons.mpr ⟨_, _, _, [], [], htail, hlast _, rfl, rfl⟩)
    rw [Pattern.first_opt_then, ho', Option.some_or] at h
    obtain rfl := Option.some.inj h
    obtain ⟨_, _, _, _, _, hseq, -, htaken', -⟩ :=
      Pattern.matches_sequence_cons.mp (Pattern.matches_of_first ho')
    obtain ⟨d, line', -, -, rfl, -⟩ := matches_spaceAndLine.mp hseq
    rw [htaken'] at htaken
    cases htaken

/-- **The text of the match that is found**, which goes on behind the name wherever
there is text. -/
theorem first_statusPattern {o : Outcome Char}
    (h : (statusPattern status).first before rest = some o) :
    ∃ piece w name tail, IsTag status piece ∧ IsBlank w ∧ w ≠ [] ∧ IsWord name ∧ IsTail tail ∧
      o.taken = piece ++ (w ++ (name ++ tail)) ∧ (tail = [] → o.rest = []) := by
  obtain ⟨_, _, _, o₁, hstart, h₁, rfl⟩ := Pattern.first_sequence_cons h
  obtain ⟨-, rfl, rfl, -⟩ := Pattern.matches_lineStart.mp hstart
  obtain ⟨piece, _, _, o₂, htag, h₂, rfl⟩ := Pattern.first_sequence_cons h₁
  obtain ⟨hpiece, rfl, -⟩ := matches_bracketed.mp htag
  obtain ⟨w, _, _, o₃, hspaces, h₃, rfl⟩ := Pattern.first_sequence_cons h₂
  obtain ⟨rfl, hw, hne, -⟩ := Pattern.matches_atLeastOne.mp hspaces
  obtain ⟨name, _, _, o₄, hword, h₄, rfl⟩ := Pattern.first_sequence_cons h₃
  obtain ⟨_, hrun, -⟩ := Pattern.matches_group.mp hword
  obtain ⟨rfl, hname, hname', -⟩ := Pattern.matches_atLeastOne.mp hrun
  obtain ⟨htail, -⟩ := matches_tail.mp (Pattern.matches_of_first h₄)
  exact ⟨piece, w, name, o₄.taken, hpiece, hw, hne, ⟨hname', hname⟩, htail, rfl, first_tail h₄⟩

/-! ### The lines a status takes along -/

/-- **What is behind the name.** -/
theorem behindName_eq_some_iff {behind : Text} (hstatus : IsWord status) :
    behindName status rest = some behind ↔
      ∃ piece w name, IsTag status piece ∧ IsBlank w ∧ w ≠ [] ∧ IsWord name ∧
        (∀ c ∈ behind.head?, isSpace c) ∧ rest = piece ++ (w ++ (name ++ behind)) := by
  simp only [behindName, Option.bind_eq_some_iff, afterTag_eq_some_iff hstatus,
    Option.map_eq_some_iff, wordAfter_eq_some_iff]
  constructor
  · rintro ⟨_, ⟨piece, hpiece, rfl⟩, name, ⟨w, after, hw, hne, hname, hafter, rfl⟩, hbehind⟩
    rw [dropWhile_blank hw (hname.head after), dropWhile_word hname hafter] at hbehind
    exact ⟨piece, w, name, hpiece, hw, hne, hname, hbehind ▸ hafter, by rw [hbehind]⟩
  · rintro ⟨piece, w, name, hpiece, hw, hne, hname, hafter, rfl⟩
    refine ⟨_, ⟨piece, hpiece, rfl⟩, name, ⟨w, behind, hw, hne, hname, hafter, rfl⟩, ?_⟩
    rw [dropWhile_blank hw (hname.head behind), dropWhile_word hname hafter]

/-- There is something behind a name where there is a name. -/
theorem behindName_eq_none_iff : behindName status rest = none ↔ statusName status rest = none := by
  rw [behindName, statusName]
  cases afterTag status rest <;> simp

/-- The lines taken, where the text is split behind the name. -/
theorem linesTaken_eq {ls : List Text} {front behind : Text}
    (hls : joined newline ls = front ++ behind)
    (hbehind : behindName status (joined newline ls) = some behind) :
    linesTaken status ls =
      front.count newline + if behind.head? = some newline then 1 else 0 := by
  rw [linesTaken, hbehind, hls, List.count_append]
  simp only [Nat.add_sub_cancel]

/-- A line without a name takes none. -/
theorem linesTaken_eq_zero {ls : List Text} (h : statusName status (joined newline ls) = none) :
    linesTaken status ls = 0 := by
  rw [linesTaken, behindName_eq_none_iff.mpr h]

/-- A name on a line is read whatever ends the line. -/
theorem readsOn_statusName (hstatus : IsWord status) : ReadsOn newline (statusName status) := by
  intro line after name h hafter
  obtain ⟨piece, w, behind, hpiece, hw, hne, hname, hbehind, rfl⟩ :=
    (statusName_eq_some_iff hstatus).mp h
  exact (statusName_eq_some_iff hstatus).mpr ⟨piece, w, behind ++ after, hpiece, hw, hne, hname,
    head_append hbehind (isSpace_of_newline hafter), by simp⟩

/-- **The status expression reads lines**, and takes those along that `linesTaken`
says. -/
theorem lineScan_status (hstatus : IsWord status) :
    (statusPattern status).LineScan newline (statusName status) (linesTaken status) where
  starts h := by
    obtain ⟨hstart, -⟩ := matches_statusPattern.mp (Pattern.matches_of_first h)
    simpa [Option.all_eq_true] using hstart
  head_taken h := by
    obtain ⟨_, _, _, _, ⟨_, _, -, -, rfl⟩, -, -, -, -, htaken, -⟩ := first_statusPattern h
    exact ⟨'[', by rw [htaken]; rfl, by decide⟩
  ends h := ((linePattern_status hstatus).of_matches (Pattern.matches_of_first h)).1
  read_first h := ((linePattern_status hstatus).of_matches (Pattern.matches_of_first h)).2.2
  takes_first {before rest o} h := by
    obtain ⟨piece, w, name, tail, hpiece, hw, hne, hname, htail, htaken, hend⟩ :=
      first_statusPattern h
    obtain ⟨hafter, -⟩ := (linePattern_status hstatus).of_matches (Pattern.matches_of_first h)
    have hrest := (Pattern.matches_of_first h).eq_append
    have hls : joined newline (rest.splitOn newline) = rest := List.intercalate_splitOn newline
    have hbehind : behindName status rest = some (tail ++ o.rest) :=
      (behindName_eq_some_iff hstatus).mpr ⟨piece, w, name, hpiece, hw, hne, hname,
        htail.head_append hafter, by rw [hrest, htaken]; simp⟩
    have hfront : rest = piece ++ (w ++ name) ++ (tail ++ o.rest) := by rw [hrest, htaken]; simp
    rw [linesTaken_eq (hls.trans hfront) (by rw [hls, hbehind]), htaken]
    rcases htail with rfl | ⟨c, line, -, hline, rfl⟩
    · simp [hend rfl]
    · simp [List.count_cons, List.count_eq_zero_of_not_mem hline, Nat.add_assoc]
  of_none {before rest} hstart h := by
    have hnone : statusName status rest = none := by
      rw [Option.eq_none_iff_forall_ne_some]
      intro name hname
      obtain ⟨t, rest', ht, hend, rfl⟩ := exists_status_of_statusName hstatus hname
      have hstart : ∀ c ∈ before.head?, c = newline := by simpa [Option.all_eq_true] using hstart
      obtain ⟨o, ho, -⟩ := (linePattern_status hstatus).exists_first hstart hend ht
      rw [h] at ho
      cases ho
    refine ⟨hnone, linesTaken_eq_zero ?_⟩
    rw [joined, List.intercalate_splitOn, hnone]
  readsOn := readsOn_statusName hstatus

/-- **The names found and the names lost** are the names on lines and the names of
broken tags. -/
theorem findall_status_perm (output : Text) (hstatus : IsWord status) :
    List.Perm ((statusPattern status).findall output ++ lostNames status (lines output))
      ((lines output).filterMap (statusName status) ++ brokenNames status (lines output)) :=
  (lineScan_status hstatus).findall_append_perm output

/-! ### Logs without broken tags -/

/-- A line of a text holds no line end. -/
theorem newline_not_mem_of_mem_lines {output line : Text} (h : line ∈ lines output) :
    newline ∉ line := by
  rw [lines, ← List.filterMap_some (l := output.splitOn newline), ← filterMap_atLine,
    List.mem_filterMap] at h
  obtain ⟨q, -, hline⟩ := h
  obtain ⟨-, hline⟩ := Position.atLine_eq_some_iff.mp hline
  obtain rfl : q.line newline = line := Option.some.inj hline
  exact fun hmem => by simpa using List.mem_takeWhile_imp hmem

/-- Where the lines are unbroken, so are those behind the first. -/
theorem Unbroken.tail {read : Text → Option Text} {line : Text} {ls : List Text}
    (h : Unbroken read (line :: ls)) : Unbroken read ls := fun rest hrest =>
  h rest ((List.mem_tails ..).mpr (((List.mem_tails ..).mp hrest).trans (List.suffix_cons _ _)))

/-- Where the lines are unbroken, no name is. -/
theorem Unbroken.brokenNames_eq_nil {ls : List Text} (h : Unbroken (statusName status) ls) :
    brokenNames status ls = [] := by
  rw [brokenNames, List.filterMap_eq_nil_iff]
  exact fun rest hrest => h rest ((List.mem_tails ..).mpr (suffix_of_mem_ownLines hrest))

/-- **The line a status takes along**, where its tag is on one line: the next, if the
name ends the line. -/
theorem Unbroken.linesTaken_cons (hstatus : IsWord status) {line : Text} {ls : List Text}
    (h : Unbroken (statusName status) (line :: ls)) (hline : newline ∉ line) :
    linesTaken status (line :: ls) =
      if behindName status line = some [] ∧ ls ≠ [] then 1 else 0 := by
  cases hname : statusName status line with
  | none =>
    have hread := h (line :: ls) ((List.mem_tails ..).mpr (List.suffix_refl _))
    rw [broken_cons_of_none hname] at hread
    rw [linesTaken_eq_zero hread, behindName_eq_none_iff.mpr hname]
    simp
  | some name =>
    obtain ⟨piece, w, behind, hpiece, hw, hne, hword, hbehind, rfl⟩ :=
      (statusName_eq_some_iff hstatus).mp hname
    obtain ⟨after, hls, hafter, hnext⟩ := exists_intercalate_cons newline
      (piece ++ (w ++ (name ++ behind))) ls
    have hspace := head_append hbehind (isSpace_of_newline hafter)
    have hfront : newline ∉ piece ++ (w ++ name) := fun hmem => hline (by simp_all)
    have hls : joined newline ((piece ++ (w ++ (name ++ behind))) :: ls) =
        piece ++ (w ++ name) ++ (behind ++ after) := by rw [joined, hls]; simp
    have hon : behindName status (joined newline ((piece ++ (w ++ (name ++ behind))) :: ls)) =
        some (behind ++ after) :=
      (behindName_eq_some_iff hstatus).mpr
        ⟨piece, w, name, hpiece, hw, hne, hword, hspace, by rw [hls]; simp⟩
    have hown : behindName status (piece ++ (w ++ (name ++ behind))) = some behind :=
      (behindName_eq_some_iff hstatus).mpr
        ⟨piece, w, name, hpiece, hw, hne, hword, hbehind, rfl⟩
    rw [linesTaken_eq hls hon, hown, List.count_eq_zero_of_not_mem hfront, Nat.zero_add]
    cases behind with
    | nil => simp [hnext]
    | cons c behind =>
      have hc : c ≠ newline := fun hc => hline (by simp [hc])
      simp [hc]

/-- What is lost of lines, where one may have been taken before. -/
theorem filterMap_takenLines_eq_nil_iff (hstatus : IsWord status) {ls : List Text}
    (h : Unbroken (statusName status) ls) (hls : ∀ line ∈ ls, newline ∉ line) (p : Prop)
    [Decidable p] :
    (takenLines (linesTaken status) (if p then 1 else 0) ls).filterMap (statusName status) = [] ↔
      (p → ∀ line ∈ ls.head?, statusName status line = none) ∧
        ls.IsChain fun line next =>
          behindName status line = some [] → statusName status next = none := by
  induction ls generalizing p with
  | nil => simp
  | cons line ls ih =>
    have ih := ih h.tail (fun line hline => hls line (List.mem_cons_of_mem _ hline))
    rw [List.isChain_cons]
    by_cases hp : p
    · -- the line is taken, and the next is looked at
      rw [if_pos hp, takenLines_succ]
      have hlost := ih False
      rw [if_neg id] at hlost
      cases hname : statusName status line with
      | none =>
        have hbehind := behindName_eq_none_iff.mpr hname
        rw [List.filterMap_cons_none hname, hlost]
        simp [hname, hbehind]
      | some name => simp [hp, hname]
    · -- the line is looked at, and may take the next
      rw [if_neg hp, takenLines_zero, h.linesTaken_cons hstatus (hls line (List.mem_cons_self ..)),
        ih (behindName status line = some [] ∧ ls ≠ [])]
      cases ls with
      | nil => simp [hp]
      | cons next ls => simp [hp]

/-- **The names that are lost** where no tag is broken: those on status lines right behind
a status line that its name ends. -/
theorem lostNames_eq_nil_iff (hstatus : IsWord status) {ls : List Text}
    (h : Unbroken (statusName status) ls) (hls : ∀ line ∈ ls, newline ∉ line) :
    lostNames status ls = [] ↔
      ls.IsChain fun line next =>
        behindName status line = some [] → statusName status next = none := by
  have hlost := filterMap_takenLines_eq_nil_iff hstatus h hls False
  rwa [if_neg id, and_iff_right False.elim] at hlost

/-- The second line is lost to the first, and no line has the name of the last tag. -/
example :
    lostNames (text "RUN") [text "[ RUN ] A.B", text "[ RUN ] A.C", text "[ RUN ]", text "A.D"] =
        [text "A.C"] ∧
      brokenNames (text "RUN")
          [text "[ RUN ] A.B", text "[ RUN ] A.C", text "[ RUN ]", text "A.D"] =
        [text "A.D"] := by
  decide +kernel

/-! ### What the summary expression finds -/

/-- A summary: the tag, the number and the word behind it. -/
def IsSummary (number summary : Text) : Prop :=
  ∃ piece w ending, IsTag (text "PASSED") piece ∧ IsBlank w ∧ w ≠ [] ∧ number ≠ [] ∧
    (∀ c ∈ number, isDecimal c) ∧ (ending = text " test." ∨ ending = text " tests.") ∧
    summary = piece ++ (w ++ (number ++ ending))

/-- The word behind the number. -/
theorem ending_eq_some_iff {ending : Text} :
    (ending.dropPrefix? (text " test.")).or (ending.dropPrefix? (text " tests.")) = some rest ↔
      ∃ e, (e = text " test." ∨ e = text " tests.") ∧ ending = e ++ rest := by
  rw [Option.or_eq_some_iff, dropPrefix?_eq_some, dropPrefix?_eq_some]
  constructor
  · rintro (rfl | ⟨-, rfl⟩)
    · exact ⟨_, .inl rfl, rfl⟩
    · exact ⟨_, .inr rfl, rfl⟩
  · rintro ⟨_, rfl | rfl, rfl⟩
    · exact .inl rfl
    · refine .inr ⟨?_, rfl⟩
      rw [Option.eq_none_iff_forall_ne_some]
      intro r hr
      exact absurd (dropPrefix?_eq_some.mp hr) (by simp [text])

/-- A summary is read where one begins and its line ends behind it. -/
theorem summaryNumber_eq_some_iff :
    summaryNumber rest = some number ↔
      ∃ summary after, IsSummary number summary ∧ (∀ c ∈ after.head?, c = newline) ∧
        rest = summary ++ after := by
  have hpassed : IsWord (text "PASSED") := by decide
  simp only [summaryNumber, Option.bind_eq_bind, Option.bind_eq_some_iff,
    afterTag_eq_some_iff hpassed, ending_eq_some_iff]
  constructor
  · rintro ⟨r, ⟨piece, hpiece, rfl⟩, after, ⟨ending, hending, hr⟩, h⟩
    split at h
    · rename_i hconds
      obtain ⟨hspace, hnumber, hafter⟩ := hconds
      obtain rfl := Option.some.inj h
      refine ⟨_, after, ⟨piece, r.takeWhile isSpace, ending, hpiece, isBlank_takeWhile r, ?_,
        hnumber, fun _ hc => (List.mem_takeWhile_imp hc :), hending, rfl⟩, ?_, ?_⟩
      · cases r with
        | nil => simp at hspace
        | cons c r => simp_all
      · intro c hc
        simpa [Option.mem_def.mp hc] using hafter
      · simp only [List.append_assoc]
        rw [← hr, List.takeWhile_append_dropWhile, List.takeWhile_append_dropWhile]
    · cases h
  · rintro ⟨_, after, ⟨piece, w, ending, hpiece, hw, hne, hnumber, hdecimal, hending, rfl⟩, hafter,
      rfl⟩
    have hhead : ∀ c ∈ (number ++ (ending ++ after)).head?, isSpace c = false :=
      head_of_ne_nil hnumber fun c hc => isSpace_of_isDecimal (hdecimal c hc)
    have hspaces : (w ++ (number ++ (ending ++ after))).dropWhile isSpace =
        number ++ (ending ++ after) := dropWhile_blank hw hhead
    have hblank : ∀ c ∈ (ending ++ after).head?, isDecimal c = false := by
      intro c hc
      obtain rfl : ' ' = c := by
        rcases hending with rfl | rfl
        · simpa [text] using hc
        · simpa [text] using hc
      decide
    refine ⟨w ++ (number ++ (ending ++ after)), ⟨piece, hpiece, by simp⟩, after,
      ⟨ending, hending, ?_⟩, ?_⟩
    · rw [hspaces, dropWhile_run hdecimal hblank]
    · rw [hspaces, takeWhile_run hdecimal hblank, if_pos]
      refine ⟨?_, hnumber, ?_⟩
      · obtain ⟨c, w, rfl⟩ := List.exists_cons_of_ne_nil hne
        exact hw c (List.mem_cons_self ..)
      · simpa [Option.all_eq_true] using hafter

/-- The pattern of the word behind the number. -/
theorem matches_ending :
    (Pattern.sequence [.literal (text " test"), .opt (.literal (text "s")), .literal (text "."),
        lineEnd]).Matches before rest t rest' captures ↔
      (t = text " test." ∨ t = text " tests.") ∧ rest = t ++ rest' ∧
        (∀ c ∈ rest'.head?, c = newline) ∧ captures = [] := by
  constructor
  · intro h
    obtain ⟨_, _, rfl, rfl, h₁⟩ := Pattern.matches_literal_then.mp h
    obtain ⟨s, _, _, _, _, hs, h₂, rfl, rfl⟩ := Pattern.matches_sequence_cons.mp h₁
    obtain ⟨_, _, rfl, rfl, h₃⟩ := Pattern.matches_literal_then.mp h₂
    obtain ⟨hend, rfl, rfl, rfl⟩ := Pattern.matches_lineEnd_last.mp h₃
    rcases Pattern.matches_opt.mp hs with hs | ⟨rfl, rfl, rfl⟩
    · obtain ⟨rfl, rfl, rfl⟩ := Pattern.matches_literal.mp hs
      exact ⟨.inr rfl, by simp [text], by simpa using hend, rfl⟩
    · exact ⟨.inl rfl, by simp [text], by simpa using hend, rfl⟩
  · rintro ⟨ht, rfl, hend, rfl⟩
    have hlast : ∀ before, (Pattern.sequence [.literal (text "."), lineEnd]).Matches before
        (text "." ++ rest') (text ".") rest' [] := fun before =>
      Pattern.matches_literal_then.mpr ⟨rest', [], rfl, rfl,
        Pattern.matches_lineEnd_last.mpr ⟨by simpa using hend, rfl, rfl, rfl⟩⟩
    rcases ht with rfl | rfl
    · refine Pattern.matches_literal_then.mpr ⟨text "." ++ rest', text ".", rfl, rfl, ?_⟩
      exact Pattern.matches_sequence_cons.mpr ⟨[], _, [], _, [],
        Pattern.matches_opt.mpr (.inr ⟨rfl, rfl, rfl⟩), hlast _, rfl, rfl⟩
    · refine Pattern.matches_literal_then.mpr ⟨text "s." ++ rest', text "s.", rfl, rfl, ?_⟩
      exact Pattern.matches_sequence_cons.mpr ⟨text "s", _, [], _, [],
        Pattern.matches_opt.mpr (.inl (Pattern.matches_literal.mpr ⟨rfl, rfl, rfl⟩)), hlast _, rfl,
        rfl⟩

/-- **What the summary expression matches.** -/
theorem matches_summaryPattern :
    summaryPattern.Matches before rest t rest' captures ↔
      (∀ c ∈ before.head?, c = newline) ∧ (∀ c ∈ rest'.head?, c = newline) ∧ rest = t ++ rest' ∧
        ∃ number, captures = [number] ∧ IsSummary number t := by
  constructor
  · intro h
    obtain ⟨hstart, h₁⟩ := Pattern.matches_lineStart_then.mp h
    obtain ⟨piece, _, _, hpiece, rfl, rfl, h₂⟩ := matches_bracketed_then.mp h₁
    obtain ⟨w, _, _, rfl, hw, hne, rfl, h₃⟩ := Pattern.matches_atLeastOne_then.mp h₂
    obtain ⟨number, _, _, _, rfl, hdecimal, hnumber, rfl, rfl, h₄⟩ :=
      Pattern.matches_captured_then.mp h₃
    obtain ⟨hending, rfl, hend, rfl⟩ := matches_ending.mp h₄
    exact ⟨by simpa using hstart, hend, by simp, number, rfl,
      ⟨piece, w, _, hpiece, hw, hne, hnumber, hdecimal, hending, rfl⟩⟩
  · rintro ⟨hstart, hend, rfl, number, rfl,
      ⟨piece, w, ending, hpiece, hw, hne, hnumber, hdecimal, hending, rfl⟩⟩
    refine Pattern.matches_lineStart_then.mpr ⟨by simpa using hstart, ?_⟩
    refine matches_bracketed_then.mpr ⟨piece, _, _, hpiece, by simp; rfl, rfl, ?_⟩
    refine Pattern.matches_atLeastOne_then.mpr ⟨w, _, _, by simp; rfl, hw, hne, rfl, ?_⟩
    refine Pattern.matches_captured_then.mpr
      ⟨number, _, _, [], by simp; rfl, hdecimal, hnumber, rfl, rfl, ?_⟩
    exact matches_ending.mpr ⟨hending, rfl, hend, rfl⟩

/-- The summary expression reads a line at a time. -/
theorem linePattern_summary : LinePattern summaryPattern IsSummary summaryNumber :=
  ⟨matches_summaryPattern, fun h hend => summaryNumber_eq_some_iff.mpr ⟨_, _, h, hend, rfl⟩⟩

/-- A summary opens one bracket. -/
theorem IsSummary.eq_cons (h : IsSummary number t) : ∃ tail, t = '[' :: tail ∧ '[' ∉ tail := by
  obtain ⟨_, w, ending, ⟨w₁, w₂, hw₁, hw₂, rfl⟩, hw, -, -, hdecimal, hending, rfl⟩ := h
  have hblank : ∀ {w : Text}, IsBlank w → '[' ∉ w := fun hw hmem => by
    simpa [isSpace] using hw '[' hmem
  refine ⟨w₁ ++ (text "PASSED" ++ (w₂ ++ (text "]" ++ (w ++ (number ++ ending))))),
    by simp [text], ?_⟩
  simp only [List.mem_append, not_or]
  refine ⟨hblank hw₁, by decide, hblank hw₂, by decide, hblank hw, fun hmem => ?_, ?_⟩
  · exact absurd (hdecimal '[' hmem) (by decide)
  · rcases hending with rfl | rfl
    · decide
    · decide

/-- **No summary is passed over**: a match that takes a line end takes no bracket
behind it. -/
theorem summaryNumber_of_passed {output : Text} {q : Position Char}
    (hq : q ∈ Pattern.passed (summaryPattern.scan output)) : summaryNumber q.rest = none := by
  rw [Option.eq_none_iff_forall_ne_some]
  intro number h
  obtain ⟨summary, after, hsummary, -, hrest⟩ := summaryNumber_eq_some_iff.mp h
  obtain ⟨r, o, u, v, hfound, htaken, hu, hv, -, hq, -⟩ := Pattern.exists_found_of_passed hq
  obtain ⟨tail, rfl, -⟩ := hsummary.eq_cons
  obtain ⟨-, hmatch, -⟩ := linePattern_summary.of_found hfound
  obtain ⟨tail', htaken', hbracket⟩ := hmatch.eq_cons
  obtain ⟨c, v, rfl⟩ := List.exists_cons_of_ne_nil hv
  obtain ⟨d, u, rfl⟩ := List.exists_cons_of_ne_nil hu
  obtain rfl : '[' = c := (List.cons.inj (hrest.symm.trans hq)).1
  rw [htaken', List.cons_append] at htaken
  apply hbracket
  rw [(List.cons.inj htaken).2]
  simp

/-- A number on a line is read whatever ends the line. -/
theorem readsOn_summaryNumber : ReadsOn newline summaryNumber := by
  intro line after number h hafter
  obtain ⟨summary, after', hsummary, hafter', rfl⟩ := summaryNumber_eq_some_iff.mp h
  exact summaryNumber_eq_some_iff.mpr
    ⟨summary, after' ++ after, hsummary, head_append hafter' hafter, by simp⟩

/-- **The summaries found** are the numbers that are read at the lines, all of them
looked at. -/
theorem findall_summary (output : Text) :
    summaryPattern.findall output =
      (ownLines (fun _ => 0) 0 (lines output)).filterMap (readOn newline summaryNumber) := by
  rw [lines, ← filterMap_fromLine]
  refine Pattern.findall_eq_filterMap (fun q hq => ?_) (fun q hq => ?_)
  · rw [Position.fromLine]
    cases hf : summaryPattern.first q.before q.rest with
    | some o =>
      have hmatch := Pattern.matches_of_first hf
      obtain ⟨hstart, -⟩ := linePattern_summary.matches_iff.mp hmatch
      obtain ⟨-, -, hread⟩ := linePattern_summary.of_matches hmatch
      have hstart : q.startsLine newline := by
        simpa [Position.startsLine, Option.all_eq_true] using hstart
      rw [if_pos hstart, hread]
      rfl
    | none =>
      split
      · rename_i hstart
        have hstart : ∀ c ∈ q.before.head?, c = newline := by
          simpa [Position.startsLine, Option.all_eq_true] using hstart
        rw [Option.map_none, eq_comm, Option.eq_none_iff_forall_ne_some]
        intro number h
        obtain ⟨summary, after, hsummary, hafter, hrest⟩ := summaryNumber_eq_some_iff.mp h
        obtain ⟨o, ho, -⟩ := linePattern_summary.exists_first hstart hafter hsummary
        rw [← hrest, hf] at ho
        cases ho
      · rfl
  · rw [Position.fromLine, summaryNumber_of_passed hq, ite_self]

/-- The summaries found are those on lines and those broken over lines. -/
theorem findall_summary_perm (output : Text) :
    (summaryPattern.findall output).Perm ((lines output).filterMap summaryNumber ++
      (ownLines (fun _ => 0) 0 (lines output)).filterMap (broken newline summaryNumber)) := by
  have h : ((ownLines (fun _ => 0) 0 (lines output)).filterMap (readOn newline summaryNumber) ++
      (takenLines (fun _ => 0) 0 (lines output)).filterMap summaryNumber).Perm _ :=
    readOn_append_perm readsOn_summaryNumber 0 (lines output)
  rwa [takenLines_never, List.filterMap_nil, List.append_nil, ← findall_summary] at h

/-- No summary is broken exactly when none is at any line. -/
theorem filterMap_broken_summary_eq_nil_iff (ls : List Text) :
    (ownLines (fun _ => 0) 0 ls).filterMap (broken newline summaryNumber) = [] ↔
      Unbroken summaryNumber ls := by
  rw [List.filterMap_eq_nil_iff]
  constructor
  · intro h rest hrest
    cases rest with
    | nil => rfl
    | cons line rest =>
      exact h _ (mem_ownLines_never.mpr ⟨(List.mem_tails ..).mp hrest, List.cons_ne_nil _ _⟩)
  · exact fun h rest hrest => h rest ((List.mem_tails ..).mpr (mem_ownLines_never.mp hrest).1)

end

/-! ### When an accepted log is what it seems -/

section

variable {output : Text} {expected : List Text}

/-- An accepted log. -/
theorem validateResult_eq_ok_iff :
    validateResult output expected = .ok () ↔
      failurePattern.search output = false ∧
        ((statusPattern (text "RUN")).findall output).Perm expected ∧
        ((statusPattern (text "OK")).findall output).Perm expected ∧
        summaryPattern.findall output = [str expected.length] := by
  rw [validateResult]
  cases hsearch : failurePattern.search output with
  | true => simp [throw, throwThe, MonadExceptOf.throw, bind, Except.bind]
  | false =>
    by_cases hrun : ((statusPattern (text "RUN")).findall output).Perm expected
    · by_cases hok : ((statusPattern (text "OK")).findall output).Perm expected
      · by_cases hsummary : summaryPattern.findall output = [str expected.length]
        · simp [STATUSES, checkInventory, hrun, hok, hsummary, bind, Except.bind, pure, Except.pure]
        · simp [STATUSES, checkInventory, hrun, hok, hsummary, bind, Except.bind, pure, Except.pure,
            throw, throwThe, MonadExceptOf.throw]
      · simp [STATUSES, checkInventory, hrun, hok, bind, Except.bind]
    · simp [STATUSES, checkInventory, hrun, bind, Except.bind]

/-- **What the failure expression matches.** -/
theorem matches_failurePattern {before rest t rest' : Text} {captures : List Text} :
    failurePattern.Matches before rest t rest' captures ↔
      ∃ tag ∈ failureTags, IsTag tag t ∧ rest = t ++ rest' ∧ captures = [] := by
  rw [failurePattern, matches_bracketed_alt, matches_bracketed, matches_bracketed]
  simp [failureTags]

/-- A tag on a line is found by a search. -/
theorem search_of_hasTag {line tag : Text} (htag : tag ∈ failureTags)
    (hline : line ∈ lines output) (h : HasTag tag line) : failurePattern.search output = true := by
  obtain ⟨before, rest, rfl, htagged⟩ := h
  obtain ⟨after, hafter⟩ := Option.isSome_iff_exists.mp htagged
  obtain ⟨piece, hpiece, rfl⟩ := (afterTag_eq_some_iff (isWord_of_mem_failureTags htag)).mp hafter
  obtain ⟨u, v, rfl⟩ := isInfix_of_mem_splitOn hline
  by_contra hsearch
  rw [Bool.not_eq_true, Pattern.search_eq_false_iff] at hsearch
  have hmatch : failurePattern.Matches (before.reverse ++ u.reverse)
      (piece ++ (after ++ v)) piece (after ++ v) [] :=
    matches_failurePattern.mpr ⟨tag, htag, hpiece, rfl, rfl⟩
  obtain ⟨o, ho⟩ := Pattern.exists_first hmatch
  have hq : (⟨before.reverse ++ u.reverse, piece ++ (after ++ v)⟩ : Position Char) ∈
      positions [] (u ++ (before ++ (piece ++ after)) ++ v) :=
    mem_positions.mpr ⟨u ++ before, by simp, by simp⟩
  exact absurd ((hsearch _ hq).symm.trans ho) (by simp)

/-- An accepted log has no line with a failure or a skip. -/
theorem clean_of_search (h : failurePattern.search output = false) :
    ∀ line ∈ lines output, ¬ HasTag (text "FAILED") line ∧ ¬ HasTag (text "SKIPPED") line := by
  intro line hline
  have hclean : ∀ tag ∈ failureTags, ¬ HasTag tag line := fun tag htag hhas => by
    have := search_of_hasTag htag hline hhas
    simp [h] at this
  exact ⟨hclean _ (by decide), hclean _ (by decide)⟩

/-- What an accepted log says is a matter of its statuses and its summary. -/
theorem logExact_iff (h : validateResult output expected = .ok ()) :
    LogExact output expected ↔
      (∀ status ∈ STATUSES, ((lines output).filterMap (statusName status)).Perm expected) ∧
        (lines output).filterMap summaryNumber = [str expected.length] := by
  obtain ⟨hsearch, -, -, -⟩ := validateResult_eq_ok_iff.mp h
  constructor
  · intro hexact
    refine ⟨fun status hstatus => ?_, hexact.passed⟩
    have hcases : status = text "RUN" ∨ status = text "OK" := by simpa [STATUSES] using hstatus
    rcases hcases with rfl | rfl
    · exact hexact.runs
    · exact hexact.oks
  · rintro ⟨hnames, hpassed⟩
    exact ⟨hnames _ (by decide), hnames _ (by decide), hpassed, clean_of_search hsearch⟩

/-- The names of a status are as expected exactly when what is lost is what is broken. -/
theorem names_perm_iff (h : validateResult output expected = .ok ()) {status : Text}
    (hstatus : status ∈ STATUSES) :
    ((lines output).filterMap (statusName status)).Perm expected ↔
      (lostNames status (lines output)).Perm (brokenNames status (lines output)) := by
  have hword : ∀ status ∈ STATUSES, IsWord status := by decide
  have hperm := findall_status_perm output (hword status hstatus)
  have hfound : ((statusPattern status).findall output).Perm expected := by
    obtain ⟨-, hrun, hok, -⟩ := validateResult_eq_ok_iff.mp h
    have hcases : status = text "RUN" ∨ status = text "OK" := by simpa [STATUSES] using hstatus
    rcases hcases with rfl | rfl
    · exact hrun
    · exact hok
  constructor
  · intro hnames
    exact (List.perm_append_left_iff _).mp
      (hperm.trans ((hnames.trans hfound.symm).append_right _))
  · intro hlost
    exact ((List.perm_append_right_iff _).mp (hperm.symm.trans (hlost.append_left _))).trans hfound

/-- The summary is the one expected exactly when none is broken. -/
theorem summary_eq_iff (h : validateResult output expected = .ok ()) :
    (lines output).filterMap summaryNumber = [str expected.length] ↔
      Unbroken summaryNumber (lines output) := by
  obtain ⟨-, -, -, hsummary⟩ := validateResult_eq_ok_iff.mp h
  have hperm := findall_summary_perm output
  rw [hsummary] at hperm
  rw [← filterMap_broken_summary_eq_nil_iff]
  constructor
  · intro hlines
    have hlength := hperm.length_eq
    rw [hlines, List.length_append] at hlength
    exact List.eq_nil_of_length_eq_zero (by simpa using hlength)
  · intro hbroken
    rw [hbroken, List.append_nil] at hperm
    exact List.perm_singleton.mp hperm.symm

/-- **An accepted log says what it is accepted for** exactly when, of either status, the
names on the lines that its statuses take along are the names of the tags broken over
lines, and no summary is broken. -/
theorem log_exact_iff (h : validateResult output expected = .ok ()) :
    LogExact output expected ↔
      (∀ status ∈ STATUSES,
        (lostNames status (lines output)).Perm (brokenNames status (lines output))) ∧
        Unbroken summaryNumber (lines output) := by
  rw [logExact_iff h, summary_eq_iff h]
  exact and_congr_left fun _ => forall₂_congr fun status hstatus => names_perm_iff h hstatus

/-- The log of a run of one test. -/
def passingLog : Text :=
  text "[ RUN      ] A.B\n[       OK ] A.B (0 ms)\n[  PASSED  ] 1 test.\n"

/-- The log of one test that passed. -/
theorem log_exact_passing : LogExact passingLog [text "A.B"] :=
  (log_exact_iff (by decide +kernel)).mpr (by decide +kernel)

/-- **Where no tag is broken over lines**, an accepted log says what it is accepted for
exactly when no line of a status comes right behind one that ends with its name. -/
theorem log_exact_iff_of_unbroken (h : validateResult output expected = .ok ())
    (hunbroken : ∀ status ∈ STATUSES, Unbroken (statusName status) (lines output)) :
    LogExact output expected ↔
      (∀ status ∈ STATUSES, (lines output).IsChain fun line next =>
        behindName status line = some [] → statusName status next = none) ∧
        Unbroken summaryNumber (lines output) := by
  have hword : ∀ status ∈ STATUSES, IsWord status := by decide
  rw [logExact_iff h, summary_eq_iff h]
  refine and_congr_left fun _ => forall₂_congr fun status hstatus => ?_
  rw [names_perm_iff h hstatus, (hunbroken status hstatus).brokenNames_eq_nil, List.perm_nil,
    lostNames_eq_nil_iff (hword status hstatus) (hunbroken status hstatus)
      fun line hline => newline_not_mem_of_mem_lines hline]

/-- The log of a run that starts a second test, which no line completes. -/
def unfinishedLog : Text :=
  text "[ RUN      ] A.B\n[ RUN      ] A.C\n[       OK ] A.B (0 ms)\n[  PASSED  ] 1 test.\n"

/-- **A started test is lost**: its line follows the line of another start, whose
match takes it. -/
theorem log_not_exact_unfinished :
    validateResult unfinishedLog [text "A.B"] = .ok () ∧
      ¬ LogExact unfinishedLog [text "A.B"] := by
  refine ⟨by decide +kernel, fun h => ?_⟩
  exact absurd h.runs (by decide +kernel)

end

end Tools
end GcnPort
