/-
# The logs of passing runs

What GoogleTest prints when every test passes, one test after the other: for each
test its `RUN` line and its `OK` line, with other output anywhere, and the number
of the tests behind them.  `validate_result` of `tools/gcnport_tools/dolphin_tests.py`
accepts such a log exactly when the tests that were run are the expected ones, in
whatever order (`passing_log_accepted_iff`).

Its expressions take more than a line: the match of a `RUN` line, which ends with
the name, goes on over the next line.  Two facts make that harmless.  No tag of
the log is broken over lines (`ReadsWhole.unbroken`), so no name is found that no line
has; and no two lines in a row have the same tag, so the line that is taken along has
no name to lose (`findall_status_perm_lines`).
-/

import GcnPort.Tools.DolphinTests

namespace GcnPort
namespace Tools

open Foundation

/-! ### Logs without broken tags -/

/-- What `read` makes of a line does not depend on what is behind the line. -/
def ReadsWhole (read : Text → Option Text) (output : Text) : Prop :=
  ∀ line ∈ lines output, ∀ after, (∀ c ∈ after.head?, c = newline) →
    read (line ++ after) = read line

section

variable {read : Text → Option Text} {output status name : Text} {q : Position Char}

/-- At a line start, the line is read. -/
theorem ReadsWhole.read_rest (h : ReadsWhole read output) (hq : q ∈ positions [] output)
    (hstart : ∀ c ∈ q.before.head?, c = newline) : read q.rest = read (q.line newline) := by
  rw [q.rest_eq_line_append newline]
  exact h _ (Position.line_mem_splitOn hq hstart) _ head_behind_line

/-- Nothing is broken over lines. -/
theorem ReadsWhole.unbroken (h : ReadsWhole read output) : Unbroken read (lines output) := by
  intro rest hrest
  cases rest with
  | nil => rfl
  | cons line rest =>
    have hline : line ∈ lines output :=
      ((List.mem_tails ..).mp hrest).subset (List.mem_cons_self ..)
    obtain ⟨after, hafter, hend, -⟩ := exists_intercalate_cons newline line rest
    cases hread : read line with
    | none => rw [broken_cons_of_none hread, readOn, hafter, h line hline after hend, hread]
    | some name => exact broken_cons_of_some hread

/-- **What is found in the whole log** of a status, where no two lines in a row have
it. -/
theorem findall_status_perm_lines (hstatus : IsWord status)
    (h : ReadsWhole (statusName status) output)
    (hchain : (lines output).IsChain fun line next =>
      statusName status line ≠ none → statusName status next = none) :
    ((statusPattern status).findall output).Perm
      ((lines output).filterMap (statusName status)) := by
  have hlost : lostNames status (lines output) = [] := by
    rw [lostNames_eq_nil_iff hstatus h.unbroken fun line => newline_not_mem_of_mem_lines]
    refine hchain.imp fun line next hnext hbehind => hnext fun hnone => ?_
    rw [behindName_eq_none_iff.mpr hnone] at hbehind
    cases hbehind
  have hperm := findall_status_perm output hstatus
  rwa [hlost, h.unbroken.brokenNames_eq_nil, List.append_nil, List.append_nil] at hperm

/-- What is found of summaries. -/
theorem findall_summary_perm_lines (h : ReadsWhole summaryNumber output) :
    (summaryPattern.findall output).Perm ((lines output).filterMap summaryNumber) := by
  have hperm := findall_summary_perm output
  rwa [(filterMap_broken_summary_eq_nil_iff _).mpr h.unbroken, List.append_nil] at hperm

/-- No failure and no skip is found where brackets are at line starts only, and open
no such tag. -/
theorem search_failurePattern_eq_false (hbracket : ∀ line ∈ lines output, '[' ∉ line.tail)
    (h : ∀ tag ∈ failureTags, ReadsWhole (afterTag tag) output)
    (hline : ∀ tag ∈ failureTags, ∀ line ∈ lines output, afterTag tag line = none) :
    failurePattern.search output = false := by
  rw [Pattern.search_eq_false_iff]
  intro q hq
  rw [Option.eq_none_iff_forall_ne_some]
  intro o ho
  obtain ⟨tag, htag, hpiece, hrest, -⟩ := matches_failurePattern.mp (Pattern.matches_of_first ho)
  obtain ⟨r, hr, hstart, u, hu, hrest', hbefore⟩ := Position.exists_lineStart newline hq
  have hmem := Position.line_mem_splitOn hr hstart
  have hq' : q.rest.head? = some '[' := by
    obtain ⟨w₁, w₂, -, -, hpiece⟩ := hpiece
    rw [hrest, hpiece]
    rfl
  cases u with
  | nil =>
    have hafter : afterTag tag q.rest = some o.rest := by
      rw [hrest]
      exact afterTag_append (isWord_of_mem_failureTags htag) hpiece
    rw [List.nil_append] at hrest'
    rw [← hrest', (h tag htag).read_rest hr hstart, hline tag htag _ hmem] at hafter
    cases hafter
  | cons d u =>
    obtain ⟨x, hx⟩ := List.head?_eq_some_iff.mp hq'
    have hcons : r.line newline = d :: u ++ '[' :: x.takeWhile (· ≠ newline) := by
      have hbefore : ∀ c ∈ d :: u, decide (c ≠ newline) := fun c hc => by
        simpa using fun h : c = newline => hu (h ▸ hc)
      have hopen : ('[' : Char) ≠ newline := by decide
      rw [Position.line, hrest', hx, List.takeWhile_append_of_pos hbefore]
      simp [hopen]
    apply hbracket _ hmem
    rw [hcons]
    simp

end

/-! ### What is printed -/

/-- A text on one line that opens no bracket. -/
structure PlainText where
  text : Text
  newline_not_mem : newline ∉ text
  bracket_not_mem : '[' ∉ text

/-- The name of a test. -/
structure TestName where
  name : Text
  isWord : IsWord name
  bracket_not_mem : '[' ∉ name

/-- A line of other output: plain text, or `[==========]` or `[----------]` with plain
text behind it. -/
inductive OutputLine where
  | plain (line : PlainText)
  | ruler (double : Bool) (tail : PlainText)

/-- A line of a log. -/
inductive LogLine where
  | output (line : OutputLine)
  | run (name : TestName)
  | ok (name : TestName) (elapsed : ℕ)
  | passed (tests : ℕ) (singular : Bool)

namespace LogLine

/-- The bracketed tag that starts the line. -/
def bracket : LogLine → Text
  | .output (.plain _) => []
  | .output (.ruler true _) => text "[==========]"
  | .output (.ruler false _) => text "[----------]"
  | .run _ => text "[ RUN      ]"
  | .ok _ _ => text "[       OK ]"
  | .passed _ _ => text "[  PASSED  ]"

/-- What follows the tag.  One test may be counted as `1 test.` -/
def body : LogLine → Text
  | .output (.plain line) => line.text
  | .output (.ruler _ tail) => tail.text
  | .run name => text " " ++ name.name
  | .ok name elapsed => text " " ++ (name.name ++ (text " (" ++ (str elapsed ++ text " ms)")))
  | .passed tests singular =>
    text " " ++ (str tests ++ if singular ∧ tests = 1 then text " test." else text " tests.")

/-- The text of the line. -/
def text (line : LogLine) : Text := line.bracket ++ line.body

/-- The tag. -/
def tag : LogLine → Option Text
  | .output (.plain _) => none
  | .output (.ruler true _) => some (Tools.text "==========")
  | .output (.ruler false _) => some (Tools.text "----------")
  | .run _ => some (Tools.text "RUN")
  | .ok _ _ => some (Tools.text "OK")
  | .passed _ _ => some (Tools.text "PASSED")

/-- The name on a line of a status. -/
def nameOf (status : Text) : LogLine → Option Text
  | .run name => if status = Tools.text "RUN" then some name.name else none
  | .ok name _ => if status = Tools.text "OK" then some name.name else none
  | _ => none

/-- The number on a summary line. -/
def number : LogLine → Option Text
  | .passed tests _ => some (str tests)
  | _ => none

end LogLine

/-- A test that passes: what the log shows from its start to the next. -/
structure TestRun where
  name : TestName
  output : List OutputLine
  elapsed : ℕ
  after : List OutputLine

/-- The lines of a test. -/
def TestRun.lines (test : TestRun) : List LogLine :=
  .run test.name :: (test.output.map .output ++
    .ok test.name test.elapsed :: test.after.map .output)

/-- **The log of a run in which all tests pass.** -/
structure PassingLog where
  before : List OutputLine
  tests : List TestRun
  singular : Bool
  after : List OutputLine

/-- The lines of a log. -/
def PassingLog.lines (log : PassingLog) : List LogLine :=
  log.before.map .output ++ (log.tests.flatMap TestRun.lines ++
    .passed log.tests.length log.singular :: log.after.map .output)

/-- The text of a log. -/
def PassingLog.text (log : PassingLog) : Text := printed (log.lines.map LogLine.text)

/-- The tests that were run, in their order. -/
def PassingLog.observed (log : PassingLog) : List Text := log.tests.map fun test => test.name.name

/-! ### What is read off the lines -/

/-- A number is printed with decimal digits. -/
theorem isDigit_of_mem_str {n : ℕ} {c : Char} (h : c ∈ str n) : c.isDigit :=
  Nat.isDigit_of_mem_toDigits (by decide) (by decide) h

/-- A digit of ASCII is one of Unicode. -/
theorem isDecimal_of_isDigit {c : Char} (h : c.isDigit) : isDecimal c := by
  simp only [Char.isDigit, Bool.and_eq_true, decide_eq_true_eq] at h
  rw [isDecimal, List.any_eq_true]
  refine ⟨0x30, by decide, ?_⟩
  have h₁ : 48 ≤ c.toNat := h.1
  have h₂ : c.toNat ≤ 57 := h.2
  simp only [Bool.and_eq_true, decide_eq_true_eq]
  omega

namespace LogLine

variable {after tag status : Text}

/-- The line that a test starts with names it under `RUN`. -/
theorem nameOf_run (name : TestName) :
    (run name).nameOf status = if status = Tools.text "RUN" then some name.name else none :=
  rfl

/-- The line that a test ends with names it under `OK`. -/
theorem nameOf_ok (name : TestName) (elapsed : ℕ) :
    (ok name elapsed).nameOf status =
      if status = Tools.text "OK" then some name.name else none :=
  rfl

/-- A text behind the tag is on the line and opens no bracket. -/
theorem not_mem_body (line : LogLine) : newline ∉ line.body ∧ '[' ∉ line.body := by
  have hstr : ∀ {c : Char} {n : ℕ}, c.isDigit = false → c ∉ str n := fun hc hmem => by
    simp [isDigit_of_mem_str hmem] at hc
  cases line with
  | output line =>
    cases line with
    | plain line => exact ⟨line.newline_not_mem, line.bracket_not_mem⟩
    | ruler double tail => exact ⟨tail.newline_not_mem, tail.bracket_not_mem⟩
  | run name =>
    simp only [body, List.mem_append, name.isWord.newline_not_mem, name.bracket_not_mem, or_false]
    decide
  | ok name elapsed =>
    have h₁ : newline ∉ str elapsed := hstr (by decide)
    have h₂ : '[' ∉ str elapsed := hstr (by decide)
    simp only [body, List.mem_append, name.isWord.newline_not_mem, name.bracket_not_mem, h₁, h₂,
      false_or]
    decide
  | passed tests singular =>
    have h₁ : newline ∉ str tests := hstr (by decide)
    have h₂ : '[' ∉ str tests := hstr (by decide)
    rw [body]
    split
    · simp only [List.mem_append, h₁, h₂, false_or]
      decide
    · simp only [List.mem_append, h₁, h₂, false_or]
      decide

/-- **What a line starts with**: nothing, or a tag between brackets and spaces. -/
theorem bracket_cases (line : LogLine) :
    (line.tag = none ∧ line.bracket = []) ∨
      ∃ tag m n, line.tag = some tag ∧ IsWord tag ∧ ']' ∉ tag ∧ '[' ∉ tag ∧
        line.bracket = Tools.text "[" ++
          (List.replicate m ' ' ++ (tag ++ (List.replicate n ' ' ++ Tools.text "]"))) := by
  cases line with
  | output line =>
    cases line with
    | plain line => exact .inl ⟨rfl, rfl⟩
    | ruler double tail =>
      cases double with
      | true => exact .inr ⟨_, 0, 0, rfl, by decide, by decide, by decide, rfl⟩
      | false => exact .inr ⟨_, 0, 0, rfl, by decide, by decide, by decide, rfl⟩
  | run name => exact .inr ⟨_, 1, 6, rfl, by decide, by decide, by decide, rfl⟩
  | ok name elapsed => exact .inr ⟨_, 7, 1, rfl, by decide, by decide, by decide, rfl⟩
  | passed tests singular => exact .inr ⟨_, 2, 2, rfl, by decide, by decide, by decide, rfl⟩

/-- **The tag of a line**, whatever is behind the line. -/
theorem afterTag_text (line : LogLine) (htag : IsWord tag) (hclose : ']' ∉ tag)
    (hafter : ∀ c ∈ after.head?, c = newline) :
    afterTag tag (line.text ++ after) =
      if line.tag = some tag then some (line.body ++ after) else none := by
  rw [LogLine.text, List.append_assoc]
  rcases line.bracket_cases with
    ⟨hnone, hbracket⟩ | ⟨tag', m, n, hsome, htag', hclose', -, hbracket⟩
  · rw [hnone, hbracket, List.nil_append, if_neg (by simp), Option.eq_none_iff_forall_ne_some]
    intro rest hrest
    obtain ⟨_, ⟨w₁, w₂, -, -, rfl⟩, hopen⟩ := (afterTag_eq_some_iff htag).mp hrest
    have hhead : ∀ c ∈ (line.body ++ after).head?, c ≠ '[' := by
      refine head_append (fun c hc h => ?_) (fun c hc h => ?_)
      · exact line.not_mem_body.2 (h ▸ List.mem_of_head? hc)
      · exact absurd ((hafter c hc).symm.trans h) (by decide)
    exact hhead '[' (by rw [hopen]; rfl) rfl
  · have hpiece : IsTag tag' line.bracket :=
      ⟨_, _, isBlank_replicate m, isBlank_replicate n, hbracket⟩
    rw [hsome, afterTag_of_isTag htag htag' hclose hclose' hpiece]
    simp

/-- A name behind a space. -/
theorem wordAfter_name (name : TestName) (hafter : ∀ c ∈ after.head?, isSpace c) :
    wordAfter (Tools.text " " ++ (name.name ++ after)) = some name.name :=
  wordAfter_eq_some_iff.mpr
    ⟨Tools.text " ", after, by decide, by decide, name.isWord, hafter, rfl⟩

/-- The tag of other output is none of letters. -/
theorem tag_output_ne (line : OutputLine) (h₁ : '=' ∉ tag) (h₂ : '-' ∉ tag) :
    (output line).tag ≠ some tag := by
  rcases line with line | ⟨_ | _, tail⟩
  · exact nofun
  · intro h
    obtain rfl := Option.some.inj h
    exact h₂ (by decide)
  · intro h
    obtain rfl := Option.some.inj h
    exact h₁ (by decide)

/-- `read` reads off every line what `f` says, whatever is behind the line. -/
def ReadsLines (read : Text → Option Text) (f : LogLine → Option Text) : Prop :=
  ∀ (line : LogLine) (after : Text), (∀ c ∈ after.head?, c = newline) →
    read (line.text ++ after) = f line

/-- **The name of a status on a line.** -/
theorem readsLines_statusName (hstatus : status ∈ STATUSES) :
    ReadsLines (statusName status) (nameOf status) := by
  intro line after hafter
  have hall : ∀ status ∈ STATUSES, IsWord status ∧ ']' ∉ status ∧ '=' ∉ status ∧ '-' ∉ status ∧
      Tools.text "PASSED" ≠ status := by decide
  obtain ⟨hword, hclose, h₁, h₂, hpassed⟩ := hall status hstatus
  have hspace := isSpace_of_newline hafter
  rw [statusName, afterTag_text line hword hclose hafter]
  cases line with
  | output line =>
    rw [if_neg (tag_output_ne line h₁ h₂)]
    rfl
  | run name =>
    by_cases h : status = Tools.text "RUN"
    · simpa [tag, nameOf, body, h] using wordAfter_name name hspace
    · simp [tag, nameOf, h, eq_comm]
  | ok name elapsed =>
    by_cases h : status = Tools.text "OK"
    · have htail : ∀ c ∈ (Tools.text " (" ++ (str elapsed ++ (Tools.text " ms)" ++ after))).head?,
          isSpace c := by
        intro c hc
        obtain rfl : ' ' = c := Option.some.inj hc
        decide
      simpa [tag, nameOf, body, h] using wordAfter_name name htail
    · simp [tag, nameOf, h, eq_comm]
  | passed tests singular => simp [tag, nameOf, hpassed]

/-- **The number of a summary on a line.** -/
theorem readsLines_summaryNumber : ReadsLines summaryNumber number := by
  intro line after hafter
  have hnone : line.tag ≠ some (Tools.text "PASSED") → summaryNumber (line.text ++ after) = none :=
    fun h => by
      rw [summaryNumber, afterTag_text line (by decide) (by decide) hafter, if_neg h]
      rfl
  cases line with
  | passed tests singular =>
    refine summaryNumber_eq_some_iff.mpr ⟨_, after, ?_, hafter, rfl⟩
    refine ⟨(passed tests singular).bracket, Tools.text " ", _,
      ⟨Tools.text "  ", Tools.text "  ", by decide, by decide, rfl⟩, by decide, by decide,
      Nat.toDigits_ne_nil, fun c hc => isDecimal_of_isDigit (isDigit_of_mem_str hc), ?_, rfl⟩
    split
    · exact .inl rfl
    · exact .inr rfl
  | output line => exact hnone (tag_output_ne line (by decide) (by decide))
  | run name => exact hnone (by rw [tag]; decide)
  | ok name elapsed => exact hnone (by rw [tag]; decide)

/-- No tag of a line is one of a failure. -/
theorem readsLines_failureTag (htag : tag ∈ failureTags) :
    ReadsLines (afterTag tag) fun _ => none := by
  intro line after hafter
  have hall : ∀ tag ∈ failureTags, ']' ∉ tag ∧ '=' ∉ tag ∧ '-' ∉ tag ∧
      Tools.text "RUN" ≠ tag ∧ Tools.text "OK" ≠ tag ∧ Tools.text "PASSED" ≠ tag := by decide
  obtain ⟨hclose, h₁, h₂, hrun, hok, hpassed⟩ := hall tag htag
  rw [afterTag_text line (isWord_of_mem_failureTags htag) hclose hafter]
  cases line with
  | output line => exact if_neg (tag_output_ne line h₁ h₂)
  | run name => exact if_neg fun h => hrun (Option.some.inj h)
  | ok name elapsed => exact if_neg fun h => hok (Option.some.inj h)
  | passed tests singular => exact if_neg fun h => hpassed (Option.some.inj h)

/-- A line is read alone as it is before others. -/
theorem ReadsLines.read_text {read : Text → Option Text} {f : LogLine → Option Text}
    (h : ReadsLines read f) (line : LogLine) : read line.text = f line := by
  have hline := h line [] (by simp)
  rwa [List.append_nil] at hline

/-- A line of a log is one line. -/
theorem newline_not_mem_text (line : LogLine) : newline ∉ line.text := by
  rw [LogLine.text, List.mem_append, not_or]
  refine ⟨?_, line.not_mem_body.1⟩
  rcases line.bracket_cases with ⟨-, hbracket⟩ | ⟨tag, m, n, -, htag, -, -, hbracket⟩
  · rw [hbracket]
    exact List.not_mem_nil
  · have hspace : ∀ n, newline ∉ List.replicate n ' ' := fun n hmem =>
      absurd (List.eq_of_mem_replicate hmem) (by decide)
    simp only [hbracket, List.mem_append, htag.newline_not_mem, hspace, false_or, not_or]
    decide

/-- Only the first character of a line may be an opening bracket. -/
theorem bracket_not_mem_tail (line : LogLine) : '[' ∉ line.text.tail := by
  rcases line.bracket_cases with ⟨-, hbracket⟩ | ⟨tag, m, n, -, -, -, hopen, hbracket⟩
  · rw [LogLine.text, hbracket]
    exact fun hmem => line.not_mem_body.2 (List.mem_of_mem_tail hmem)
  · have hspace : ∀ n, '[' ∉ List.replicate n ' ' := fun n hmem =>
      absurd (List.eq_of_mem_replicate hmem) (by decide)
    have htail : line.text.tail =
        List.replicate m ' ' ++
          (tag ++ (List.replicate n ' ' ++ (Tools.text "]" ++ line.body))) := by
      rw [LogLine.text, hbracket]
      simp [Tools.text]
    simp only [htail, List.mem_append, hopen, hspace, line.not_mem_body.2, false_or, or_false]
    decide

/-- The line behind the last line end. -/
def blank : LogLine := .output (.plain ⟨[], List.not_mem_nil, List.not_mem_nil⟩)

/-- Two lines in a row have no status in common. -/
def Alternates (line next : LogLine) : Prop :=
  ∀ status, line.nameOf status ≠ none → next.nameOf status = none

/-- Other output separates any two lines. -/
theorem isChain_output {ls : List LogLine} (output : List OutputLine) (h : ls.IsChain Alternates) :
    (output.map LogLine.output ++ ls).IsChain Alternates := by
  induction output with
  | nil => exact h
  | cons line output ih => exact ih.cons fun next _ status hne => absurd rfl hne

/-- Behind what a test prints no status line stands sooner than it did. -/
theorem nameOf_output_head {ls : List LogLine} (output : List OutputLine)
    (h : ∀ next ∈ ls.head?, next.nameOf status = none) :
    ∀ next ∈ (output.map LogLine.output ++ ls).head?, next.nameOf status = none := by
  cases output with
  | nil => exact h
  | cons line output =>
    intro next hnext
    obtain rfl := Option.some.inj hnext
    rfl

/-- A start and an `OK` line alternate, where no other `OK` line follows the test. -/
theorem isChain_test {ls : List LogLine} (test : TestRun) (h : ls.IsChain Alternates)
    (hhead : ∀ next ∈ ls.head?, next.nameOf (Tools.text "OK") = none) :
    (test.lines ++ ls).IsChain Alternates := by
  have hok : (ok test.name test.elapsed :: (test.after.map .output ++ ls)).IsChain Alternates := by
    refine (isChain_output test.after h).cons fun next hnext status hne => ?_
    obtain rfl : status = Tools.text "OK" := by
      by_contra hstatus
      exact hne (if_neg hstatus)
    exact nameOf_output_head test.after hhead next hnext
  have hrun : (run test.name :: (test.output.map .output ++
      ok test.name test.elapsed :: (test.after.map .output ++ ls))).IsChain Alternates := by
    refine (isChain_output test.output hok).cons fun next hnext status hne => ?_
    obtain rfl : status = Tools.text "RUN" := by
      by_contra hstatus
      exact hne (if_neg hstatus)
    refine nameOf_output_head test.output (fun next hnext => ?_) next hnext
    obtain rfl := Option.some.inj hnext
    rw [nameOf_ok, if_neg (by decide)]
  simpa [TestRun.lines] using hrun

end LogLine

/-! ### When a passing log is accepted -/

/-- Lines are read back. -/
theorem lines_printed {ls : List Text} (h : ∀ line ∈ ls, newline ∉ line) :
    lines (printed ls) = ls ++ [[]] := by
  induction ls with
  | nil => rfl
  | cons line ls ih =>
    have hline := h line (List.mem_cons_self ..)
    rw [lines, printed_cons, List.splitOn_append_cons_self_of_not_mem hline, List.cons_append]
    exact congrArg _ (ih fun next hnext => h next (List.mem_cons_of_mem _ hnext))

namespace PassingLog

variable {read : Text → Option Text} {f : LogLine → Option Text}

/-- The lines of a log are those it was printed from. -/
theorem lines_text (log : PassingLog) :
    Tools.lines log.text = (log.lines ++ [LogLine.blank]).map LogLine.text := by
  rw [PassingLog.text, lines_printed, List.map_append]
  · rfl
  · intro line hline
    obtain ⟨l, -, rfl⟩ := List.mem_map.mp hline
    exact l.newline_not_mem_text

/-- What is read off every line is read off the log. -/
theorem readsWhole (log : PassingLog) (h : LogLine.ReadsLines read f) :
    ReadsWhole read log.text := by
  intro line hline after hafter
  rw [log.lines_text] at hline
  obtain ⟨l, -, rfl⟩ := List.mem_map.mp hline
  rw [h l after hafter, h.read_text l]

/-- What is read of the lines of a log. -/
theorem filterMap_lines (log : PassingLog) (h : LogLine.ReadsLines read f)
    (hblank : f LogLine.blank = none) :
    (Tools.lines log.text).filterMap read = log.lines.filterMap f := by
  have hread : read ∘ LogLine.text = f := funext h.read_text
  rw [log.lines_text, List.filterMap_map, hread, List.filterMap_append]
  simp [hblank]

/-- No two lines in a row have the same status. -/
theorem isChain_lines (log : PassingLog) :
    (log.lines ++ [LogLine.blank]).IsChain LogLine.Alternates := by
  have htests : ∀ {tests : List TestRun} {ls : List LogLine}, ls.IsChain LogLine.Alternates →
      (∀ next ∈ ls.head?, next.nameOf (Tools.text "OK") = none) →
      (tests.flatMap TestRun.lines ++ ls).IsChain LogLine.Alternates := by
    intro tests ls h hhead
    induction tests with
    | nil => exact h
    | cons test tests ih =>
      rw [List.flatMap_cons, List.append_assoc]
      refine LogLine.isChain_test test ih fun next hnext => ?_
      cases tests with
      | nil => exact hhead next hnext
      | cons next' tests =>
        obtain rfl := Option.some.inj hnext
        rw [LogLine.nameOf_run, if_neg (by decide)]
  rw [PassingLog.lines, List.append_assoc, List.append_assoc, List.cons_append]
  refine LogLine.isChain_output log.before (htests ?_ fun next hnext => ?_)
  · refine (LogLine.isChain_output log.after (List.isChain_singleton _)).cons ?_
    exact fun next _ status hne => absurd rfl hne
  · obtain rfl := Option.some.inj hnext
    rfl

/-- The names of a status are the tests that were run. -/
theorem filterMap_nameOf (log : PassingLog) {status : Text} (hstatus : status ∈ STATUSES) :
    log.lines.filterMap (LogLine.nameOf status) = log.observed := by
  have houtput : ∀ output : List OutputLine,
      (output.map LogLine.output).filterMap (LogLine.nameOf status) = [] := fun output => by
    simp [LogLine.nameOf]
  have htest : ∀ test : TestRun,
      test.lines.filterMap (LogLine.nameOf status) = [test.name.name] := fun test => by
    have hcases : status = Tools.text "RUN" ∨ status = Tools.text "OK" := by
      simpa [STATUSES] using hstatus
    have hne : Tools.text "RUN" ≠ Tools.text "OK" := by decide
    rcases hcases with rfl | rfl
    · simp [TestRun.lines, houtput, LogLine.nameOf_run, LogLine.nameOf_ok, hne]
    · simp [TestRun.lines, houtput, LogLine.nameOf_run, LogLine.nameOf_ok, hne.symm]
  have htests : (log.tests.flatMap TestRun.lines).filterMap (LogLine.nameOf status) =
      log.observed := by
    rw [List.filterMap_flatMap, observed, List.map_eq_flatMap]
    simp [htest]
  simp [PassingLog.lines, houtput, htests, LogLine.nameOf]

/-- There is one summary, of all tests. -/
theorem filterMap_number (log : PassingLog) :
    log.lines.filterMap LogLine.number = [str log.tests.length] := by
  have houtput : ∀ output : List OutputLine,
      (output.map LogLine.output).filterMap LogLine.number = [] := fun output => by
    simp [LogLine.number]
  have htest : ∀ test : TestRun, test.lines.filterMap LogLine.number = [] := fun test => by
    simp only [TestRun.lines, List.filterMap_cons, List.filterMap_append, houtput, LogLine.number,
      List.append_nil]
  have htests : (log.tests.flatMap TestRun.lines).filterMap LogLine.number = [] := by
    rw [List.filterMap_flatMap]
    simp [htest]
  simp [PassingLog.lines, houtput, htests, LogLine.number]

/-- **What is found of a status** in a passing log are the tests that were run. -/
theorem findall_status_text (log : PassingLog) {status : Text} (hstatus : status ∈ STATUSES) :
    ((statusPattern status).findall log.text).Perm log.observed := by
  have hword : ∀ status ∈ STATUSES, IsWord status := by decide
  have hread := LogLine.readsLines_statusName hstatus
  rw [← log.filterMap_nameOf hstatus, ← log.filterMap_lines hread rfl]
  refine findall_status_perm_lines (hword status hstatus) (log.readsWhole hread) ?_
  rw [log.lines_text, List.isChain_map]
  refine log.isChain_lines.imp fun line next halternates hne => ?_
  rw [hread.read_text] at hne ⊢
  exact halternates status hne

/-- **The summary that is found.** -/
theorem findall_summary_text (log : PassingLog) :
    summaryPattern.findall log.text = [str log.tests.length] := by
  have hperm := findall_summary_perm_lines (log.readsWhole LogLine.readsLines_summaryNumber)
  rw [log.filterMap_lines LogLine.readsLines_summaryNumber rfl, log.filterMap_number] at hperm
  exact List.perm_singleton.mp hperm

/-- **No failure is found** in a passing log. -/
theorem search_failurePattern_text (log : PassingLog) : failurePattern.search log.text = false := by
  refine search_failurePattern_eq_false (fun line hline => ?_)
    (fun tag htag => log.readsWhole (LogLine.readsLines_failureTag htag))
    (fun tag htag line hline => ?_)
  · rw [log.lines_text] at hline
    obtain ⟨l, -, rfl⟩ := List.mem_map.mp hline
    exact l.bracket_not_mem_tail
  · rw [log.lines_text] at hline
    obtain ⟨l, -, rfl⟩ := List.mem_map.mp hline
    exact (LogLine.readsLines_failureTag htag).read_text l

end PassingLog

/-- **A passing log is accepted** exactly when the tests that were run are the
expected ones. -/
theorem passing_log_accepted_iff (log : PassingLog) (expected : List Text) :
    validateResult log.text expected = .ok () ↔ log.observed.Perm expected := by
  rw [validateResult_eq_ok_iff]
  constructor
  · rintro ⟨-, hrun, -, -⟩
    exact (log.findall_status_text (by decide)).symm.trans hrun
  · intro h
    refine ⟨log.search_failurePattern_text, (log.findall_status_text (by decide)).trans h,
      (log.findall_status_text (by decide)).trans h, ?_⟩
    rw [log.findall_summary_text, ← h.length_eq, PassingLog.observed, List.length_map]

/-- The log of one test. -/
example :
    (PassingLog.mk [.ruler true ⟨text " Running 1 test.", by decide, by decide⟩]
      [⟨⟨text "A.B", by decide, by decide⟩, [.plain ⟨text "out", by decide, by decide⟩], 12, []⟩]
      true []).text =
      text "[==========] Running 1 test.\n[ RUN      ] A.B\nout\n" ++
        text "[       OK ] A.B (12 ms)\n[  PASSED  ] 1 test.\n" := by
  decide +kernel

end Tools
end GcnPort
