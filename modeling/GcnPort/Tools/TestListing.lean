/-
# What a test listing says

`validate_listing` of `tools/gcnport_tools/dolphin_tests.py` goes through the lines
that GoogleTest lists its tests with: a line `Suite.` starts a suite, and an
indented word behind it is one of its tests, whatever comment follows either.  The
suite it is in is all that one line hands on to the next (`Discovery`).  What it
discovers in a printed listing are the listed tests (`discover_text`), so it
accepts the listing exactly when every expected test is listed once
(`listing_accepted_iff`), where the lines before the suites are not counted.  They may
be: the expressions are more liberal than what is printed (`leading_lines_counted`).
-/

import GcnPort.Tools.DolphinTests

namespace GcnPort
namespace Tools

open Foundation

/-- `\w`: a letter, a digit or `_`.  Which characters beyond ASCII are letters and
digits, `str.isalnum` reads in the tables of Unicode. -/
def isWordChar (isalnum : Char → Bool) (c : Char) : Bool :=
  c.isAlphanum || c = '_' || (0x80 ≤ c.toNat && isalnum c)

/-- `[\w/]`. -/
def isNamePart (isalnum : Char → Bool) (c : Char) : Bool := isWordChar isalnum c || c = '/'

/-- `(?:#.*)?`. -/
def comment : Pattern Char := .opt (.seq (.literal (text "#")) (.many (· ≠ newline)))

/-- `([\w/]+\.)\s*(?:#.*)?`. -/
def suiteLine (isalnum : Char → Bool) : Pattern Char :=
  .sequence [.group (.seq (.atLeastOne (isNamePart isalnum)) (.literal (text "."))), spaces,
    comment]

/-- `\s+([\w/]+)\s*(?:#.*)?`. -/
def testLine (isalnum : Char → Bool) : Pattern Char :=
  .sequence [someSpaces, .group (.atLeastOne (isNamePart isalnum)), spaces, comment]

/-- Where `str.splitlines` breaks a text. -/
def isLineBreak (c : Char) : Bool :=
  (0x0a ≤ c.toNat && c.toNat ≤ 0x0d) || (0x1c ≤ c.toNat && c.toNat ≤ 0x1e) ||
    [0x85, 0x2028, 0x2029].contains c.toNat

/-- `splitlines`, `line` being what the line has so far, read backwards. -/
def splitlinesFrom (line : Text) : Text → List Text
  | [] => if line = [] then [] else [line.reverse]
  | '\r' :: '\n' :: rest => line.reverse :: splitlinesFrom [] rest
  | c :: rest =>
    if isLineBreak c then line.reverse :: splitlinesFrom [] rest
    else splitlinesFrom (c :: line) rest

/-- `str.splitlines`. -/
def splitlines (text : Text) : List Text := splitlinesFrom [] text

/-- The state of the loop; the counter is the list of what was counted. -/
structure Discovery where
  suite : Text
  found : List Text
deriving DecidableEq, Repr

/-- One line of `validate_listing`'s loop. -/
def Discovery.line (isalnum : Char → Bool) (d : Discovery) (line : Text) : Discovery :=
  match (suiteLine isalnum).fullmatch line with
  | some m => { d with suite := Pattern.captured m }
  | none =>
    if d.suite = [] then d
    else
      match (testLine isalnum).fullmatch line with
      | some m => { d with found := d.found ++ [d.suite ++ Pattern.captured m] }
      | none => d

/-- The loop. -/
def discover (isalnum : Char → Bool) (listing : Text) : Discovery :=
  (splitlines listing).foldl (Discovery.line isalnum) ⟨[], []⟩

/-- The error of `validate_listing`: how many entries were scanned, and how often the
tests occur that do not occur once. -/
structure ListingError where
  scanned : ℕ
  invalid : List (Text × ℕ)
deriving DecidableEq, Repr

/-- The message of the `RuntimeError`; `repr` is Python's of a dictionary. -/
def ListingError.message (repr : List (Text × ℕ) → Text) (e : ListingError) : Text :=
  text "Dolphin test discovery scanned " ++ str e.scanned ++
    text " entries; required tests must occur once, observed " ++ repr e.invalid

/-- `validate_listing`. -/
def validateListing (isalnum : Char → Bool) (listing : Text) (expected : List Text) :
    Except ListingError Unit :=
  let found := (discover isalnum listing).found
  let invalid := (expected.eraseDups.filter fun name => found.count name ≠ 1).map
    fun name => (name, found.count name)
  if invalid ≠ [] then throw ⟨found.length, invalid⟩ else pure ()

/-! ### What the expressions match -/

/-- What may follow a name: white space, and a comment behind it. -/
def IsRemark (remark : Text) : Prop :=
  ∃ w comment, IsBlank w ∧ (comment = [] ∨ ∃ line, newline ∉ line ∧ comment = '#' :: line) ∧
    remark = w ++ comment

/-- The line of a suite; the dot belongs to the suite. -/
def IsSuiteLine (isalnum : Char → Bool) (suite line : Text) : Prop :=
  ∃ name remark, name ≠ [] ∧ (∀ c ∈ name, isNamePart isalnum c) ∧ IsRemark remark ∧
    suite = name ++ text "." ∧ line = suite ++ remark

/-- The line of a test. -/
def IsTestLine (isalnum : Char → Bool) (name line : Text) : Prop :=
  ∃ w remark, IsBlank w ∧ w ≠ [] ∧ name ≠ [] ∧ (∀ c ∈ name, isNamePart isalnum c) ∧
    IsRemark remark ∧ line = w ++ (name ++ remark)

section

variable {isalnum : Char → Bool} {before rest t rest' name line : Text} {captures : List Text}

/-- A comment takes the rest of the line. -/
theorem matches_comment :
    comment.Matches before rest t rest' captures ↔
      (t = [] ∨ ∃ line, newline ∉ line ∧ t = '#' :: line) ∧ rest = t ++ rest' ∧ captures = [] := by
  constructor
  · intro h
    rcases Pattern.matches_opt.mp h with h | ⟨rfl, rfl, rfl⟩
    · obtain ⟨_, _, _, line, _, hhash, hmany, rfl, rfl⟩ := Pattern.matches_seq.mp h
      obtain ⟨rfl, rfl, rfl⟩ := Pattern.matches_literal.mp hhash
      obtain ⟨rfl, hnewline, rfl⟩ := matches_restOfLine.mp hmany
      exact ⟨.inr ⟨line, hnewline, by simp [text]⟩, by simp, rfl⟩
    · exact ⟨.inl rfl, rfl, rfl⟩
  · rintro ⟨rfl | ⟨line, hnewline, rfl⟩, rfl, rfl⟩
    · exact Pattern.matches_opt.mpr (.inr ⟨rfl, rfl, rfl⟩)
    · refine Pattern.matches_opt.mpr (.inl (Pattern.matches_seq.mpr
        ⟨text "#", line ++ rest', [], line, [], ?_, ?_, rfl, rfl⟩))
      · exact Pattern.matches_literal.mpr ⟨rfl, rfl, rfl⟩
      · exact matches_restOfLine.mpr ⟨rfl, hnewline, rfl⟩

/-- What stands behind a name in a listing. -/
theorem matches_remark :
    (Pattern.sequence [spaces, comment]).Matches before rest t rest' captures ↔
      IsRemark t ∧ rest = t ++ rest' ∧ captures = [] := by
  constructor
  · intro h
    obtain ⟨w, _, _, rfl, hw, rfl, h₁⟩ := Pattern.matches_many_then.mp h
    obtain ⟨_, _, _, _, _, hmatch, h₂, rfl, rfl⟩ := Pattern.matches_sequence_cons.mp h₁
    obtain ⟨rfl, rfl, rfl⟩ := Pattern.matches_sequence_nil.mp h₂
    obtain ⟨hcomment, rfl, rfl⟩ := matches_comment.mp hmatch
    exact ⟨⟨w, _, hw, hcomment, by simp⟩, by simp, rfl⟩
  · rintro ⟨⟨w, comment', hw, hcomment, rfl⟩, rfl, rfl⟩
    refine Pattern.matches_many_then.mpr ⟨w, _, _, by simp; rfl, hw, rfl, ?_⟩
    exact Pattern.matches_sequence_cons.mpr ⟨comment', rest', [], [], [],
      matches_comment.mpr ⟨hcomment, rfl, rfl⟩,
      Pattern.matches_sequence_nil.mpr ⟨rfl, rfl, rfl⟩, by simp, rfl⟩

/-- **What the expression of a suite matches.** -/
theorem wordPattern_suiteLine : WordPattern (suiteLine isalnum) (IsSuiteLine isalnum) := by
  refine ⟨fun {before rest t rest' captures} => ⟨fun h => ?_, ?_⟩⟩
  · obtain ⟨_, _, _, remark, _, hgroup, h₁, rfl, rfl⟩ := Pattern.matches_sequence_cons.mp h
    obtain ⟨_, hseq, rfl⟩ := Pattern.matches_group.mp hgroup
    obtain ⟨name, _, _, _, _, hname, hdot, rfl, rfl⟩ := Pattern.matches_seq.mp hseq
    obtain ⟨rfl, hpart, hne, rfl⟩ := Pattern.matches_atLeastOne.mp hname
    obtain ⟨rfl, rfl, rfl⟩ := Pattern.matches_literal.mp hdot
    obtain ⟨hremark, rfl, rfl⟩ := matches_remark.mp h₁
    exact ⟨by simp, _, rfl, name, remark, hne, hpart, hremark, rfl, rfl⟩
  · rintro ⟨rfl, _, rfl, name, remark, hne, hpart, hremark, rfl, rfl⟩
    refine Pattern.matches_sequence_cons.mpr ⟨name ++ text ".", remark ++ rest', _, remark, [],
      Pattern.matches_group.mpr ⟨[], ?_, rfl⟩, matches_remark.mpr ⟨hremark, rfl, rfl⟩, rfl, rfl⟩
    rw [List.append_assoc, List.append_assoc]
    exact Pattern.matches_seq.mpr ⟨name, text "." ++ (remark ++ rest'), [], text ".", [],
      Pattern.matches_atLeastOne.mpr ⟨rfl, hpart, hne, rfl⟩,
      Pattern.matches_literal.mpr ⟨rfl, rfl, rfl⟩, rfl, rfl⟩

/-- **What the expression of a test matches.** -/
theorem wordPattern_testLine : WordPattern (testLine isalnum) (IsTestLine isalnum) := by
  refine ⟨fun {before rest t rest' captures} => ⟨fun h => ?_, ?_⟩⟩
  · obtain ⟨w, _, _, rfl, hw, hne, rfl, h₁⟩ := Pattern.matches_atLeastOne_then.mp h
    obtain ⟨name, _, remark, _, rfl, hpart, hname, rfl, rfl, h₂⟩ :=
      Pattern.matches_captured_then.mp h₁
    obtain ⟨hremark, rfl, rfl⟩ := matches_remark.mp h₂
    exact ⟨by simp, name, rfl, w, remark, hw, hne, hname, hpart, hremark, rfl⟩
  · rintro ⟨rfl, name, rfl, w, remark, hw, hne, hname, hpart, hremark, rfl⟩
    refine Pattern.matches_atLeastOne_then.mpr ⟨w, _, _, by simp; rfl, hw, hne, rfl, ?_⟩
    refine Pattern.matches_captured_then.mpr ⟨name, _, _, [], rfl, hpart, hname, rfl, rfl, ?_⟩
    exact matches_remark.mpr ⟨hremark, rfl, rfl⟩

end

/-! ### What is printed -/

/-- The characters of listed names. -/
def isListedChar (c : Char) : Bool := c.isAlphanum || c = '_' || c = '/'

/-- The name of a listed suite or test. -/
structure ListedName where
  name : Text
  ne_nil : name ≠ []
  isListed : ∀ c ∈ name, isListedChar c

/-- A text that stays on its line. -/
structure Comment where
  text : Text
  unbroken : ∀ c ∈ text, isLineBreak c = false

/-- Spaces behind a name, and a comment or none. -/
structure Remark where
  spaces : ℕ
  comment : Option Comment

/-- The text of a remark. -/
def Remark.text (remark : Remark) : Text :=
  List.replicate remark.spaces ' ' ++ remark.comment.elim [] fun comment => '#' :: comment.text

/-- A listed test. -/
structure ListedTest where
  name : ListedName
  remark : Remark

/-- The line of a test, indented by two spaces. -/
def ListedTest.line (test : ListedTest) : Text :=
  text "  " ++ (test.name.name ++ test.remark.text)

/-- A listed suite. -/
structure ListedSuite where
  name : ListedName
  remark : Remark
  tests : List ListedTest

/-- What the names of a suite's tests start with. -/
def ListedSuite.stem (suite : ListedSuite) : Text := suite.name.name ++ text "."

/-- The line of a suite. -/
def ListedSuite.line (suite : ListedSuite) : Text :=
  suite.name.name ++ (text "." ++ suite.remark.text)

/-- The lines of a suite and its tests. -/
def ListedSuite.lines (suite : ListedSuite) : List Text :=
  suite.line :: suite.tests.map ListedTest.line

/-- The names of a suite's tests. -/
def ListedSuite.names (suite : ListedSuite) : List Text :=
  suite.tests.map fun test => suite.stem ++ test.name.name

/-- **A listing.**  What comes before the suites lists nothing of its own: none of these
lines that the expression of a test matches comes behind one that the expression of a
suite matches.  Lines that neither matches are such; but the expressions match more
than what is printed for a suite or a test (`leading_lines_counted`). -/
structure Listing (isalnum : Char → Bool) where
  leading : List Text
  unbroken : ∀ line ∈ leading, ∀ c ∈ line, isLineBreak c = false
  unlisted : leading.Pairwise fun line next =>
    ∀ suite test, IsSuiteLine isalnum suite line → ¬ IsTestLine isalnum test next
  suites : List ListedSuite

namespace Listing

variable {isalnum : Char → Bool}

/-- The lines of a listing. -/
def lines (listing : Listing isalnum) : List Text :=
  listing.leading ++ listing.suites.flatMap ListedSuite.lines

/-- The text of a listing. -/
def text (listing : Listing isalnum) : Text := printed listing.lines

/-- The names of the tests of a listing. -/
def names (listing : Listing isalnum) : List Text := listing.suites.flatMap ListedSuite.names

end Listing

/-! ### Names and remarks -/

/-- A listed character is one of ASCII. -/
theorem toNat_lt_of_isListedChar {c : Char} (h : isListedChar c) : c.toNat < 0x80 := by
  have hle : ∀ {a b : UInt32}, a ≤ b → a.toNat ≤ b.toNat := fun h => h
  simp only [isListedChar, Bool.or_eq_true, decide_eq_true_eq] at h
  rcases h with (h | rfl) | rfl
  · change (decide ('A'.val ≤ c.val ∧ c.val ≤ 'Z'.val) ||
      ('a'.val ≤ c.val && c.val ≤ 'z'.val) || ('0'.val ≤ c.val && c.val ≤ '9'.val)) = true at h
    simp only [Bool.or_eq_true, Bool.and_eq_true, decide_eq_true_eq] at h
    rcases h with (⟨-, h⟩ | ⟨-, h⟩) | ⟨-, h⟩
    · exact (hle h).trans_lt (by decide)
    · exact (hle h).trans_lt (by decide)
    · exact (hle h).trans_lt (by decide)
  · decide
  · decide

/-- A listed character is no white space, and opens no comment. -/
theorem isSpace_of_isListedChar {c : Char} (h : isListedChar c) : isSpace c = false ∧ c ≠ '#' := by
  have hall : ∀ n < 0x80, isListedChar (Char.ofNat n) →
      isSpace (Char.ofNat n) = false ∧ Char.ofNat n ≠ '#' := by
    decide +kernel
  have hc := hall c.toNat (toNat_lt_of_isListedChar h)
  rw [Char.ofNat_toNat] at hc
  exact hc h

section

variable {isalnum : Char → Bool} {remark : Text}

/-- The characters of listed names are those of names. -/
theorem isNamePart_of_isListedChar {c : Char} (h : isListedChar c) : isNamePart isalnum c := by
  simp only [isListedChar, Bool.or_eq_true] at h
  simp only [isNamePart, isWordChar, Bool.or_eq_true]
  rcases h with (h | h) | h
  · exact .inl (.inl (.inl h))
  · exact .inl (.inl (.inr h))
  · exact .inr h

/-- A space is part of no name. -/
theorem isNamePart_space : isNamePart isalnum ' ' = false := rfl

/-- A printed name starts with no white space. -/
theorem ListedName.head (name : ListedName) (rest : Text) :
    ∀ c ∈ (name.name ++ rest).head?, isSpace c = false :=
  head_of_ne_nil name.ne_nil fun c hc => (isSpace_of_isListedChar (name.isListed c hc)).1

/-- What is behind a name. -/
theorem IsRemark.head (h : IsRemark remark) : ∀ c ∈ remark.head?, isSpace c ∨ c = '#' := by
  obtain ⟨w, comment, hw, hcomment, rfl⟩ := h
  refine head_append (fun c hc => .inl (hw c (List.mem_of_head? hc))) fun c hc => .inr ?_
  rcases hcomment with rfl | ⟨line, -, rfl⟩
  · cases hc
  · exact (Option.some.inj hc).symm

/-- A printed remark is read as one. -/
theorem Remark.isRemark (remark : Remark) : IsRemark remark.text := by
  refine ⟨List.replicate remark.spaces ' ', _, isBlank_replicate _, ?_, rfl⟩
  cases remark.comment with
  | none => exact .inl rfl
  | some comment =>
    refine .inr ⟨comment.text, fun hmem => ?_, rfl⟩
    exact absurd (comment.unbroken _ hmem) (by decide)

/-- A printed remark ends a name. -/
theorem Remark.head (remark : Remark) : ∀ c ∈ remark.text.head?, isNamePart isalnum c = false := by
  refine head_append (fun c hc => ?_) fun c hc => ?_
  · obtain rfl := List.eq_of_mem_replicate (List.mem_of_head? hc)
    rfl
  · cases hcomment : remark.comment with
    | none =>
      rw [hcomment] at hc
      cases hc
    | some comment =>
      rw [hcomment] at hc
      obtain rfl := Option.some.inj hc
      rfl

/-- A line break is white space. -/
theorem isSpace_of_isLineBreak {c : Char} (h : isLineBreak c) : isSpace c := by
  simp only [isLineBreak, isSpace, Bool.or_eq_true, Bool.and_eq_true, decide_eq_true_eq,
    List.contains_iff_mem, List.mem_cons, List.not_mem_nil, or_false] at h ⊢
  omega

/-- The characters of listed names break no line. -/
theorem isLineBreak_of_isListedChar {c : Char} (h : isListedChar c) : isLineBreak c = false := by
  by_contra hbreak
  have hspace := isSpace_of_isLineBreak (Bool.not_eq_false _ ▸ hbreak)
  rw [(isSpace_of_isListedChar h).1] at hspace
  cases hspace

/-- A name stays on its line. -/
theorem ListedName.unbroken (name : ListedName) : ∀ c ∈ name.name, isLineBreak c = false :=
  fun c hc => isLineBreak_of_isListedChar (name.isListed c hc)

/-- A remark stays on its line. -/
theorem Remark.unbroken (remark : Remark) : ∀ c ∈ remark.text, isLineBreak c = false := by
  intro c hc
  rcases List.mem_append.mp hc with hc | hc
  · obtain rfl := List.eq_of_mem_replicate hc
    decide
  · cases hcomment : remark.comment with
    | none =>
      rw [hcomment] at hc
      cases hc
    | some comment =>
      rw [hcomment] at hc
      rcases List.mem_cons.mp hc with rfl | hc
      · decide
      · exact comment.unbroken c hc

/-- The line of a suite is one line. -/
theorem ListedSuite.unbroken (suite : ListedSuite) : ∀ c ∈ suite.line, isLineBreak c = false := by
  simp only [ListedSuite.line, List.forall_mem_append]
  exact ⟨suite.name.unbroken, by decide, suite.remark.unbroken⟩

/-- The line of a test is one line. -/
theorem ListedTest.unbroken (test : ListedTest) : ∀ c ∈ test.line, isLineBreak c = false := by
  simp only [ListedTest.line, List.forall_mem_append]
  exact ⟨by decide, test.name.unbroken, test.remark.unbroken⟩

end

/-! ### What a line does -/

section

variable {isalnum : Char → Bool} {d : Discovery} {line : Text}

/-- The line of a suite names the suite, and no other. -/
theorem ListedSuite.isSuiteLine_iff (suite : ListedSuite) {stem : Text} :
    IsSuiteLine isalnum stem suite.line ↔ stem = suite.stem := by
  have hpart : ∀ c ∈ suite.name.name, isNamePart isalnum c :=
    fun c hc => isNamePart_of_isListedChar (suite.name.isListed c hc)
  constructor
  · rintro ⟨name, remark, -, hname, -, rfl, hline⟩
    have hnames := congrArg (List.takeWhile (isNamePart isalnum)) hline
    have hdot : ∀ rest, ∀ c ∈ (text "." ++ rest).head?, isNamePart isalnum c = false := by
      intro rest c hc
      obtain rfl := Option.some.inj hc
      rfl
    rw [ListedSuite.line, List.append_assoc, takeWhile_run hpart (hdot _),
      takeWhile_run hname (hdot _)] at hnames
    rw [← hnames, ListedSuite.stem]
  · rintro rfl
    refine ⟨suite.name.name, suite.remark.text, suite.name.ne_nil, hpart, suite.remark.isRemark,
      rfl, ?_⟩
    rw [ListedSuite.line, ListedSuite.stem, List.append_assoc]

/-- The line of a test is no suite's. -/
theorem ListedTest.not_isSuiteLine (test : ListedTest) (suite : Text) :
    ¬ IsSuiteLine isalnum suite test.line := by
  rintro ⟨name, remark, hne, hname, -, rfl, hline⟩
  obtain ⟨c, name, rfl⟩ := List.exists_cons_of_ne_nil hne
  obtain rfl : ' ' = c := (List.cons.inj hline).1
  have hspace := hname ' ' (List.mem_cons_self ..)
  rw [isNamePart_space] at hspace
  cases hspace

/-- The line of a test names the test, and no other. -/
theorem ListedTest.isTestLine_iff (test : ListedTest) {name : Text} :
    IsTestLine isalnum name test.line ↔ name = test.name.name := by
  have hpart : ∀ c ∈ test.name.name, isNamePart isalnum c :=
    fun c hc => isNamePart_of_isListedChar (test.name.isListed c hc)
  constructor
  · rintro ⟨w, remark, hw, -, hne, hname, hremark, hline⟩
    -- the white space is the indentation: a name starts with none
    have hbehind : test.name.name ++ test.remark.text = name ++ remark := by
      refine (append_inj_of_head hline (fun c hc hmem => ?_) ?_).2
      · have hspace := hw c hmem
        rw [test.name.head _ c hc] at hspace
        cases hspace
      · refine head_of_ne_nil hne fun c hc hmem => ?_
        obtain rfl : c = ' ' := by simpa [text] using hmem
        have hspace := hname ' ' hc
        rw [isNamePart_space] at hspace
        cases hspace
    -- and what is behind a name goes on with neither
    refine (append_inj_of_head hbehind (fun c hc hmem => ?_) (fun c hc hmem => ?_)).1.symm
    · have hhead : isNamePart isalnum c = false := test.remark.head c hc
      rw [hname c hmem] at hhead
      cases hhead
    · obtain ⟨hspace, hhash⟩ := isSpace_of_isListedChar (test.name.isListed c hmem)
      rcases hremark.head c hc with h | h
      · rw [hspace] at h
        cases h
      · exact hhash h
  · rintro rfl
    exact ⟨text "  ", test.remark.text, by decide, by decide, test.name.ne_nil, hpart,
      test.remark.isRemark, rfl⟩

/-- **A line of a suite** starts the suite. -/
theorem Discovery.line_suite (d : Discovery) (suite : ListedSuite) :
    d.line isalnum suite.line = { d with suite := suite.stem } := by
  obtain ⟨o, ho, hstem⟩ : ∃ o, (suiteLine isalnum).fullmatch suite.line = some o ∧
      Pattern.captured o = suite.stem := wordPattern_suiteLine.exists_fullmatch
    (suite.isSuiteLine_iff.mpr rfl) fun _ h => suite.isSuiteLine_iff.mp h
  rw [Discovery.line, ho, ← hstem]

/-- **A line of a test** counts the test, in a suite. -/
theorem Discovery.line_test (hd : d.suite ≠ []) (test : ListedTest) :
    d.line isalnum test.line = { d with found := d.found ++ [d.suite ++ test.name.name] } := by
  obtain ⟨o, ho, hname⟩ : ∃ o, (testLine isalnum).fullmatch test.line = some o ∧
      Pattern.captured o = test.name.name := wordPattern_testLine.exists_fullmatch
    (test.isTestLine_iff.mpr rfl) fun _ h => test.isTestLine_iff.mp h
  rw [Discovery.line, wordPattern_suiteLine.fullmatch_eq_none test.not_isSuiteLine]
  simp only [if_neg hd, ho, hname]

/-- **Any other line** counts nothing; it starts a suite at most. -/
theorem Discovery.line_leading (h : d.suite ≠ [] → ∀ name, ¬ IsTestLine isalnum name line) :
    (d.line isalnum line).found = d.found ∧
      ((d.line isalnum line).suite = d.suite ∨
        IsSuiteLine isalnum (d.line isalnum line).suite line) := by
  rw [Discovery.line]
  cases hsuite : (suiteLine isalnum).fullmatch line with
  | some o => exact ⟨rfl, .inr (wordPattern_suiteLine.of_fullmatch hsuite)⟩
  | none =>
    by_cases hd : d.suite = []
    · simp [hd]
    · simp [hd, wordPattern_testLine.fullmatch_eq_none (h hd)]

/-- The tests of a suite. -/
theorem foldl_tests (hd : d.suite ≠ []) (tests : List ListedTest) :
    (tests.map ListedTest.line).foldl (Discovery.line isalnum) d =
      { d with found := d.found ++ tests.map fun test => d.suite ++ test.name.name } := by
  induction tests generalizing d with
  | nil => simp
  | cons test tests ih =>
    rw [List.map_cons, List.foldl_cons, Discovery.line_test hd, ih (by exact hd)]
    simp

/-- The suites of a listing. -/
theorem found_foldl_suites (d : Discovery) (suites : List ListedSuite) :
    ((suites.flatMap ListedSuite.lines).foldl (Discovery.line isalnum) d).found =
      d.found ++ suites.flatMap ListedSuite.names := by
  induction suites generalizing d with
  | nil => simp
  | cons suite suites ih =>
    have hstem : suite.stem ≠ [] := by simp [ListedSuite.stem, suite.name.ne_nil]
    rw [List.flatMap_cons, List.foldl_append, ih, ListedSuite.lines, List.foldl_cons,
      Discovery.line_suite, foldl_tests hstem]
    simp [ListedSuite.names]

/-- The lines before the suites. -/
theorem found_foldl_leading {leading : List Text} (hd : d.suite ≠ [] → ∀ line ∈ leading,
      ∀ name, ¬ IsTestLine isalnum name line)
    (h : leading.Pairwise fun line next =>
      ∀ suite test, IsSuiteLine isalnum suite line → ¬ IsTestLine isalnum test next) :
    (leading.foldl (Discovery.line isalnum) d).found = d.found := by
  induction leading generalizing d with
  | nil => rfl
  | cons line leading ih =>
    obtain ⟨hline, hleading⟩ := List.pairwise_cons.mp h
    obtain ⟨hfound, hsuite⟩ := Discovery.line_leading fun hne => hd hne line (List.mem_cons_self ..)
    rw [List.foldl_cons, ih _ hleading, hfound]
    intro hne next hnext
    rcases hsuite with hsuite | hsuite
    · exact hd (hsuite ▸ hne) next (List.mem_cons_of_mem _ hnext)
    · exact fun name => hline next hnext _ name hsuite

end

/-! ### When a listing is accepted -/

section

variable {isalnum : Char → Bool}

/-- What breaks no line goes on with the one begun. -/
theorem splitlinesFrom_append {line rest : Text} (hrest : ∀ c ∈ rest, isLineBreak c = false)
    (after : Text) :
    splitlinesFrom line (rest ++ after) = splitlinesFrom (rest.reverse ++ line) after := by
  induction rest generalizing line with
  | nil => rfl
  | cons c rest ih =>
    have hc := hrest c (List.mem_cons_self ..)
    have hreturn : c ≠ '\r' := fun h => by
      rw [h] at hc
      exact absurd hc (by decide)
    rw [List.cons_append, splitlinesFrom, if_neg (by simp [hc]),
      ih fun d hd => hrest d (List.mem_cons_of_mem _ hd)]
    · simp
    · exact fun _ h => absurd h hreturn

/-- Printed lines are read back. -/
theorem splitlines_printed {ls : List Text} (h : ∀ line ∈ ls, ∀ c ∈ line, isLineBreak c = false) :
    splitlines (printed ls) = ls := by
  induction ls with
  | nil => rfl
  | cons line ls ih =>
    rw [splitlines, printed_cons, splitlinesFrom_append (h line (List.mem_cons_self ..)), newline,
      splitlinesFrom, if_pos (by decide)]
    · rw [List.append_nil, List.reverse_reverse]
      exact congrArg _ (ih fun next hnext => h next (List.mem_cons_of_mem _ hnext))
    · exact fun _ h => absurd h (by decide)

/-- **What is discovered in a listing** are its tests. -/
theorem discover_text (listing : Listing isalnum) :
    (discover isalnum listing.text).found = listing.names := by
  have hlines : ∀ line ∈ listing.lines, ∀ c ∈ line, isLineBreak c = false := by
    intro line hline
    rcases List.mem_append.mp hline with hline | hline
    · exact listing.unbroken line hline
    · obtain ⟨suite, -, hline⟩ := List.mem_flatMap.mp hline
      rcases List.mem_cons.mp hline with rfl | hline
      · exact suite.unbroken
      · obtain ⟨test, -, rfl⟩ := List.mem_map.mp hline
        exact test.unbroken
  rw [discover, Listing.text, splitlines_printed hlines, Listing.lines, List.foldl_append,
    found_foldl_suites, found_foldl_leading (fun hne => absurd rfl hne) listing.unlisted]
  rfl

/-- An accepted listing. -/
theorem validateListing_eq_ok_iff {listing : Text} {expected : List Text} :
    validateListing isalnum listing expected = .ok () ↔
      ∀ name ∈ expected, (discover isalnum listing).found.count name = 1 := by
  have hinvalid : ((expected.eraseDups.filter fun name =>
        (discover isalnum listing).found.count name ≠ 1).map
      fun name => (name, (discover isalnum listing).found.count name)) = [] ↔
      ∀ name ∈ expected, (discover isalnum listing).found.count name = 1 := by
    simp [List.filter_eq_nil_iff]
  rw [validateListing]
  split
  · rename_i h
    exact ⟨(nomatch ·), fun hall => absurd (hinvalid.mpr hall) h⟩
  · rename_i h
    exact ⟨fun _ => hinvalid.mp (not_not.mp h), fun _ => rfl⟩

end

/-- **A listing is accepted** exactly when every expected test is listed once. -/
theorem listing_accepted_iff (isalnum : Char → Bool) (listing : Listing isalnum)
    (expected : List Text) :
    validateListing isalnum listing.text expected = .ok () ↔
      ∀ name ∈ expected, listing.names.count name = 1 := by
  rw [validateListing_eq_ok_iff, discover_text]

/-- A tab on the line of a suite stands in its comment. -/
theorem ListedSuite.hash_mem_of_tab_mem (suite : ListedSuite) (h : '\t' ∈ suite.line) :
    '#' ∈ suite.line := by
  simp only [ListedSuite.line, Remark.text, List.mem_append] at h ⊢
  rcases h with h | h | h | h
  · exact absurd (suite.name.isListed _ h) (by decide)
  · exact absurd h (by decide)
  · exact absurd (List.eq_of_mem_replicate h) (by decide)
  · cases hcomment : suite.remark.comment with
    | none =>
      rw [hcomment] at h
      cases h
    | some comment => simp

/-- **Lines before the suites may be counted**, though they are printed for no suite and
no test: a tab ends a suite's line as spaces do, and one space indents a test. -/
theorem leading_lines_counted :
    (∀ line ∈ [text "Foo.\t", text " bar"],
      (∀ suite : ListedSuite, line ≠ suite.line) ∧ ∀ test : ListedTest, line ≠ test.line) ∧
    validateListing (fun _ => false) (printed
        ([text "Foo.\t", text " bar"] ++ ([] : List ListedSuite).flatMap ListedSuite.lines))
        [text "Foo.bar"] = .ok () ∧
      ¬ ∀ name ∈ [text "Foo.bar"],
        (([] : List ListedSuite).flatMap ListedSuite.names).count name = 1 := by
  refine ⟨fun line hline => ?_, by decide +kernel, by simp⟩
  rcases List.mem_pair.mp hline with rfl | rfl
  · constructor
    · intro suite h
      have hhash := suite.hash_mem_of_tab_mem (h ▸ by decide)
      rw [← h] at hhash
      exact absurd hhash (by decide)
    · intro test h
      exact absurd (List.cons.inj h).1 (by decide)
  · constructor
    · intro suite h
      obtain ⟨c, name, hname⟩ := List.exists_cons_of_ne_nil suite.name.ne_nil
      rw [ListedSuite.line, hname] at h
      obtain rfl : ' ' = c := (List.cons.inj h).1
      have hlisted := suite.name.isListed ' ' (by rw [hname]; exact List.mem_cons_self ..)
      exact absurd hlisted (by decide)
    · intro test h
      exact absurd (List.cons.inj (List.cons.inj h).2).1 (by decide)

/-- A suite of one test. -/
example :
    let suite : ListedSuite :=
      ⟨⟨text "I/S", by decide, by decide⟩, ⟨2, some ⟨text " TypeParam = int", by decide⟩⟩,
        [⟨⟨text "T/0", by decide, by decide⟩, ⟨0, none⟩⟩]⟩
    let listing : Listing fun _ => false :=
      ⟨[text "Running main()"], by decide, List.pairwise_singleton _ _, [suite]⟩
    listing.text = text "Running main()\nI/S.  # TypeParam = int\n  T/0\n" ∧
      listing.names = [text "I/S.T/0"] := by
  decide +kernel

end Tools
end GcnPort
