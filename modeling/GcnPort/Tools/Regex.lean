/-
# The classes and tags of the tools' regular expressions

What `\s`, `\S` and `\d` of Python's `re` stand for in a `str`, and the pieces
the expressions of `tools/gcnport_tools` are made of: a word behind white space
and a bracketed tag.  `wordAfter` and `afterTag` read these pieces off a text
without backtracking; the lemmas say that the patterns read the same.
-/

import GcnPort.Foundation.Scan
import GcnPort.Tools.Text

namespace GcnPort
namespace Tools

open Foundation

/-- The end of a line; `re.MULTILINE` knows no other. -/
def newline : Char := '\n'

/-- The lines of a text. -/
def lines (output : Text) : List Text := output.splitOn newline

/-- `\s`: what `str.isspace` accepts. -/
def isSpace (c : Char) : Bool :=
  (0x09 ≤ c.toNat && c.toNat ≤ 0x0d) || (0x1c ≤ c.toNat && c.toNat ≤ 0x20) ||
    (0x2000 ≤ c.toNat && c.toNat ≤ 0x200a) ||
    [0x85, 0xa0, 0x1680, 0x2028, 0x2029, 0x202f, 0x205f, 0x3000].contains c.toNat

/-- `\S`. -/
def isNonSpace (c : Char) : Bool := !isSpace c

/-- The zeros of the decimal digits that Python 3.12 knows; each starts a run of
ten. -/
def DECIMAL_ZEROS : List ℕ :=
  [0x30, 0x660, 0x6f0, 0x7c0, 0x966, 0x9e6, 0xa66, 0xae6, 0xb66, 0xbe6, 0xc66, 0xce6, 0xd66,
    0xde6, 0xe50, 0xed0, 0xf20, 0x1040, 0x1090, 0x17e0, 0x1810, 0x1946, 0x19d0, 0x1a80, 0x1a90,
    0x1b50, 0x1bb0, 0x1c40, 0x1c50, 0xa620, 0xa8d0, 0xa900, 0xa9d0, 0xa9f0, 0xaa50, 0xabf0,
    0xff10, 0x104a0, 0x10d30, 0x11066, 0x110f0, 0x11136, 0x111d0, 0x112f0, 0x11450, 0x114d0,
    0x11650, 0x116c0, 0x11730, 0x118e0, 0x11950, 0x11c50, 0x11d50, 0x11da0, 0x11f50, 0x16a60,
    0x16ac0, 0x16b50, 0x1d7ce, 0x1d7d8, 0x1d7e2, 0x1d7ec, 0x1d7f6, 0x1e140, 0x1e2f0, 0x1e4f0,
    0x1e950, 0x1fbf0]

/-- `\d`. -/
def isDecimal (c : Char) : Bool :=
  DECIMAL_ZEROS.any fun start => start ≤ c.toNat && c.toNat < start + 10

/-- A word: a text without white space that is not empty. -/
def IsWord (word : Text) : Prop := word ≠ [] ∧ ∀ c ∈ word, isNonSpace c

instance (word : Text) : Decidable (IsWord word) := inferInstanceAs (Decidable (_ ∧ _))

/-- A text of white space. -/
def IsBlank (blank : Text) : Prop := ∀ c ∈ blank, isSpace c

instance (blank : Text) : Decidable (IsBlank blank) :=
  inferInstanceAs (Decidable (∀ c ∈ blank, isSpace c))

/-- A tag in brackets, with white space around it. -/
def IsTag (tag piece : Text) : Prop :=
  ∃ w₁ w₂, IsBlank w₁ ∧ IsBlank w₂ ∧ piece = text "[" ++ (w₁ ++ (tag ++ (w₂ ++ text "]")))

/-! ### The pieces -/

/-- `^`. -/
def lineStart : Pattern Char := .lineStart (· = newline)

/-- `$`, with `re.MULTILINE`. -/
def lineEnd : Pattern Char := .lineEnd (· = newline)

/-- `$`, without. -/
def textEnd : Pattern Char := .textEnd (· = newline)

/-- `\s*`. -/
def spaces : Pattern Char := .many isSpace

/-- `\s+`. -/
def someSpaces : Pattern Char := .atLeastOne isSpace

/-- `(\S+)`. -/
def word : Pattern Char := .group (.atLeastOne isNonSpace)

/-- `\[\s*tag\s*\]`. -/
def bracketed (tag : Pattern Char) : Pattern Char :=
  .sequence [.literal (text "["), spaces, tag, spaces, .literal (text "]")]

/-- What stands behind a bracketed tag. -/
def afterTag (tag rest : Text) : Option Text := do
  let rest ← rest.dropPrefix? (text "[")
  let rest ← (rest.dropWhile isSpace).dropPrefix? tag
  (rest.dropWhile isSpace).dropPrefix? (text "]")

/-- The word behind white space. -/
def wordAfter (rest : Text) : Option Text :=
  let name := (rest.dropWhile isSpace).takeWhile isNonSpace
  if rest.head?.any isSpace ∧ name ≠ [] then some name else none

/-! ### What they read -/

section

variable {rest rest' name tag a b : Text}

/-- What is at the head of a text, or of the text behind it. -/
theorem head_append {p : Char → Prop} (ha : ∀ c ∈ a.head?, p c) (hb : ∀ c ∈ b.head?, p c) :
    ∀ c ∈ (a ++ b).head?, p c := by
  cases a with
  | nil => exact hb
  | cons d a => exact ha

/-- What holds of a text holds at its head, whatever is behind it. -/
theorem head_of_ne_nil {p : Char → Prop} (hne : a ≠ []) (ha : ∀ c ∈ a, p c) :
    ∀ c ∈ (a ++ b).head?, p c := by
  obtain ⟨d, a, rfl⟩ := List.exists_cons_of_ne_nil hne
  intro c hc
  obtain rfl : d = c := Option.some.inj hc
  exact ha d (List.mem_cons_self ..)

/-- A word does not start with white space. -/
theorem IsWord.head {word : Text} (h : IsWord word) (rest : Text) :
    ∀ c ∈ (word ++ rest).head?, isSpace c = false :=
  head_of_ne_nil h.1 fun c hc => by simpa [isNonSpace] using h.2 c hc

/-- A digit is no white space. -/
theorem isSpace_of_isDecimal {c : Char} (h : isDecimal c) : isSpace c = false := by
  have hruns : ∀ start ∈ DECIMAL_ZEROS, ∀ k < 10, isSpace (Char.ofNat (start + k)) = false := by
    decide +kernel
  obtain ⟨start, hstart, hc⟩ := List.any_eq_true.mp h
  simp only [Bool.and_eq_true, decide_eq_true_eq] at hc
  have := hruns start hstart (c.toNat - start) (by omega)
  rwa [Nat.add_sub_cancel' hc.1, Char.ofNat_toNat] at this

/-- A blank beginning is read off. -/
theorem dropWhile_blank (ha : IsBlank a) (hb : ∀ c ∈ b.head?, isSpace c = false) :
    (a ++ b).dropWhile isSpace = b :=
  dropWhile_run ha hb

/-- The space at the front is space. -/
theorem isBlank_takeWhile (rest : Text) : IsBlank (rest.takeWhile isSpace) :=
  fun _ hc => List.mem_takeWhile_imp hc

/-- Blanks are space. -/
theorem isBlank_replicate (n : ℕ) : IsBlank (List.replicate n ' ') := by
  intro c hc
  obtain rfl := List.eq_of_mem_replicate hc
  decide

/-- A prefix that is dropped. -/
theorem dropPrefix?_eq_some {pre : Text} :
    rest.dropPrefix? pre = some rest' ↔ rest = pre ++ rest' := by
  rw [List.dropPrefix?_eq_some_iff]
  constructor
  · rintro ⟨pre', rfl, h⟩
    rw [eq_of_beq h]
  · rintro rfl
    exact ⟨pre, rfl, beq_self_eq_true pre⟩

/-- A word that is dropped behind white space. -/
theorem dropPrefix?_dropWhile (htag : IsWord tag) :
    (rest.dropWhile isSpace).dropPrefix? tag = some rest' ↔
      ∃ w, IsBlank w ∧ rest = w ++ (tag ++ rest') := by
  rw [dropPrefix?_eq_some]
  constructor
  · intro h
    refine ⟨rest.takeWhile isSpace, isBlank_takeWhile rest, ?_⟩
    rw [← h, List.takeWhile_append_dropWhile]
  · rintro ⟨w, hw, rfl⟩
    exact dropWhile_blank hw (htag.head _)

/-- **A bracketed tag** is read off. -/
theorem afterTag_eq_some_iff (htag : IsWord tag) :
    afterTag tag rest = some rest' ↔ ∃ piece, IsTag tag piece ∧ rest = piece ++ rest' := by
  have hbracket : IsWord (text "]") := by decide
  simp only [afterTag, Option.bind_eq_bind, Option.bind_eq_some_iff, dropPrefix?_dropWhile htag,
    dropPrefix?_dropWhile hbracket, dropPrefix?_eq_some]
  constructor
  · rintro ⟨_, rfl, _, ⟨w₁, hw₁, rfl⟩, w₂, hw₂, rfl⟩
    exact ⟨_, ⟨w₁, w₂, hw₁, hw₂, rfl⟩, by simp⟩
  · rintro ⟨_, ⟨w₁, w₂, hw₁, hw₂, rfl⟩, rfl⟩
    exact ⟨_, rfl, _, ⟨w₁, hw₁, by simp⟩, w₂, hw₂, rfl⟩

/-- Behind a tag is what stands behind it. -/
theorem afterTag_append {piece : Text} (htag : IsWord tag) (hpiece : IsTag tag piece) :
    afterTag tag (piece ++ rest) = some rest :=
  (afterTag_eq_some_iff htag).mpr ⟨piece, hpiece, rfl⟩

/-- What stands behind a tag stands behind no other. -/
theorem afterTag_of_isTag {tag' piece : Text} (htag : IsWord tag) (htag' : IsWord tag')
    (hclose : ']' ∉ tag) (hclose' : ']' ∉ tag') (hpiece : IsTag tag' piece) :
    afterTag tag (piece ++ rest) = if tag' = tag then some rest else none := by
  split
  · rename_i h
    exact afterTag_append htag (h ▸ hpiece)
  · rename_i h
    rw [Option.eq_none_iff_forall_ne_some]
    intro rest' hrest'
    obtain ⟨_, ⟨w₁, w₂, hw₁, hw₂, rfl⟩, hrest⟩ := (afterTag_eq_some_iff htag).mp hrest'
    obtain ⟨w₁', w₂', hw₁', hw₂', rfl⟩ := hpiece
    simp only [List.append_assoc, List.append_cancel_left_eq] at hrest
    -- behind the white space, both tags go up to white space or the closing bracket
    have hbehind := congrArg (List.dropWhile isSpace) hrest
    rw [dropWhile_blank hw₁' (htag'.head _), dropWhile_blank hw₁ (htag.head _)] at hbehind
    have hend : ∀ {w r : Text}, IsBlank w → ∀ c ∈ (w ++ (text "]" ++ r)).head?,
        (isNonSpace c && c ≠ ']') = false := fun {w r} hw => by
      cases w with
      | nil => simp [text]
      | cons d w =>
        intro c hc
        obtain rfl : d = c := by simpa using hc
        simp [isNonSpace, hw d (List.mem_cons_self ..)]
    have hrun : ∀ {tag : Text}, IsWord tag → ']' ∉ tag →
        ∀ c ∈ tag, (isNonSpace c && c ≠ ']') := fun {tag} hword hclose c hc => by
      have hne : c ≠ ']' := fun heq => hclose (heq ▸ hc)
      simp [hword.2 c hc, hne]
    have htags := congrArg (List.takeWhile fun c => isNonSpace c && c ≠ ']') hbehind
    rw [takeWhile_run (hrun htag' hclose') (hend hw₂'), takeWhile_run (hrun htag hclose) (hend hw₂)]
      at htags
    exact h htags

/-- White space, or the white space behind it, is at the head. -/
theorem IsBlank.head_append (ha : IsBlank a) (hb : ∀ c ∈ b.head?, isSpace c) :
    ∀ c ∈ (a ++ b).head?, isSpace c :=
  Tools.head_append (fun c hc => ha c (List.mem_of_head? hc)) hb

/-- The word a text starts with. -/
theorem takeWhile_word {after : Text} (hname : IsWord name)
    (hafter : ∀ c ∈ after.head?, isSpace c) :
    (name ++ after).takeWhile isNonSpace = name :=
  takeWhile_run hname.2 fun c hc => by simp [isNonSpace, hafter c hc]

/-- A word is read off. -/
theorem dropWhile_word {after : Text} (hname : IsWord name)
    (hafter : ∀ c ∈ after.head?, isSpace c) :
    (name ++ after).dropWhile isNonSpace = after :=
  dropWhile_run hname.2 fun c hc => by simp [isNonSpace, hafter c hc]

/-- **A word behind white space.** -/
theorem wordAfter_eq_some_iff :
    wordAfter rest = some name ↔
      ∃ w after, IsBlank w ∧ w ≠ [] ∧ IsWord name ∧ (∀ c ∈ after.head?, isSpace c) ∧
        rest = w ++ (name ++ after) := by
  constructor
  · intro h
    simp only [wordAfter] at h
    split at h
    · rename_i hrest
      obtain ⟨hspace, hne⟩ := hrest
      obtain rfl := Option.some.inj h
      refine ⟨rest.takeWhile isSpace, (rest.dropWhile isSpace).dropWhile isNonSpace,
        isBlank_takeWhile rest, ?_, ⟨hne, fun _ hc => List.mem_takeWhile_imp hc⟩, ?_, ?_⟩
      · cases rest with
        | nil => simp at hspace
        | cons c rest => simp_all
      · intro c hc
        simpa [isNonSpace] using head_dropWhile c hc
      · rw [List.takeWhile_append_dropWhile, List.takeWhile_append_dropWhile]
    · cases h
  · rintro ⟨w, after, hw, hne, hname, hafter, rfl⟩
    have hhead : (w ++ (name ++ after)).head?.any isSpace := by
      obtain ⟨c, w, rfl⟩ := List.exists_cons_of_ne_nil hne
      exact hw c (List.mem_cons_self ..)
    unfold wordAfter
    rw [dropWhile_blank hw (hname.head after), takeWhile_word hname hafter]
    exact if_pos ⟨hhead, hname.1⟩

/-- The first line, and then the others. -/
theorem printed_cons (line : Text) (ls : List Text) :
    printed (line :: ls) = line ++ newline :: printed ls := by
  simp [printed, newline]

/-- A newline is white space. -/
theorem isSpace_of_newline (h : ∀ c ∈ rest.head?, c = newline) : ∀ c ∈ rest.head?, isSpace c := by
  intro c hc
  obtain rfl := h c hc
  decide

/-- A word has no line end. -/
theorem IsWord.newline_not_mem {word : Text} (h : IsWord word) : newline ∉ word := fun hmem =>
  absurd (h.2 newline hmem) (by decide)

/-- A part of a text that ends with a line end, if anywhere: it ends within a piece
of the text, or it goes on behind the piece. -/
theorem split_cases {x v piece b : Text} (hx : x = [] ∨ x.getLast? = some newline)
    (h : x ++ v = piece ++ b) :
    (∃ z, piece = x ++ z ∧ v = z ++ b) ∨
      ∃ y, x = piece ++ y ∧ y ++ v = b ∧ (y = [] ∨ y.getLast? = some newline) := by
  refine (List.append_eq_append_iff.mp h).imp_right ?_
  rintro ⟨y, rfl, rfl⟩
  refine ⟨y, rfl, rfl, ?_⟩
  cases y with
  | nil => exact .inl rfl
  | cons c y => exact .inr (by simpa using hx)

/-- A piece without a line end is passed whole, or not at all. -/
theorem split_past {x v piece b : Text} (hx : x = [] ∨ x.getLast? = some newline)
    (hpiece : newline ∉ piece) (h : x ++ v = piece ++ b) :
    x = [] ∨ ∃ y, x = piece ++ y ∧ y ++ v = b ∧ y.getLast? = some newline := by
  rcases hx with rfl | hlast
  · exact .inl rfl
  · right
    rcases split_cases (.inr hlast) h with ⟨z, rfl, -⟩ | ⟨y, rfl, hy, rfl | hy'⟩
    · exact absurd (List.mem_append_left _ (List.mem_of_getLast? hlast)) hpiece
    · rw [List.append_nil] at hlast
      exact absurd (List.mem_of_getLast? hlast) hpiece
    · exact ⟨y, rfl, hy, hy'⟩

end

/-! ### The patterns read the same -/

section

variable {before rest t rest' tag : Text} {captures : List Text}

/-- `.*`: a text without a line end. -/
theorem matches_restOfLine :
    (Pattern.many (· ≠ newline)).Matches before rest t rest' captures ↔
      rest = t ++ rest' ∧ newline ∉ t ∧ captures = [] := by
  rw [Pattern.matches_many]
  refine and_congr_right fun _ => and_congr_left fun _ => ⟨fun h hmem => ?_, fun h c hc => ?_⟩
  · simpa using h newline hmem
  · simpa using fun heq : c = newline => h (heq ▸ hc)

/-- **The pattern of a tag.** -/
theorem matches_bracketed :
    (bracketed (.literal tag)).Matches before rest t rest' captures ↔
      IsTag tag t ∧ rest = t ++ rest' ∧ captures = [] := by
  simp only [bracketed, spaces, Pattern.matches_literal_then, Pattern.matches_many_then,
    Pattern.matches_sequence_nil]
  constructor
  · rintro ⟨_, _, rfl, rfl, w₁, _, _, rfl, hw₁, rfl, _, _, rfl, rfl, w₂, _, _, rfl, hw₂, rfl,
      _, _, rfl, rfl, rfl, rfl, rfl⟩
    exact ⟨⟨w₁, w₂, hw₁, hw₂, by simp⟩, by simp, rfl⟩
  · rintro ⟨⟨w₁, w₂, hw₁, hw₂, rfl⟩, rfl, rfl⟩
    refine ⟨_, _, by simp, rfl, w₁, _, _, rfl, hw₁, rfl, _, _, rfl, rfl, w₂, _, _, rfl, hw₂, rfl,
      _, _, rfl, by simp, rfl, rfl, rfl⟩

/-- A choice of tags. -/
theorem matches_bracketed_alt {x y : Pattern Char} :
    (bracketed (.alt x y)).Matches before rest t rest' captures ↔
      (bracketed x).Matches before rest t rest' captures ∨
        (bracketed y).Matches before rest t rest' captures := by
  simp only [bracketed, spaces, Pattern.matches_literal_then, Pattern.matches_many_then,
    Pattern.matches_alt_then, and_or_left, exists_or]

/-- A tag, and what comes behind it. -/
theorem matches_bracketed_then {as : List (Pattern Char)} :
    (Pattern.sequence (bracketed (.literal tag) :: as)).Matches before rest t rest' captures ↔
      ∃ piece r t', IsTag tag piece ∧ rest = piece ++ r ∧ t = piece ++ t' ∧
        (Pattern.sequence as).Matches (piece.reverse ++ before) r t' rest' captures := by
  rw [Pattern.matches_sequence_cons]
  constructor
  · rintro ⟨piece, r, _, t', _, h, has, rfl, rfl⟩
    obtain ⟨hpiece, rfl, rfl⟩ := matches_bracketed.mp h
    exact ⟨piece, r, t', hpiece, rfl, rfl, has⟩
  · rintro ⟨piece, r, t', hpiece, rfl, rfl, has⟩
    exact ⟨piece, r, [], t', captures, matches_bracketed.mpr ⟨hpiece, rfl, rfl⟩, has, rfl, rfl⟩

end

/-! ### Expressions that capture a word -/

/-- **An expression from a line start to a line end that captures one word**, and
what reads the same word off the text without backtracking.  `Is word t` says that
`t` is a text of the expression and `word` the word in it. -/
structure LinePattern (pat : Pattern Char) (Is : Text → Text → Prop)
    (read : Text → Option Text) : Prop where
  matches_iff : ∀ {before rest t rest' captures}, pat.Matches before rest t rest' captures ↔
    (∀ c ∈ before.head?, c = newline) ∧ (∀ c ∈ rest'.head?, c = newline) ∧ rest = t ++ rest' ∧
      ∃ word, captures = [word] ∧ Is word t
  read_append : ∀ {word t rest'}, Is word t → (∀ c ∈ rest'.head?, c = newline) →
    read (t ++ rest') = some word

namespace LinePattern

variable {pat : Pattern Char} {Is : Text → Text → Prop} {read : Text → Option Text}
  {before rest t rest' word source : Text} {o : Outcome Char} {q : Position Char}

/-- A match captures the word that is read. -/
theorem of_matches (h : LinePattern pat Is read)
    (hmatch : pat.Matches before rest o.taken o.rest o.captures) :
    (∀ c ∈ o.rest.head?, c = newline) ∧ Is (Pattern.captured o) o.taken ∧
      read rest = some (Pattern.captured o) := by
  obtain ⟨-, hend, rfl, word, hcaptures, hword⟩ := h.matches_iff.mp hmatch
  have hcaptured : Pattern.captured o = word := by rw [Pattern.captured, hcaptures]; rfl
  rw [hcaptured]
  exact ⟨hend, hword, h.read_append hword hend⟩

/-- **A text of the expression is found** where the expression is tried, with its
word. -/
theorem exists_first (h : LinePattern pat Is read) (hstart : ∀ c ∈ before.head?, c = newline)
    (hend : ∀ c ∈ rest'.head?, c = newline) (hword : Is word t) :
    ∃ o, pat.first before (t ++ rest') = some o ∧ Pattern.captured o = word := by
  obtain ⟨o, ho⟩ := Pattern.exists_first
    (h.matches_iff.mpr ⟨hstart, hend, rfl, word, rfl, hword⟩)
  obtain ⟨-, -, hread⟩ := h.of_matches (Pattern.matches_of_first ho)
  rw [h.read_append hword hend] at hread
  exact ⟨o, ho, (Option.some.inj hread).symm⟩

/-- The word of a match that is found. -/
theorem of_found (h : LinePattern pat Is read)
    (hfound : (q, o) ∈ Pattern.founds (pat.scan source)) :
    (∀ c ∈ o.rest.head?, c = newline) ∧ Is (Pattern.captured o) o.taken ∧
      read q.rest = some (Pattern.captured o) :=
  h.of_matches (Pattern.matches_of_found hfound)

end LinePattern

/-- **An expression that captures one word**, wherever it is tried.  `Is word t` says
that `t` is a text of the expression and `word` the word in it. -/
structure WordPattern (pat : Pattern Char) (Is : Text → Text → Prop) : Prop where
  matches_iff : ∀ {before rest t rest' captures}, pat.Matches before rest t rest' captures ↔
    rest = t ++ rest' ∧ ∃ word, captures = [word] ∧ Is word t

namespace WordPattern

variable {pat : Pattern Char} {Is : Text → Text → Prop} {t word : Text} {o : Outcome Char}

/-- The word of a whole text. -/
theorem of_fullmatch (h : WordPattern pat Is) (ho : pat.fullmatch t = some o) :
    Is (Pattern.captured o) t := by
  obtain ⟨-, word, hcaptures, hword⟩ := h.matches_iff.mp (Pattern.matches_of_fullmatch ho)
  rw [Pattern.captured, hcaptures]
  exact hword

/-- A text that is none of the expression. -/
theorem fullmatch_eq_none (h : WordPattern pat Is) (ht : ∀ word, ¬ Is word t) :
    pat.fullmatch t = none := by
  rw [Option.eq_none_iff_forall_ne_some]
  exact fun o ho => ht _ (h.of_fullmatch ho)

/-- **A text of the expression**, in which only one word can be read. -/
theorem exists_fullmatch (h : WordPattern pat Is) (hword : Is word t)
    (hunique : ∀ word', Is word' t → word' = word) :
    ∃ o, pat.fullmatch t = some o ∧ Pattern.captured o = word := by
  obtain ⟨o, ho⟩ := Pattern.exists_fullmatch
    (h.matches_iff.mpr ⟨(List.append_nil t).symm, word, rfl, hword⟩)
  exact ⟨o, ho, hunique _ (h.of_fullmatch ho)⟩

end WordPattern

end Tools
end GcnPort
