/-
# Backtracking patterns

A `Pattern` is a regular expression as a backtracking engine reads it: from a
place in a text, `results` lists the ways it can match, the preferred one first.
`Matches` is membership in that list, with one lemma for each construct.
-/

import Mathlib.Tactic.Common

namespace Foundation

/-- A regular expression. -/
inductive Pattern (α : Type*) where
  /-- The elements of `t`, one after the other. -/
  | literal (t : List α)
  /-- One element of `p`. -/
  | one (p : α → Bool)
  /-- As many elements of `p` as possible, or fewer. -/
  | many (p : α → Bool)
  /-- `a`, then `b`. -/
  | seq (a b : Pattern α)
  /-- `a`, or else `b`. -/
  | alt (a b : Pattern α)
  /-- `a`, or else nothing. -/
  | opt (a : Pattern α)
  /-- `a`, whose text is captured. -/
  | group (a : Pattern α)
  /-- The start of the text, or the place behind an element of `p`. -/
  | lineStart (p : α → Bool)
  /-- The end of the text, or the place before an element of `p`. -/
  | lineEnd (p : α → Bool)
  /-- The end of the text, or the place before a last element of `p`. -/
  | textEnd (p : α → Bool)

/-- One way to match: the text taken, the text left and the texts captured. -/
@[ext] structure Outcome (α : Type*) where
  taken : List α
  rest : List α
  captures : List (List α)
deriving DecidableEq, Repr

variable {α : Type*}

/-- The ways to take elements of `p`, the longest first, with what is left. -/
def runs (p : α → Bool) : List α → List (List α × List α)
  | [] => [([], [])]
  | c :: rest =>
    if p c then
      (runs p rest).map (fun run => (c :: run.1, run.2)) ++ [([], c :: rest)]
    else
      [([], c :: rest)]

/-- A run is a beginning of the text, in the class. -/
theorem mem_runs {p : α → Bool} {rest t rest' : List α} :
    (t, rest') ∈ runs p rest ↔ rest = t ++ rest' ∧ ∀ c ∈ t, p c := by
  induction rest generalizing t with
  | nil =>
    simp only [runs, List.mem_singleton, Prod.mk.injEq, List.nil_eq_append_iff]
    constructor
    · rintro ⟨rfl, rfl⟩
      simp
    · exact And.left
  | cons c rest ih =>
    cases t with
    | nil => grind [runs]
    | cons d t =>
      have hmap : (d :: t, rest') ∈ (runs p rest).map (fun run => (c :: run.1, run.2)) ↔
          c = d ∧ (t, rest') ∈ runs p rest := by
        grind
      grind [runs]

namespace Pattern

variable [DecidableEq α]

/-- **The ways a pattern matches** at a place, the preferred one first. -/
@[simp] def results : Pattern α → List α → List α → List (Outcome α)
  | literal t, _, rest => if t.isPrefixOf rest then [⟨t, rest.drop t.length, []⟩] else []
  | one _, _, [] => []
  | one p, _, c :: rest => if p c then [⟨[c], rest, []⟩] else []
  | many p, _, rest => (runs p rest).map fun run => ⟨run.1, run.2, []⟩
  | seq a b, before, rest =>
    (a.results before rest).flatMap fun o =>
      (b.results (o.taken.reverse ++ before) o.rest).map fun o' =>
        ⟨o.taken ++ o'.taken, o'.rest, o.captures ++ o'.captures⟩
  | alt a b, before, rest => a.results before rest ++ b.results before rest
  | opt a, before, rest => a.results before rest ++ [⟨[], rest, []⟩]
  | group a, before, rest =>
    (a.results before rest).map fun o => ⟨o.taken, o.rest, o.taken :: o.captures⟩
  | lineStart p, before, rest => if before.head?.all p then [⟨[], rest, []⟩] else []
  | lineEnd p, _, rest => if rest.head?.all p then [⟨[], rest, []⟩] else []
  | textEnd p, _, rest => if rest.tail = [] ∧ rest.head?.all p then [⟨[], rest, []⟩] else []

/-- Elements of `p`, as many as possible but one at least. -/
def atLeastOne (p : α → Bool) : Pattern α := .seq (.one p) (.many p)

/-- One pattern after the other. -/
def sequence : List (Pattern α) → Pattern α
  | [] => .literal []
  | a :: as => .seq a (sequence as)

/-- The match that is preferred. -/
def first (pat : Pattern α) (before rest : List α) : Option (Outcome α) :=
  (pat.results before rest).head?

/-- `fullmatch`: the preferred match of a whole text. -/
def fullmatch (pat : Pattern α) (text : List α) : Option (Outcome α) :=
  (pat.results [] text).find? (·.rest.isEmpty)

/-- The pattern can match at a place, take `t` and leave `rest'`. -/
def Matches (pat : Pattern α) (before rest t rest' : List α) (captures : List (List α)) : Prop :=
  ⟨t, rest', captures⟩ ∈ pat.results before rest

/-! ### What each construct matches -/

section

variable {pat a b : Pattern α} {p : α → Bool} {before rest t u rest' : List α}
  {captures : List (List α)}

/-- A match is one of the results. -/
theorem matches_iff :
    pat.Matches before rest t rest' captures ↔ ⟨t, rest', captures⟩ ∈ pat.results before rest :=
  Iff.rfl

/-- What a literal matches. -/
theorem matches_literal :
    (literal u).Matches before rest t rest' captures ↔
      rest = u ++ rest' ∧ t = u ∧ captures = [] := by
  rw [matches_iff, results]
  split
  · rename_i h
    obtain ⟨r, rfl⟩ := List.isPrefixOf_iff_prefix.mp h
    grind
  · rename_i h
    have : ¬ u <+: rest := fun hu => h (List.isPrefixOf_iff_prefix.mpr hu)
    grind

/-- What a single element matches. -/
theorem matches_one :
    (one p).Matches before rest t rest' captures ↔
      ∃ c, p c ∧ rest = c :: rest' ∧ t = [c] ∧ captures = [] := by
  cases rest with
  | nil => simp [matches_iff]
  | cons c rest =>
    rw [matches_iff, results]
    grind

/-- What a greedy repetition matches, among other lengths. -/
theorem matches_many :
    (many p).Matches before rest t rest' captures ↔
      rest = t ++ rest' ∧ (∀ c ∈ t, p c) ∧ captures = [] := by
  rw [matches_iff, results, List.mem_map]
  constructor
  · rintro ⟨⟨t', r⟩, hrun, h⟩
    cases h
    obtain ⟨h, hp⟩ := mem_runs.mp hrun
    exact ⟨h, hp, rfl⟩
  · rintro ⟨h, hp, rfl⟩
    exact ⟨(t, rest'), mem_runs.mpr ⟨h, hp⟩, rfl⟩

/-- What one pattern and then another match. -/
theorem matches_seq :
    (seq a b).Matches before rest t rest' captures ↔
      ∃ t₁ r cs₁ t₂ cs₂, a.Matches before rest t₁ r cs₁ ∧
        b.Matches (t₁.reverse ++ before) r t₂ rest' cs₂ ∧
        t = t₁ ++ t₂ ∧ captures = cs₁ ++ cs₂ := by
  simp only [matches_iff, results, List.mem_flatMap, List.mem_map, Outcome.mk.injEq]
  constructor
  · rintro ⟨o, ho, o', ho', rfl, rfl, rfl⟩
    exact ⟨_, _, _, _, _, ho, ho', rfl, rfl⟩
  · rintro ⟨t₁, r, cs₁, t₂, cs₂, ha, hb, rfl, rfl⟩
    exact ⟨_, ha, _, hb, rfl, rfl, rfl⟩

/-- What one pattern or another matches. -/
theorem matches_alt :
    (alt a b).Matches before rest t rest' captures ↔
      a.Matches before rest t rest' captures ∨ b.Matches before rest t rest' captures := by
  rw [matches_iff, results, List.mem_append]
  rfl

/-- What an optional pattern matches. -/
theorem matches_opt :
    (opt a).Matches before rest t rest' captures ↔
      a.Matches before rest t rest' captures ∨ rest = rest' ∧ t = [] ∧ captures = [] := by
  rw [matches_iff, results, List.mem_append, List.mem_singleton, Outcome.mk.injEq]
  exact or_congr_right (by grind)

/-- What a group matches, and that it captures that. -/
theorem matches_group :
    (group a).Matches before rest t rest' captures ↔
      ∃ cs, a.Matches before rest t rest' cs ∧ captures = t :: cs := by
  simp only [matches_iff, results, List.mem_map, Outcome.mk.injEq]
  constructor
  · rintro ⟨o, ho, rfl, rfl, rfl⟩
    exact ⟨_, ho, rfl⟩
  · rintro ⟨cs, ha, rfl⟩
    exact ⟨_, ha, rfl, rfl, rfl⟩

/-- Where a line starts. -/
theorem matches_lineStart :
    (lineStart p).Matches before rest t rest' captures ↔
      (∀ c ∈ before.head?, p c) ∧ rest = rest' ∧ t = [] ∧ captures = [] := by
  rw [matches_iff, results]
  cases before <;> grind

/-- Where a line ends. -/
theorem matches_lineEnd :
    (lineEnd p).Matches before rest t rest' captures ↔
      (∀ c ∈ rest.head?, p c) ∧ rest = rest' ∧ t = [] ∧ captures = [] := by
  rw [matches_iff, results]
  cases rest <;> grind

/-- Where the text ends, or its last line does. -/
theorem matches_textEnd :
    (textEnd p).Matches before rest t rest' captures ↔
      (∀ c ∈ rest.head?, p c) ∧ rest.tail = [] ∧ rest = rest' ∧ t = [] ∧ captures = [] := by
  rw [matches_iff, results]
  cases rest <;> grind

/-- No pattern at all matches nothing. -/
theorem matches_sequence_nil :
    (sequence []).Matches before rest t rest' captures ↔
      rest = rest' ∧ t = [] ∧ captures = [] :=
  matches_literal

/-- What the first of some patterns matches, and then the others. -/
theorem matches_sequence_cons {as : List (Pattern α)} :
    (sequence (a :: as)).Matches before rest t rest' captures ↔
      ∃ t₁ r cs₁ t₂ cs₂, a.Matches before rest t₁ r cs₁ ∧
        (sequence as).Matches (t₁.reverse ++ before) r t₂ rest' cs₂ ∧
        t = t₁ ++ t₂ ∧ captures = cs₁ ++ cs₂ :=
  matches_seq

/-- A repetition takes a run that is not empty. -/
theorem matches_atLeastOne :
    (atLeastOne p).Matches before rest t rest' captures ↔
      rest = t ++ rest' ∧ (∀ c ∈ t, p c) ∧ t ≠ [] ∧ captures = [] := by
  simp only [atLeastOne, matches_seq, matches_one, matches_many]
  constructor
  · rintro ⟨_, r, _, t₂, _, ⟨c, hc, rfl, rfl, rfl⟩, ⟨rfl, ht, rfl⟩, rfl, rfl⟩
    exact ⟨rfl, by simpa [hc] using ht, by simp, rfl⟩
  · rintro ⟨rfl, ht, hne, rfl⟩
    obtain ⟨c, t, rfl⟩ := List.exists_cons_of_ne_nil hne
    have hc : p c := ht c (List.mem_cons_self ..)
    have ht : ∀ d ∈ t, p d := fun d hd => ht d (List.mem_cons_of_mem _ hd)
    exact ⟨[c], t ++ rest', [], t, [], ⟨c, hc, rfl, rfl, rfl⟩, ⟨rfl, ht, rfl⟩, rfl, rfl⟩

/-! In a sequence, one piece after the other. -/

/-- A literal, and then what follows it. -/
theorem matches_literal_then {as : List (Pattern α)} :
    (sequence (literal u :: as)).Matches before rest t rest' captures ↔
      ∃ r t', rest = u ++ r ∧ t = u ++ t' ∧
        (sequence as).Matches (u.reverse ++ before) r t' rest' captures := by
  rw [matches_sequence_cons]
  constructor
  · rintro ⟨_, r, _, t', _, h, has, rfl, rfl⟩
    obtain ⟨rfl, rfl, rfl⟩ := matches_literal.mp h
    exact ⟨r, t', rfl, rfl, has⟩
  · rintro ⟨r, t', rfl, rfl, has⟩
    exact ⟨u, r, [], t', captures, matches_literal.mpr ⟨rfl, rfl, rfl⟩, has, rfl, rfl⟩

/-- A repetition, and then what follows it. -/
theorem matches_many_then {as : List (Pattern α)} :
    (sequence (many p :: as)).Matches before rest t rest' captures ↔
      ∃ w r t', rest = w ++ r ∧ (∀ c ∈ w, p c) ∧ t = w ++ t' ∧
        (sequence as).Matches (w.reverse ++ before) r t' rest' captures := by
  rw [matches_sequence_cons]
  constructor
  · rintro ⟨w, r, _, t', _, h, has, rfl, rfl⟩
    obtain ⟨rfl, hw, rfl⟩ := matches_many.mp h
    exact ⟨w, r, t', rfl, hw, rfl, has⟩
  · rintro ⟨w, r, t', rfl, hw, rfl, has⟩
    exact ⟨w, r, [], t', captures, matches_many.mpr ⟨rfl, hw, rfl⟩, has, rfl, rfl⟩

/-- A repetition of one at least, and then what follows it. -/
theorem matches_atLeastOne_then {as : List (Pattern α)} :
    (sequence (atLeastOne p :: as)).Matches before rest t rest' captures ↔
      ∃ w r t', rest = w ++ r ∧ (∀ c ∈ w, p c) ∧ w ≠ [] ∧ t = w ++ t' ∧
        (sequence as).Matches (w.reverse ++ before) r t' rest' captures := by
  rw [matches_sequence_cons]
  constructor
  · rintro ⟨w, r, _, t', _, h, has, rfl, rfl⟩
    obtain ⟨rfl, hw, hne, rfl⟩ := matches_atLeastOne.mp h
    exact ⟨w, r, t', rfl, hw, hne, rfl, has⟩
  · rintro ⟨w, r, t', rfl, hw, hne, rfl, has⟩
    exact ⟨w, r, [], t', captures, matches_atLeastOne.mpr ⟨rfl, hw, hne, rfl⟩, has, rfl, rfl⟩

/-- A captured run. -/
theorem matches_captured_then {as : List (Pattern α)} :
    (sequence (group (atLeastOne p) :: as)).Matches before rest t rest' captures ↔
      ∃ w r t' cs, rest = w ++ r ∧ (∀ c ∈ w, p c) ∧ w ≠ [] ∧ t = w ++ t' ∧ captures = w :: cs ∧
        (sequence as).Matches (w.reverse ++ before) r t' rest' cs := by
  rw [matches_sequence_cons]
  constructor
  · rintro ⟨w, r, _, t', cs, h, has, rfl, rfl⟩
    obtain ⟨_, hrun, rfl⟩ := matches_group.mp h
    obtain ⟨rfl, hw, hne, rfl⟩ := matches_atLeastOne.mp hrun
    exact ⟨w, r, t', cs, rfl, hw, hne, rfl, rfl, has⟩
  · rintro ⟨w, r, t', cs, rfl, hw, hne, rfl, rfl, has⟩
    refine ⟨w, r, [w], t', cs, matches_group.mpr ⟨[], ?_, rfl⟩, has, rfl, rfl⟩
    exact matches_atLeastOne.mpr ⟨rfl, hw, hne, rfl⟩

/-- An alternative, and then what follows it. -/
theorem matches_alt_then {as : List (Pattern α)} :
    (sequence (alt a b :: as)).Matches before rest t rest' captures ↔
      (sequence (a :: as)).Matches before rest t rest' captures ∨
        (sequence (b :: as)).Matches before rest t rest' captures := by
  simp only [matches_sequence_cons, matches_alt, or_and_right, exists_or]

/-- The start of a line, and then what follows it. -/
theorem matches_lineStart_then {as : List (Pattern α)} :
    (sequence (lineStart p :: as)).Matches before rest t rest' captures ↔
      (∀ c ∈ before.head?, p c) ∧ (sequence as).Matches before rest t rest' captures := by
  rw [matches_sequence_cons]
  constructor
  · rintro ⟨_, r, _, t', _, h, has, rfl, rfl⟩
    obtain ⟨hstart, rfl, rfl, rfl⟩ := matches_lineStart.mp h
    exact ⟨hstart, has⟩
  · rintro ⟨hstart, has⟩
    exact ⟨[], rest, [], t, captures, matches_lineStart.mpr ⟨hstart, rfl, rfl, rfl⟩, has, rfl, rfl⟩

/-- The end of a line ends the match. -/
theorem matches_lineEnd_last :
    (sequence [lineEnd p]).Matches before rest t rest' captures ↔
      (∀ c ∈ rest.head?, p c) ∧ rest = rest' ∧ t = [] ∧ captures = [] := by
  rw [matches_sequence_cons]
  constructor
  · rintro ⟨_, r, _, t', _, h, has, rfl, rfl⟩
    obtain ⟨hend, rfl, rfl, rfl⟩ := matches_lineEnd.mp h
    obtain ⟨rfl, rfl, rfl⟩ := matches_sequence_nil.mp has
    exact ⟨hend, rfl, rfl, rfl⟩
  · rintro ⟨hend, rfl, rfl, rfl⟩
    exact ⟨[], rest, [], [], [], matches_lineEnd.mpr ⟨hend, rfl, rfl, rfl⟩,
      matches_sequence_nil.mpr ⟨rfl, rfl, rfl⟩, rfl, rfl⟩

/-- **What a match takes is the beginning of the text.** -/
theorem Matches.eq_append (h : pat.Matches before rest t rest' captures) : rest = t ++ rest' := by
  induction pat generalizing before rest t rest' captures with
  | literal u =>
    obtain ⟨rfl, rfl, -⟩ := matches_literal.mp h
    rfl
  | one p =>
    obtain ⟨c, -, rfl, rfl, -⟩ := matches_one.mp h
    rfl
  | many p => exact (matches_many.mp h).1
  | seq a b iha ihb =>
    obtain ⟨t₁, r, cs₁, t₂, cs₂, ha, hb, rfl, -⟩ := matches_seq.mp h
    rw [iha ha, ihb hb, List.append_assoc]
  | alt a b iha ihb =>
    rcases matches_alt.mp h with h | h
    · exact iha h
    · exact ihb h
  | opt a ih =>
    rcases matches_opt.mp h with h | ⟨rfl, rfl, -⟩
    · exact ih h
    · rfl
  | group a ih =>
    obtain ⟨cs, ha, -⟩ := matches_group.mp h
    exact ih ha
  | lineStart p =>
    obtain ⟨-, rfl, rfl, -⟩ := matches_lineStart.mp h
    rfl
  | lineEnd p =>
    obtain ⟨-, rfl, rfl, -⟩ := matches_lineEnd.mp h
    rfl
  | textEnd p =>
    obtain ⟨-, -, rfl, rfl, -⟩ := matches_textEnd.mp h
    rfl

/-- The preferred match is one of the ways to match. -/
theorem matches_of_first {o : Outcome α} (h : pat.first before rest = some o) :
    pat.Matches before rest o.taken o.rest o.captures :=
  List.mem_of_head? h

/-- A pattern that can match has a preferred match. -/
theorem exists_first (h : pat.Matches before rest t rest' captures) :
    ∃ o, pat.first before rest = some o :=
  Option.isSome_iff_exists.mp (List.isSome_head?.mpr (List.ne_nil_of_mem h))

/-- The preferred match of a sequence goes on with the preferred match of what comes
behind its first part. -/
theorem first_sequence_cons {as : List (Pattern α)} {o : Outcome α}
    (h : (sequence (a :: as)).first before rest = some o) :
    ∃ t r cs o', a.Matches before rest t r cs ∧
      (sequence as).first (t.reverse ++ before) r = some o' ∧
      o = ⟨t ++ o'.taken, o'.rest, cs ++ o'.captures⟩ := by
  rw [first, sequence, results, List.head?_flatMap] at h
  obtain ⟨⟨t, r, cs⟩, ha, h⟩ := List.exists_of_findSome?_eq_some h
  rw [List.head?_map, Option.map_eq_some_iff] at h
  obtain ⟨o', ho', rfl⟩ := h
  exact ⟨t, r, cs, o', ha, ho', rfl⟩

/-- An option is taken where the rest can match behind it. -/
theorem first_opt_then {as : List (Pattern α)} :
    (sequence (opt a :: as)).first before rest =
      ((sequence (a :: as)).first before rest).or ((sequence as).first before rest) := by
  simp only [first, sequence, results, List.flatMap_append, List.flatMap_singleton,
    List.head?_append]
  simp

/-- A match of a whole text takes it whole. -/
theorem matches_of_fullmatch {o : Outcome α} (h : pat.fullmatch t = some o) :
    pat.Matches [] t t [] o.captures := by
  have hmatch : pat.Matches [] t o.taken o.rest o.captures := List.mem_of_find?_eq_some h
  have hrest : o.rest = [] := by simpa using List.find?_some h
  have htaken := hmatch.eq_append
  rw [hrest, List.append_nil] at htaken
  rwa [hrest, ← htaken] at hmatch

/-- A pattern that can match a whole text does. -/
theorem exists_fullmatch (h : pat.Matches [] t t [] captures) : ∃ o, pat.fullmatch t = some o :=
  Option.isSome_iff_exists.mp (List.find?_isSome.mpr ⟨_, h, rfl⟩)

end

end Pattern

end Foundation
