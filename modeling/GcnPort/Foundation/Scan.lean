/-
# Going through a text

`scan` goes through a text from left to right the way `findall` does.  It marks
every position: the pattern is missed there, it is found there, or the position
lies within the text the last match has taken.  What a scan returns and what it
passes over are read off these marks: `findall_eq_filterMap` is for scans that pass
over nothing of interest, and `exists_found_of_passed` gives the match that a
position lies in.
A match that takes nothing is not tried again at its own position, so the
patterns scanned for are meant to take an element.
-/

import GcnPort.Foundation.Pattern
import Mathlib.Data.List.Chain
import Mathlib.Data.List.TakeWhile
import Mathlib.Data.List.Perm.Basic

namespace Foundation

/-- A place in a text; `before` is read backwards. -/
@[ext] structure Position (α : Type*) where
  before : List α
  rest : List α
deriving DecidableEq, Repr

variable {α : Type*} {β : Type*}

namespace Pattern

variable [DecidableEq α]

/-- What a scan makes of a position. -/
inductive Mark (α : Type*) where
  | missed
  | found (o : Outcome α)
  /-- The position lies within what the last match has taken. -/
  | within
deriving DecidableEq, Repr

/-- What is left of the text taken, behind the position. -/
def Mark.pending : Mark α → List α → List α
  | .missed, _ => []
  | .found o, _ => o.taken.tail
  | .within, pending => pending.tail

/-- The mark of a position, `pending` being what is left of the last match. -/
def mark (pat : Pattern α) (before rest : List α) : List α → Mark α
  | [] => (pat.first before rest).elim .missed .found
  | _ :: _ => .within

/-- The marks of a scan that goes on at a place. -/
def marks (pat : Pattern α) : List α → List α → List α → List (Position α × Mark α)
  | before, [], pending => [(⟨before, []⟩, pat.mark before [] pending)]
  | before, c :: rest, pending =>
    (⟨before, c :: rest⟩, pat.mark before (c :: rest) pending) ::
      pat.marks (c :: before) rest ((pat.mark before (c :: rest) pending).pending pending)

/-- The mark of the first position, and then those of the others. -/
theorem marks_cons (pat : Pattern α) (before pending : List α) (c : α) (rest : List α) :
    pat.marks before (c :: rest) pending =
      (⟨before, c :: rest⟩, pat.mark before (c :: rest) pending) ::
        pat.marks (c :: before) rest ((pat.mark before (c :: rest) pending).pending pending) :=
  rfl

/-- The scan of a text. -/
def scan (pat : Pattern α) (text : List α) : List (Position α × Mark α) := pat.marks [] text []

/-- The matches of a scan, each with its place. -/
def founds (ms : List (Position α × Mark α)) : List (Position α × Outcome α) :=
  ms.filterMap fun
    | (q, .found o) => some (q, o)
    | _ => none

/-- The positions that a scan passes over. -/
def passed (ms : List (Position α × Mark α)) : List (Position α) :=
  ms.filterMap fun
    | (q, .within) => some q
    | _ => none

section

variable {q : Position α} {ms : List (Position α × Mark α)}

omit [DecidableEq α]

/-- A position that is missed finds nothing. -/
@[simp] theorem founds_missed : founds ((q, .missed) :: ms) = founds ms := rfl

/-- A position where a match begins finds it. -/
@[simp] theorem founds_found {o : Outcome α} : founds ((q, .found o) :: ms) = (q, o) :: founds ms :=
  rfl

/-- A position within a match finds nothing. -/
@[simp] theorem founds_within : founds ((q, .within) :: ms) = founds ms := rfl

end

/-- The text of the first group. -/
def captured (o : Outcome α) : List α := o.captures.headD []

/-- `findall`, of a pattern with a group. -/
def findall (pat : Pattern α) (text : List α) : List (List α) :=
  (founds (pat.scan text)).map fun f => captured f.2

end Pattern

/-- The positions of a text, from a place on. -/
def positions : List α → List α → List (Position α)
  | before, [] => [⟨before, []⟩]
  | before, c :: rest => ⟨before, c :: rest⟩ :: positions (c :: before) rest

/-- At the end there is one position. -/
theorem positions_nil (before : List α) : positions before [] = [⟨before, []⟩] := rfl

/-- The first position, and then the others. -/
theorem positions_cons (before : List α) (c : α) (rest : List α) :
    positions before (c :: rest) = ⟨before, c :: rest⟩ :: positions (c :: before) rest :=
  rfl

/-- A position splits the text. -/
theorem mem_positions {before rest : List α} {q : Position α} :
    q ∈ positions before rest ↔ ∃ u, rest = u ++ q.rest ∧ q.before = u.reverse ++ before := by
  induction rest generalizing before with
  | nil =>
    rw [positions_nil, List.mem_singleton]
    constructor
    · rintro rfl
      exact ⟨[], rfl, rfl⟩
    · rintro ⟨u, hu, hq⟩
      obtain ⟨rfl, hrest⟩ := List.append_eq_nil_iff.mp hu.symm
      exact Position.ext hq hrest
  | cons c rest ih =>
    rw [positions_cons, List.mem_cons, ih]
    constructor
    · rintro (rfl | ⟨u, rfl, hq⟩)
      · exact ⟨[], rfl, rfl⟩
      · exact ⟨c :: u, rfl, by simp [hq]⟩
    · rintro ⟨_ | ⟨d, u⟩, hu, hq⟩
      · exact .inl (Position.ext hq hu.symm)
      · obtain ⟨rfl, rfl⟩ := List.cons.inj hu
        exact .inr ⟨u, rfl, by simp [hq]⟩

namespace Pattern

variable [DecidableEq α]

/-- `search`: the pattern matches somewhere. -/
def search (pat : Pattern α) (text : List α) : Bool :=
  (positions [] text).any fun q => (pat.first q.before q.rest).isSome

section

variable {pat : Pattern α} {before rest pending text : List α} {q : Position α}

/-- A search that fails has no match anywhere. -/
theorem search_eq_false_iff :
    pat.search text = false ↔ ∀ q ∈ positions [] text, pat.first q.before q.rest = none := by
  rw [show pat.search text = (positions [] text).any
    fun q => (pat.first q.before q.rest).isSome from rfl]
  simp

/-- Every position is marked once. -/
theorem map_fst_marks (pat : Pattern α) (before rest pending : List α) :
    (pat.marks before rest pending).map Prod.fst = positions before rest := by
  induction rest generalizing before pending with
  | nil => rfl
  | cons c rest ih => rw [marks_cons, positions_cons, List.map_cons, ih]

/-- A position is missed where no match covers it and none begins. -/
theorem mark_eq_missed_iff :
    pat.mark before rest pending = .missed ↔ pending = [] ∧ pat.first before rest = none := by
  cases pending with
  | nil =>
    change (pat.first before rest).elim Mark.missed Mark.found = .missed ↔ _
    cases pat.first before rest <;> simp
  | cons d pending => exact ⟨nofun, nofun⟩

/-- A match is found where no other covers the position and the first one begins there. -/
theorem mark_eq_found_iff {o : Outcome α} :
    pat.mark before rest pending = .found o ↔ pending = [] ∧ pat.first before rest = some o := by
  cases pending with
  | nil =>
    change (pat.first before rest).elim Mark.missed Mark.found = .found o ↔ _
    cases pat.first before rest <;> simp
  | cons d pending => exact ⟨nofun, nofun⟩

/-- A position is within a match while something of that match is pending. -/
theorem ne_nil_of_mark_eq_within (h : pat.mark before rest pending = .within) : pending ≠ [] := by
  rintro rfl
  change (pat.first before rest).elim Mark.missed Mark.found = .within at h
  cases hf : pat.first before rest <;> simp [hf] at h

/-- A mark is made from the matches at its position. -/
theorem mark_of_mem {m : Mark α} (h : (q, m) ∈ pat.marks before rest pending) :
    ∃ left, m = pat.mark q.before q.rest left := by
  induction rest generalizing before pending with
  | nil =>
    obtain ⟨rfl, rfl⟩ := Prod.mk.inj (List.mem_singleton.mp h)
    exact ⟨pending, rfl⟩
  | cons c rest ih =>
    rcases List.mem_cons.mp h with h | h
    · obtain ⟨rfl, rfl⟩ := Prod.mk.inj h
      exact ⟨pending, rfl⟩
    · exact ih h

/-- A missed position has no match. -/
theorem first_of_missed (h : (q, .missed) ∈ pat.marks before rest pending) :
    pat.first q.before q.rest = none := by
  obtain ⟨left, h⟩ := mark_of_mem h
  exact (mark_eq_missed_iff.mp h.symm).2

/-- A match that is found is the preferred one. -/
theorem first_of_found {o : Outcome α} (h : (q, .found o) ∈ pat.marks before rest pending) :
    pat.first q.before q.rest = some o := by
  obtain ⟨left, h⟩ := mark_of_mem h
  exact (mark_eq_found_iff.mp h.symm).2

/-- A position within what is pending, or within the text of a match. -/
theorem within_cases (hp : pending <+: rest) (h : (q, .within) ∈ pat.marks before rest pending) :
    (∃ u v, pending = u ++ v ∧ v ≠ [] ∧ rest = u ++ q.rest ∧ q.before = u.reverse ++ before) ∨
    ∃ r o u v, (r, .found o) ∈ pat.marks before rest pending ∧ o.taken = u ++ v ∧ u ≠ [] ∧
      v ≠ [] ∧ r.rest = u ++ q.rest ∧ q.before = u.reverse ++ r.before := by
  induction rest generalizing before pending with
  | nil =>
    obtain rfl := List.prefix_nil.mp hp
    have hm := (Prod.mk.inj (List.mem_singleton.mp h)).2
    exact absurd rfl (ne_nil_of_mark_eq_within hm.symm)
  | cons c rest ih =>
    rw [marks_cons] at h ⊢
    rcases List.mem_cons.mp h with h | h
    · obtain ⟨rfl, hm⟩ := Prod.mk.inj h
      exact .inl ⟨[], pending, rfl, ne_nil_of_mark_eq_within hm.symm, rfl, rfl⟩
    · cases pending with
      | cons d pending =>
        -- the position before is within the match as well
        obtain ⟨rfl, hpending⟩ := List.cons_prefix_cons.mp hp
        have hm : pat.mark before (d :: rest) (d :: pending) = .within := rfl
        rw [hm] at h ⊢
        rcases ih hpending h with ⟨u, v, rfl, hv, rfl, hq⟩ | ⟨r, o, u, v, hr, hrest⟩
        · exact .inl ⟨d :: u, v, rfl, hv, rfl, by simp [hq]⟩
        · exact .inr ⟨r, o, u, v, List.mem_cons_of_mem _ hr, hrest⟩
      | nil =>
        cases hf : pat.first before (c :: rest) with
        | none =>
          have hm : pat.mark before (c :: rest) [] = .missed := mark_eq_missed_iff.mpr ⟨rfl, hf⟩
          rw [hm] at h ⊢
          rcases ih List.nil_prefix h with ⟨u, v, huv, hv, -⟩ | ⟨r, o, u, v, hr, hrest⟩
          · exact absurd (List.append_eq_nil_iff.mp huv.symm).2 hv
          · exact .inr ⟨r, o, u, v, List.mem_cons_of_mem _ hr, hrest⟩
        | some o =>
          have hm : pat.mark before (c :: rest) [] = .found o := mark_eq_found_iff.mpr ⟨rfl, hf⟩
          rw [hm] at h ⊢
          have htaken := (matches_of_first hf).eq_append
          have hp : o.taken.tail <+: rest := by
            rcases ht : o.taken with _ | ⟨d, t⟩
            · exact List.nil_prefix
            · rw [ht, List.cons_append] at htaken
              exact ⟨o.rest, (List.cons.inj htaken).2.symm⟩
          rcases ih hp h with ⟨u, v, huv, hv, rfl, hq⟩ | ⟨r, o, u, v, hr, hrest⟩
          · refine .inr ⟨_, o, c :: u, v, List.mem_cons_self .., ?_, List.cons_ne_nil _ _, hv,
              rfl, by simp [hq]⟩
            rcases ht : o.taken with _ | ⟨d, t⟩
            · rw [ht] at huv
              exact absurd (List.append_eq_nil_iff.mp huv.symm).2 hv
            · rw [ht, List.cons_append] at htaken
              rw [ht, List.tail_cons] at huv
              rw [huv, (List.cons.inj htaken).1, List.cons_append]
          · exact .inr ⟨r, o, u, v, List.mem_cons_of_mem _ hr, hrest⟩

omit [DecidableEq α] in
/-- What was found is marked so. -/
theorem mem_founds {ms : List (Position α × Mark α)} {o : Outcome α} :
    (q, o) ∈ founds ms ↔ (q, .found o) ∈ ms := by
  rw [founds, List.mem_filterMap]
  constructor
  · rintro ⟨⟨r, _ | o' | _⟩, hmem, h⟩
    · cases h
    · cases h
      exact hmem
    · cases h
  · intro h
    exact ⟨_, h, rfl⟩

omit [DecidableEq α] in
/-- What was passed over is marked so. -/
theorem mem_passed {ms : List (Position α × Mark α)} : q ∈ passed ms ↔ (q, .within) ∈ ms := by
  rw [passed, List.mem_filterMap]
  constructor
  · rintro ⟨⟨r, _ | o' | _⟩, hmem, h⟩
    · cases h
    · cases h
    · cases h
      exact hmem
  · intro h
    exact ⟨_, h, rfl⟩

/-- A match that is found. -/
theorem matches_of_found {o : Outcome α} (h : (q, o) ∈ founds (pat.scan text)) :
    pat.Matches q.before q.rest o.taken o.rest o.captures :=
  matches_of_first (first_of_found (mem_founds.mp h))

/-- **A position that is passed over lies within a match.** -/
theorem exists_found_of_passed (h : q ∈ passed (pat.scan text)) :
    ∃ r o u v, (r, o) ∈ founds (pat.scan text) ∧ o.taken = u ++ v ∧ u ≠ [] ∧ v ≠ [] ∧
      r.rest = u ++ q.rest ∧ q.rest = v ++ o.rest ∧ q.before = u.reverse ++ r.before := by
  rcases within_cases List.nil_prefix (mem_passed.mp h) with
    ⟨u, v, huv, hv, -⟩ | ⟨r, o, u, v, hr, htaken, hu, hv, hrest, hbefore⟩
  · exact absurd (List.append_eq_nil_iff.mp huv.symm).2 hv
  · have htext := (matches_of_first (first_of_found hr)).eq_append
    rw [htaken, List.append_assoc, hrest] at htext
    exact ⟨r, o, u, v, mem_founds.mpr hr, htaken, hu, hv, hrest, List.append_cancel_left htext,
      hbefore⟩

/-- **Every position is missed, found or passed over.** -/
theorem position_cases (pat : Pattern α) (h : q ∈ positions [] text) :
    pat.first q.before q.rest = none ∨ (∃ o, (q, o) ∈ founds (pat.scan text)) ∨
      q ∈ passed (pat.scan text) := by
  rw [← map_fst_marks pat [] text [], List.mem_map] at h
  obtain ⟨⟨r, m⟩, hmem, rfl⟩ := h
  cases m with
  | missed => exact .inl (first_of_missed hmem)
  | found o => exact .inr (.inl ⟨o, mem_founds.mpr hmem⟩)
  | within => exact .inr (.inr (mem_passed.mpr hmem))

/-- **What a scan returns where it passes over nothing that is read.**  `name` reads off
every position what the pattern captures there, and nothing where the scan passes. -/
theorem findall_eq_filterMap {name : Position α → Option (List α)}
    (hfirst : ∀ q ∈ positions [] text, (pat.first q.before q.rest).map captured = name q)
    (hpassed : ∀ q ∈ passed (pat.scan text), name q = none) :
    pat.findall text = (positions [] text).filterMap name := by
  have hmarks : ∀ ms : List (Position α × Mark α), (∀ qm ∈ ms, qm ∈ pat.scan text) →
      ((founds ms).map fun f => captured f.2) = (ms.map Prod.fst).filterMap name := by
    intro ms hms
    induction ms with
    | nil => rfl
    | cons qm ms ih =>
      obtain ⟨q, m⟩ := qm
      have ih := ih fun qm h => hms qm (List.mem_cons_of_mem _ h)
      have hmem := hms _ (List.mem_cons_self ..)
      have hq : q ∈ positions [] text := by
        rw [← map_fst_marks pat [] text []]
        exact List.mem_map_of_mem hmem
      cases m with
      | missed =>
        have hname : name q = none := by rw [← hfirst q hq, first_of_missed hmem]; rfl
        simpa [hname] using ih
      | found o =>
        have hname : name q = some (captured o) := by
          rw [← hfirst q hq, first_of_found hmem]
          rfl
        simpa [hname] using ih
      | within =>
        have hname : name q = none := hpassed q (mem_passed.mpr hmem)
        simpa [hname] using ih
  rw [← map_fst_marks pat [] text []]
  exact hmarks _ fun _ h => h

end

end Pattern

/-! ### Lines -/

section

variable [DecidableEq α]

/-- The place is the start of a line. -/
def Position.startsLine (newline : α) (q : Position α) : Bool := q.before.head?.all (· = newline)

/-- The rest of the line. -/
def Position.line (newline : α) (q : Position α) : List α := q.rest.takeWhile (· ≠ newline)

/-- What `read` makes of the line that starts at a place. -/
def Position.atLine (newline : α) (read : List α → Option β) (q : Position α) : Option β :=
  if q.startsLine newline then read (q.line newline) else none

/-- A line is read where it starts. -/
theorem Position.atLine_eq_some_iff {newline : α} {read : List α → Option β} {q : Position α}
    {b : β} :
    q.atLine newline read = some b ↔
      (∀ c ∈ q.before.head?, c = newline) ∧ read (q.line newline) = some b := by
  have hstarts : q.startsLine newline ↔ ∀ c ∈ q.before.head?, c = newline := by
    rw [Position.startsLine]
    cases q.before.head? <;> simp
  rw [Position.atLine, ← hstarts]
  by_cases h : q.startsLine newline
  · simp [h]
  · simp [h]

omit [DecidableEq α] in
/-- What is taken before a line ends with a line end. -/
theorem Position.getLast?_of_startsLine {newline : α} {q : Position α} {u before : List α}
    (hstart : ∀ c ∈ q.before.head?, c = newline) (hu : u ≠ [])
    (hbefore : q.before = u.reverse ++ before) : u.getLast? = some newline := by
  obtain ⟨u, c, rfl⟩ := (List.eq_nil_or_concat u).resolve_left hu
  have hc : c = newline := hstart c (by simp [hbefore])
  simp [hc]

/-- The lines behind the first, one element further. -/
theorem tail_splitOn_cons (newline c : α) (rest : List α) :
    ((c :: rest).splitOn newline).tail =
      if c = newline then rest.splitOn newline else (rest.splitOn newline).tail := by
  rw [List.splitOn, List.splitOnP_cons_eq_if_modifyHead]
  by_cases hc : c = newline
  · simp [hc, List.splitOn]
  · simp [hc, List.splitOn]

/-- The first line goes up to the first line end. -/
theorem splitOn_eq_cons (newline : α) (rest : List α) :
    rest.splitOn newline =
      rest.takeWhile (· ≠ newline) :: (rest.splitOn newline).tail := by
  induction rest with
  | nil => rfl
  | cons c rest ih =>
    rw [tail_splitOn_cons, List.splitOn, List.splitOnP_cons_eq_if_modifyHead, ← List.splitOn]
    by_cases hc : c = newline
    · simp [hc]
    · rw [ih]
      simp [hc]

/-- The line starts from a place on. -/
theorem filterMap_atLine_from (newline : α) (read : List α → Option β) (before rest : List α) :
    (positions before rest).filterMap (Position.atLine newline read) =
      (if before.head?.all (· = newline) then rest.splitOn newline
        else (rest.splitOn newline).tail).filterMap read := by
  induction rest generalizing before with
  | nil =>
    rw [positions, List.filterMap_cons, Position.atLine]
    by_cases hb : before.head?.all (· = newline)
    · simp [Position.startsLine, Position.line, hb, List.filterMap_cons]
    · simp [Position.startsLine, hb]
  | cons c rest ih =>
    rw [positions, List.filterMap_cons, ih, Position.atLine]
    have htail : (if (c :: before).head?.all (· = newline) then rest.splitOn newline
        else (rest.splitOn newline).tail) = ((c :: rest).splitOn newline).tail := by
      rw [tail_splitOn_cons]
      simp
    rw [htail]
    by_cases hb : before.head?.all (· = newline)
    · rw [if_pos hb, splitOn_eq_cons newline (c :: rest), List.filterMap_cons, List.tail_cons]
      simp only [Position.startsLine, hb, if_true, Position.line]
    · simp [Position.startsLine, hb]

/-- **The lines of a text** are what its line starts read. -/
theorem filterMap_atLine (newline : α) (read : List α → Option β) (text : List α) :
    (positions [] text).filterMap (Position.atLine newline read) =
      (text.splitOn newline).filterMap read :=
  filterMap_atLine_from newline read [] text

/-- A line is a part of the text. -/
theorem isInfix_of_mem_splitOn {newline : α} {line text : List α}
    (h : line ∈ text.splitOn newline) : line <:+: text := by
  rw [← List.filterMap_some (l := text.splitOn newline), ← filterMap_atLine,
    List.mem_filterMap] at h
  obtain ⟨q, hq, hline⟩ := h
  obtain ⟨u, rfl, -⟩ := mem_positions.mp hq
  obtain rfl : q.line newline = line :=
    Option.some.inj (Position.atLine_eq_some_iff.mp hline).2
  exact (List.takeWhile_prefix _).isInfix.trans (List.suffix_append u q.rest).isInfix

end

/-! ### Where a run ends -/

/-- A run of a class ends where the class does. -/
theorem takeWhile_run {p : α → Bool} {a b : List α} (ha : ∀ c ∈ a, p c)
    (hb : ∀ c ∈ b.head?, p c = false) : (a ++ b).takeWhile p = a := by
  rw [List.takeWhile_append_of_pos ha]
  cases b with
  | nil => simp
  | cons c b => simp [hb c rfl]

/-- What is dropped of a run is the run. -/
theorem dropWhile_run {p : α → Bool} {a b : List α} (ha : ∀ c ∈ a, p c)
    (hb : ∀ c ∈ b.head?, p c = false) : (a ++ b).dropWhile p = b := by
  rw [List.dropWhile_append_of_pos ha]
  cases b with
  | nil => rfl
  | cons c b => simp [hb c rfl]

/-- A text is split in one way, where neither beginning goes on with what is behind the
other. -/
theorem append_inj_of_head {a b a' b' : List α} (h : a ++ b = a' ++ b')
    (hb : ∀ c ∈ b.head?, c ∉ a') (hb' : ∀ c ∈ b'.head?, c ∉ a) : a = a' ∧ b = b' := by
  rcases List.append_eq_append_iff.mp h with ⟨z, rfl, rfl⟩ | ⟨z, rfl, rfl⟩
  · cases z with
    | nil => exact ⟨(List.append_nil a).symm, rfl⟩
    | cons c z => exact absurd (by simp) (hb c rfl)
  · cases z with
    | nil => exact ⟨List.append_nil a', rfl⟩
    | cons c z => exact absurd (by simp) (hb' c rfl)

/-- Behind a run the class has ended. -/
theorem head_dropWhile {p : α → Bool} {l : List α} : ∀ c ∈ (l.dropWhile p).head?, p c = false := by
  intro c hc
  have := List.head?_dropWhile_not p l
  rwa [Option.mem_def.mp hc] at this

section

variable [DecidableEq α]

/-- A line and what is behind it. -/
theorem Position.rest_eq_line_append (newline : α) (q : Position α) :
    q.rest = q.line newline ++ q.rest.dropWhile (· ≠ newline) :=
  List.takeWhile_append_dropWhile.symm

/-- Behind a line is its end. -/
theorem head_behind_line {newline : α} {rest : List α} :
    ∀ c ∈ (rest.dropWhile (· ≠ newline)).head?, c = newline := fun c hc => by
  simpa using head_dropWhile c hc

end

/-! ### The lines of the positions -/

section

variable [DecidableEq α] {newline : α} {text : List α} {q : Position α}

/-- The lines from a line start on. -/
theorem splitOn_of_startsLine (hq : q ∈ positions [] text)
    (hstart : ∀ c ∈ q.before.head?, c = newline) :
    ∃ ls, text.splitOn newline = ls ++ q.rest.splitOn newline := by
  obtain ⟨u, rfl, hbefore⟩ := mem_positions.mp hq
  rcases List.eq_nil_or_concat u with rfl | ⟨u, c, rfl⟩
  · exact ⟨[], rfl⟩
  · obtain rfl : c = newline := hstart c (by simp [hbefore])
    refine ⟨u.splitOn c, ?_⟩
    rw [List.concat_append, List.splitOn_append_cons_self]

/-- A line start starts a line. -/
theorem Position.line_mem_splitOn (hq : q ∈ positions [] text)
    (hstart : ∀ c ∈ q.before.head?, c = newline) : q.line newline ∈ text.splitOn newline := by
  obtain ⟨ls, hls⟩ := splitOn_of_startsLine hq hstart
  rw [hls, splitOn_eq_cons newline q.rest]
  simp [Position.line]

/-- The line start before a place. -/
theorem Position.exists_lineStart (newline : α) (hq : q ∈ positions [] text) :
    ∃ r ∈ positions [] text, (∀ c ∈ r.before.head?, c = newline) ∧
      ∃ u, newline ∉ u ∧ r.rest = u ++ q.rest ∧ q.before = u.reverse ++ r.before := by
  obtain ⟨u, rfl, hbefore⟩ := mem_positions.mp hq
  rw [List.append_nil] at hbefore
  have hsplit : q.before = q.before.takeWhile (· ≠ newline) ++ q.before.dropWhile (· ≠ newline) :=
    List.takeWhile_append_dropWhile.symm
  have hu : u = (q.before.dropWhile (· ≠ newline)).reverse ++
      (q.before.takeWhile (· ≠ newline)).reverse := by
    rw [← List.reverse_append, ← hsplit, hbefore, List.reverse_reverse]
  refine ⟨⟨q.before.dropWhile (· ≠ newline),
      (q.before.takeWhile (· ≠ newline)).reverse ++ q.rest⟩,
    mem_positions.mpr ⟨(q.before.dropWhile (· ≠ newline)).reverse, ?_, by simp⟩, head_behind_line,
    (q.before.takeWhile (· ≠ newline)).reverse, ?_, rfl, ?_⟩
  · rw [← List.append_assoc, ← hu]
  · intro hmem
    simpa using List.mem_takeWhile_imp (List.mem_reverse.mp hmem)
  · rw [List.reverse_reverse]
    exact hsplit

end

end Foundation
