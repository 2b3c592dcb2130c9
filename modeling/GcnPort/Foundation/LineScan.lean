/-
# Scans, line by line

A pattern that is meant for one line may take more of a text, and `findall` does
not look at what a match has taken.  For a pattern that starts at a line start and
ends at a line end, that is a matter of lines: `LineScan` says which word its match
captures and how many further lines it takes, as functions of the lines from the
match on.  Then `findall` is a reader of lines (`LineScan.findall_eq`): the word of
a line is read with all that is behind the line, and the lines the match takes are
skipped.  Against a reader that looks at every line by itself, it loses the words
of the lines taken and gains those that are broken over lines
(`LineScan.findall_append_perm`).
-/

import GcnPort.Foundation.Scan

namespace Foundation

variable {α : Type*} {β : Type*} {γ : Type*}

/-! ### Readers of lines -/

/-- The lines a reader takes along, where `takes` says how many lines go with the
one it is at, and `n` are still to be taken. -/
def takenLines (takes : List β → ℕ) : ℕ → List β → List β
  | _, [] => []
  | 0, line :: rest => takenLines takes (takes (line :: rest)) rest
  | n + 1, line :: rest => line :: takenLines takes n rest

/-- The lines it looks at, each with all that is behind it. -/
def ownLines (takes : List β → ℕ) : ℕ → List β → List (List β)
  | _, [] => []
  | 0, line :: rest => (line :: rest) :: ownLines takes (takes (line :: rest)) rest
  | n + 1, _ :: rest => ownLines takes n rest

section

variable (takes : List β → ℕ) (line : β) (rest : List β) (n : ℕ)

/-- There is no line to take. -/
@[simp] theorem takenLines_nil : takenLines takes n [] = [] := by cases n <;> rfl

/-- A line that is not taken takes along the lines that it asks for. -/
@[simp] theorem takenLines_zero :
    takenLines takes 0 (line :: rest) = takenLines takes (takes (line :: rest)) rest :=
  rfl

/-- A line that is taken takes nothing itself. -/
@[simp] theorem takenLines_succ :
    takenLines takes (n + 1) (line :: rest) = line :: takenLines takes n rest :=
  rfl

/-- There is no line to read. -/
@[simp] theorem ownLines_nil : ownLines takes n [] = [] := by cases n <;> rfl

/-- A line that is not taken is read on its own. -/
@[simp] theorem ownLines_zero :
    ownLines takes 0 (line :: rest) =
      (line :: rest) :: ownLines takes (takes (line :: rest)) rest :=
  rfl

/-- A line that is taken is not read on its own. -/
@[simp] theorem ownLines_succ :
    ownLines takes (n + 1) (line :: rest) = ownLines takes n rest :=
  rfl

end

/-- A reader that takes no lines along takes none. -/
theorem takenLines_never (ls : List β) : takenLines (fun _ => 0) 0 ls = [] := by
  induction ls with
  | nil => rfl
  | cons line rest ih => exact ih

/-- It looks at every line. -/
theorem mem_ownLines_never {ls rest : List β} :
    rest ∈ ownLines (fun _ => 0) 0 ls ↔ rest <:+ ls ∧ rest ≠ [] := by
  induction ls with
  | nil => simp +contextual
  | cons line ls ih =>
    rw [ownLines_zero, List.mem_cons, ih, List.suffix_cons_iff, or_and_right]
    refine or_congr_left ⟨fun h => ⟨h, h ▸ List.cons_ne_nil _ _⟩, And.left⟩

/-- A line that is looked at comes with all that is behind it. -/
theorem suffix_of_mem_ownLines {takes : List β → ℕ} {n : ℕ} {ls rest : List β}
    (h : rest ∈ ownLines takes n ls) : rest <:+ ls := by
  induction ls generalizing n with
  | nil => simp at h
  | cons line ls ih =>
    cases n with
    | zero =>
      rcases List.mem_cons.mp h with rfl | h
      · exact List.suffix_refl _
      · exact (ih h).trans (List.suffix_cons _ _)
    | succ n => exact (ih h).trans (List.suffix_cons _ _)

/-- What is read at a line, with all that is behind it. -/
def readOn (newline : α) (read : List α → Option γ) (ls : List (List α)) : Option γ :=
  read ([newline].intercalate ls)

/-- What is read at a line and is not on the line: it is broken over lines. -/
def broken (newline : α) (read : List α → Option γ) (ls : List (List α)) : Option γ :=
  ls.head?.bind fun line => if (read line).isNone then readOn newline read ls else none

/-- Behind the first line comes a line end, if anything. -/
theorem exists_intercalate_cons (newline : α) (line : List α) (rest : List (List α)) :
    ∃ after, [newline].intercalate (line :: rest) = line ++ after ∧
      (∀ c ∈ after.head?, c = newline) ∧ (after.head? = some newline ↔ rest ≠ []) := by
  cases rest with
  | nil => exact ⟨[], by simp, by simp, by simp⟩
  | cons next rest =>
    refine ⟨newline :: [newline].intercalate (next :: rest), ?_, by simp, by simp⟩
    rw [List.intercalate_cons_cons]
    simp

/-- A line is read on like the line itself, whatever ends it. -/
def ReadsOn (newline : α) (read : List α → Option γ) : Prop :=
  ∀ (line after : List α) (b : γ), read line = some b → (∀ c ∈ after.head?, c = newline) →
    read (line ++ after) = some b

section

variable {newline : α} {read : List α → Option γ} {takes : List (List α) → ℕ}
  {line : List α} {rest : List (List α)}

/-- What a line says is read there, with all that is behind it. -/
theorem ReadsOn.readOn_cons (h : ReadsOn newline read) {b : γ} (hline : read line = some b) :
    readOn newline read (line :: rest) = some b := by
  obtain ⟨after, hrest, hafter, -⟩ := exists_intercalate_cons newline line rest
  rw [readOn, hrest]
  exact h _ _ _ hline hafter

/-- A line that says something is not broken. -/
theorem broken_cons_of_some {b : γ} (hline : read line = some b) :
    broken newline read (line :: rest) = none := by
  simp [broken, hline]

/-- A line that says nothing is broken, if anything is read there. -/
theorem broken_cons_of_none (hline : read line = none) :
    broken newline read (line :: rest) = readOn newline read (line :: rest) := by
  simp [broken, hline]

/-- **What a reader of lines makes of them**: it reads what the lines say and what is
broken over lines, but for what the lines it takes along say. -/
theorem readOn_append_perm (h : ReadsOn newline read) (n : ℕ) (ls : List (List α)) :
    ((ownLines takes n ls).filterMap (readOn newline read) ++
        (takenLines takes n ls).filterMap read).Perm
      (ls.filterMap read ++ (ownLines takes n ls).filterMap (broken newline read)) := by
  induction ls generalizing n with
  | nil => simp
  | cons line rest ih =>
    cases n with
    | zero =>
      have ih := ih (takes (line :: rest))
      cases hline : read line with
      | none =>
        rw [ownLines_zero, takenLines_zero, List.filterMap_cons_none hline,
          List.filterMap_cons (f := broken newline read), broken_cons_of_none hline]
        cases hon : readOn newline read (line :: rest) with
        | none => simpa [hon] using ih
        | some b => simpa [hon] using (ih.cons b).trans List.perm_middle.symm
      | some b =>
        simpa [hline, h.readOn_cons hline, broken_cons_of_some hline] using ih
    | succ n =>
      rw [ownLines_succ, takenLines_succ]
      cases hline : read line with
      | none => simpa [hline] using ih n
      | some b => simpa [hline] using List.perm_middle.trans ((ih n).cons b)

end

/-! ### The lines from a place on -/

section

variable [DecidableEq α]

/-- The lines that start at a place or behind it. -/
def linesFrom (newline : α) (before rest : List α) : List (List α) :=
  if before.head?.all (· = newline) then rest.splitOn newline else (rest.splitOn newline).tail

/-- The lines behind the first element start in the lines behind the first, or with
the next. -/
theorem linesFrom_cons (newline c : α) (before rest : List α) :
    linesFrom newline (c :: before) rest = ((c :: rest).splitOn newline).tail := by
  rw [tail_splitOn_cons, linesFrom]
  simp

/-- What `read` makes of the text from a place on, if that is a line start. -/
def Position.fromLine (newline : α) (read : List α → Option γ) (q : Position α) : Option γ :=
  if q.startsLine newline then read q.rest else none

/-- What the line starts from a place on read, with all that is behind them. -/
theorem filterMap_fromLine_from (newline : α) (read : List α → Option γ)
    (before rest : List α) :
    (positions before rest).filterMap (Position.fromLine newline read) =
      (ownLines (fun _ => 0) 0 (linesFrom newline before rest)).filterMap
        (readOn newline read) := by
  induction rest generalizing before with
  | nil =>
    by_cases hstart : before.head?.all (· = newline)
    · simp [positions, linesFrom, readOn, Position.fromLine, Position.startsLine, hstart,
        List.filterMap_cons]
    · simp [positions, linesFrom, Position.fromLine, Position.startsLine, hstart]
  | cons c rest ih =>
    rw [positions_cons, List.filterMap_cons, ih, linesFrom_cons]
    by_cases hstart : before.head?.all (· = newline)
    · have hlines := splitOn_eq_cons newline (c :: rest)
      have hreads : readOn newline read ((c :: rest).splitOn newline) = read (c :: rest) := by
        rw [readOn, List.intercalate_splitOn]
      rw [linesFrom, if_pos hstart, hlines, ownLines_zero, ← hlines, List.filterMap_cons, hreads]
      simp [Position.fromLine, Position.startsLine, hstart]
    · simp [linesFrom, Position.fromLine, Position.startsLine, hstart]

/-- **A reader that takes no lines along** looks at every line. -/
theorem filterMap_fromLine (newline : α) (read : List α → Option γ) (text : List α) :
    (positions [] text).filterMap (Position.fromLine newline read) =
      (ownLines (fun _ => 0) 0 (text.splitOn newline)).filterMap (readOn newline read) :=
  filterMap_fromLine_from newline read [] text

end

/-! ### Scans that read lines -/

namespace Pattern

variable [DecidableEq α]

/-- **A pattern that a scan reads lines with.**  `read` reads the word of a match off
the text, and `takes` tells from the lines of the text how many of them the match
takes behind the first. -/
structure LineScan (pat : Pattern α) (newline : α) (read : List α → Option (List α))
    (takes : List (List α) → ℕ) : Prop where
  /-- A match starts at a line start. -/
  starts : ∀ {before rest o}, pat.first before rest = some o →
    before.head?.all (· = newline)
  /-- It takes something, and does not start with a line end. -/
  head_taken : ∀ {before rest o}, pat.first before rest = some o →
    ∃ c ∈ o.taken.head?, c ≠ newline
  /-- It ends at a line end. -/
  ends : ∀ {before rest o}, pat.first before rest = some o → ∀ c ∈ o.rest.head?, c = newline
  /-- The word is the one that is read. -/
  read_first : ∀ {before rest o}, pat.first before rest = some o → read rest = some (captured o)
  /-- The line ends within the match. -/
  takes_first : ∀ {before rest o}, pat.first before rest = some o →
    takes (rest.splitOn newline) = o.taken.count newline
  /-- Where there is no match at a line start, there is nothing to read. -/
  of_none : ∀ {before rest}, before.head?.all (· = newline) → pat.first before rest = none →
    read rest = none ∧ takes (rest.splitOn newline) = 0
  readsOn : ReadsOn newline read

/-- How far a scan is ahead of a place: nowhere, or it has the text `pending` to pass,
which ends a line, and has taken the lines that start within it. -/
def Ahead (newline : α) (before rest pending : List α) (n : ℕ) : Prop :=
  pending = [] ∧ n = 0 ∨
    ∃ after, rest = pending ++ after ∧ (∀ c ∈ after.head?, c = newline) ∧
      n = pending.count newline + if before.head?.all (· = newline) then 1 else 0

section

variable {pat : Pattern α} {newline c : α} {read : List α → Option (List α)}
  {takes : List (List α) → ℕ} {before rest pending after text : List α} {n : ℕ}

/-- A scan that passes an element of a match is ahead by the lines that are left. -/
theorem Ahead.cons (h : rest = pending ++ after) (hafter : ∀ c ∈ after.head?, c = newline) :
    Ahead newline (c :: before) rest pending ((c :: pending).count newline) :=
  .inr ⟨after, h, hafter, by rw [List.count_cons]; simp⟩

namespace LineScan

/-- Nothing matches where the text ends, or at an empty line. -/
theorem first_eq_none (h : LineScan pat newline read takes)
    (hrest : ∀ c ∈ rest.head?, c = newline) : pat.first before rest = none := by
  rw [Option.eq_none_iff_forall_ne_some]
  intro o ho
  obtain ⟨c, hc, hne⟩ := h.head_taken ho
  refine hne (hrest c ?_)
  obtain ⟨t, ht⟩ := List.head?_eq_some_iff.mp (Option.mem_def.mp hc)
  rw [(matches_of_first ho).eq_append, ht]
  rfl

/-- At a place the scan has not passed, it reads on from the line that starts there. -/
theorem founds_step (h : LineScan pat newline read takes)
    (ih : ∀ {before pending n}, Ahead newline before rest pending n →
      ((founds (pat.marks before rest pending)).map fun f => captured f.2) =
        (ownLines takes n (linesFrom newline before rest)).filterMap (readOn newline read)) :
    ((founds (pat.marks before (c :: rest) [])).map fun f => captured f.2) =
      (ownLines takes 0 (linesFrom newline before (c :: rest))).filterMap
        (readOn newline read) := by
  have hlines : (c :: rest).splitOn newline =
      (c :: rest).takeWhile (· ≠ newline) :: ((c :: rest).splitOn newline).tail :=
    splitOn_eq_cons newline (c :: rest)
  have hreads : readOn newline read ((c :: rest).splitOn newline) = read (c :: rest) := by
    rw [readOn, List.intercalate_splitOn]
  rw [marks_cons]
  cases hf : pat.first before (c :: rest) with
  | none =>
    have hm : pat.mark before (c :: rest) [] = .missed := mark_eq_missed_iff.mpr ⟨rfl, hf⟩
    rw [hm, founds_missed]
    refine (ih (.inl ⟨rfl, rfl⟩)).trans ?_
    rw [linesFrom_cons]
    by_cases hstart : before.head?.all (· = newline)
    · obtain ⟨hread, htakes⟩ := h.of_none hstart hf
      rw [linesFrom, if_pos hstart, hlines, ownLines_zero, ← hlines, htakes,
        List.filterMap_cons_none (hreads.trans hread)]
    · rw [linesFrom, if_neg hstart]
  | some o =>
    have hm : pat.mark before (c :: rest) [] = .found o := mark_eq_found_iff.mpr ⟨rfl, hf⟩
    obtain ⟨d, hd, -⟩ := h.head_taken hf
    obtain ⟨t, ht⟩ := List.head?_eq_some_iff.mp (Option.mem_def.mp hd)
    have htext := (matches_of_first hf).eq_append
    rw [ht, List.cons_append] at htext
    obtain ⟨rfl, hrest⟩ := List.cons.inj htext
    rw [hm, founds_found, Mark.pending, ht, List.tail_cons, List.map_cons]
    rw [ih (Ahead.cons hrest (h.ends hf)), linesFrom_cons, linesFrom, if_pos (h.starts hf), hlines,
      ownLines_zero, ← hlines, h.takes_first hf, ht,
      List.filterMap_cons_some (hreads.trans (h.read_first hf))]

/-- The matches of a scan that goes on at a place are read off the lines from there. -/
theorem founds_eq (h : LineScan pat newline read takes)
    (hahead : Ahead newline before rest pending n) :
    ((founds (pat.marks before rest pending)).map fun f => captured f.2) =
      (ownLines takes n (linesFrom newline before rest)).filterMap (readOn newline read) := by
  induction rest generalizing before pending n with
  | nil =>
    have hpending : pending = [] := by
      rcases hahead with ⟨rfl, -⟩ | ⟨after, hrest, -⟩
      · rfl
      · exact (List.append_eq_nil_iff.mp hrest.symm).1
    have hf : pat.first before [] = none := h.first_eq_none (by simp)
    have hm : pat.mark before [] pending = .missed := mark_eq_missed_iff.mpr ⟨hpending, hf⟩
    rw [marks, hm, founds_missed, founds, List.filterMap_nil, List.map_nil]
    by_cases hstart : before.head?.all (· = newline)
    · obtain ⟨hread, -⟩ := h.of_none hstart hf
      have hnil : readOn newline read [[]] = none := by simpa [readOn] using hread
      rw [linesFrom, if_pos hstart]
      cases n with
      | zero => simp [hnil]
      | succ n => simp
    · simp [linesFrom, hstart]
  | cons c rest ih =>
    rcases hahead with ⟨rfl, rfl⟩ | ⟨after, hrest, hafter, rfl⟩
    · exact h.founds_step ih
    · have hlines : ∀ n, (ownLines takes (n + if before.head?.all (· = newline) then 1 else 0)
          (linesFrom newline before (c :: rest))) =
            ownLines takes n ((c :: rest).splitOn newline).tail := fun n => by
        rw [linesFrom]
        split
        · rw [splitOn_eq_cons newline (c :: rest), ownLines_succ, List.tail_cons]
        · rfl
      rw [hlines]
      cases pending with
      | nil =>
        -- an empty line was taken: nothing matches there
        have hf : pat.first before (c :: rest) = none :=
          h.first_eq_none (by rwa [hrest, List.nil_append])
        have hm : pat.mark before (c :: rest) [] = .missed := mark_eq_missed_iff.mpr ⟨rfl, hf⟩
        rw [marks_cons, hm, founds_missed]
        refine (ih (.inl ⟨rfl, rfl⟩)).trans ?_
        rw [linesFrom_cons, List.count_nil]
      | cons d pending =>
        obtain ⟨rfl, htail⟩ := List.cons.inj hrest
        have hm : pat.mark before (c :: rest) (c :: pending) = .within := rfl
        rw [marks_cons, hm, founds_within]
        refine (ih (Ahead.cons htail hafter)).trans ?_
        rw [linesFrom_cons]

/-- **`findall` is a reader of lines**, which skips the lines its matches take. -/
theorem findall_eq (h : LineScan pat newline read takes) (text : List α) :
    pat.findall text =
      (ownLines takes 0 (text.splitOn newline)).filterMap (readOn newline read) :=
  h.founds_eq (.inl ⟨rfl, rfl⟩)

/-- **What `findall` returns against what the lines say**: it loses the words of the
lines its matches take along, and gains the words that are broken over lines. -/
theorem findall_append_perm (h : LineScan pat newline read takes) (text : List α) :
    (pat.findall text ++ (takenLines takes 0 (text.splitOn newline)).filterMap read).Perm
      ((text.splitOn newline).filterMap read ++
        (ownLines takes 0 (text.splitOn newline)).filterMap (broken newline read)) := by
  rw [h.findall_eq]
  exact readOn_append_perm h.readsOn 0 _

end LineScan

end

end Pattern

end Foundation
