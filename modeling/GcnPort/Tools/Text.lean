/-
# Text

A Python `str` is the list of its characters.  `joined sep` is
`sep.join(parts)` for a separator of one character; parts that do not hold the
separator can be read back (`joined_inj`).
-/

import Mathlib.Data.List.Infix
import Mathlib.Data.List.Basic
import Mathlib.Tactic.Common

namespace GcnPort
namespace Tools

/-- A `str`. -/
abbrev Text := List Char

/-- The text of a literal. -/
abbrev text (literal : String) : Text := literal.toList

/-- What holds of the characters of a text is checked on the text: there are many
more characters than that. -/
instance (priority := high) decidableForallMem (p : Char → Prop) [DecidablePred p] (t : Text) :
    Decidable (∀ c ∈ t, p c) :=
  List.decidableBAll p t

/-- `sep.join(parts)`. -/
def joined (sep : Char) (parts : List Text) : Text := [sep].intercalate parts

/-- Lines as they are printed, each with its end. -/
def printed (lines : List Text) : Text := lines.flatMap fun line => line ++ ['\n']

/-- Parts without the separator can be read back. -/
theorem joined_inj {sep : Char} {parts parts' : List Text} (hne : parts ≠ [])
    (hne' : parts' ≠ []) (h : ∀ part ∈ parts, sep ∉ part) (h' : ∀ part ∈ parts', sep ∉ part) :
    joined sep parts = joined sep parts' ↔ parts = parts' := by
  constructor
  · intro heq
    have := congrArg (List.splitOn sep) heq
    rwa [joined, joined, List.splitOn_intercalate sep h hne,
      List.splitOn_intercalate sep h' hne'] at this
  · rintro rfl
    rfl

/-- A join ends with its last part. -/
theorem suffix_joined (sep : Char) {parts : List Text} (hne : parts ≠ []) :
    parts.getLast hne <:+ joined sep parts := by
  induction parts with
  | nil => exact absurd rfl hne
  | cons part parts ih =>
    cases parts with
    | nil =>
      rw [joined, List.intercalate_singleton]
      exact List.suffix_refl _
    | cons part' parts =>
      rw [List.getLast_cons (List.cons_ne_nil _ _), joined, List.intercalate_cons_cons]
      exact (ih (List.cons_ne_nil _ _)).trans (List.suffix_append _ _)

/-- A join of two parts or more holds its separator. -/
theorem sep_mem_joined (sep : Char) (part part' : Text) (parts : List Text) :
    sep ∈ joined sep (part :: part' :: parts) := by
  rw [joined, List.intercalate_cons_cons]
  simp

/-- A join holds its separator and what its parts hold. -/
theorem mem_joined {sep c : Char} {parts : List Text} (h : c ∈ joined sep parts) :
    c = sep ∨ ∃ part ∈ parts, c ∈ part := by
  induction parts with
  | nil => cases h
  | cons part parts ih =>
    cases parts with
    | nil =>
      rw [joined, List.intercalate_singleton] at h
      exact .inr ⟨part, List.mem_singleton_self _, h⟩
    | cons part' parts =>
      rw [joined, List.intercalate_cons_cons] at h
      simp only [List.append_assoc, List.mem_append, List.mem_singleton] at h
      rcases h with h | h | h
      · exact .inr ⟨part, List.mem_cons_self .., h⟩
      · exact .inl h
      · refine (ih h).imp_right ?_
        rintro ⟨part'', hpart, hc⟩
        exact ⟨part'', List.mem_cons_of_mem _ hpart, hc⟩

end Tools
end GcnPort
