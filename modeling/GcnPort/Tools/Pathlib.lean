/-
# Paths

What the tools use of `pathlib`, in its two flavours.  A component of a path is
a name that is not empty and holds none of the separators of its flavour, so the
text of a path can be read back, and no text of a Windows path that has a
backslash is also the `as_posix` text of one (`backslash_not_mem_asPosix`).

A Windows path compares its components after `str.lower`, which is a parameter
here: nothing is assumed of it.
-/

import GcnPort.Tools.Text

namespace GcnPort
namespace Tools

/-- `PurePosixPath` or `PureWindowsPath`. -/
inductive Flavour where
  | posix
  | windows
deriving DecidableEq, Repr

namespace Flavour

/-- `sep` of the flavour. -/
def sep : Flavour → Char
  | .posix => '/'
  | .windows => '\\'

/-- A character that no component holds: `sep`, or `altsep`. -/
def isSeparator : Flavour → Char → Bool
  | .posix, c => c = '/'
  | .windows, c => c = '\\' ∨ c = '/'

/-- What a component is compared by. -/
def normcase (lower : Text → Text) : Flavour → Text → Text
  | .posix, name => name
  | .windows, name => lower name

/-- A slash is a separator on every host. -/
theorem isSeparator_slash (flavour : Flavour) : flavour.isSeparator '/' = true := by
  cases flavour <;> rfl

end Flavour

/-- A component of a path; a `.` is dropped when a path is parsed. -/
structure Component (flavour : Flavour) where
  name : Text
  nonempty : name ≠ []
  ne_dot : name ≠ ['.']
  plain : ∀ c ∈ name, flavour.isSeparator c = false

/-- A component is its name. -/
@[ext] theorem Component.ext {flavour : Flavour} {p q : Component flavour}
    (h : p.name = q.name) : p = q := by
  cases p; cases q; cases h; rfl

instance {flavour : Flavour} : DecidableEq (Component flavour) := fun p q =>
  decidable_of_iff (p.name = q.name) ⟨Component.ext, congrArg Component.name⟩

/-- A relative path. -/
structure RelativePath (flavour : Flavour) where
  parts : List (Component flavour)
deriving DecidableEq

/-- An absolute path. -/
structure AbsolutePath (flavour : Flavour) where
  anchor : Text
  parts : List (Component flavour)
deriving DecidableEq

/-- `PurePath.suffix` of a name: from its last dot on, if that is neither its
first nor its last character. -/
def suffix (name : Text) : Text :=
  let extension := name.reverse.takeWhile (· ≠ '.')
  let stem := name.reverse.dropWhile (· ≠ '.')
  if stem.length ≤ 1 ∨ extension = [] then [] else '.' :: extension.reverse

/-- A name ends with its suffix. -/
theorem suffix_suffix (name : Text) : suffix name <:+ name := by
  have hsplit : name.reverse.takeWhile (· ≠ '.') ++ name.reverse.dropWhile (· ≠ '.') =
      name.reverse := List.takeWhile_append_dropWhile
  have hdot := List.head?_dropWhile_not (fun c : Char => decide (c ≠ '.')) name.reverse
  unfold suffix
  generalize name.reverse.takeWhile (· ≠ '.') = extension at hsplit ⊢
  generalize name.reverse.dropWhile (· ≠ '.') = stem at hsplit hdot ⊢
  show (if stem.length ≤ 1 ∨ extension = [] then [] else '.' :: extension.reverse) <:+ name
  split_ifs with h
  · exact List.nil_suffix
  · cases stem with
    | nil => simp at h
    | cons c stem =>
      obtain rfl : c = '.' := by simpa using hdot
      refine ⟨stem.reverse, ?_⟩
      rw [← List.reverse_reverse name, ← hsplit]
      simp

namespace RelativePath

variable {flavour : Flavour} {p q : RelativePath flavour}

/-- The names of a path, with `sep` between them. -/
def render (sep : Char) (p : RelativePath flavour) : Text :=
  if p.parts = [] then ['.'] else joined sep (p.parts.map Component.name)

/-- `str(path)`. -/
def str (p : RelativePath flavour) : Text := p.render flavour.sep

/-- `path.as_posix()`. -/
def asPosix (p : RelativePath flavour) : Text := p.render '/'

/-- `path.suffix`. -/
def suffix (p : RelativePath flavour) : Text :=
  match p.parts.getLast? with
  | none => []
  | some last => Tools.suffix last.name

/-- A path is its components. -/
@[ext] theorem ext (h : p.parts = q.parts) : p = q := by
  cases p; cases q; cases h; rfl

/-- Components with the same names are the same. -/
theorem map_name_inj {parts parts' : List (Component flavour)} :
    parts.map Component.name = parts'.map Component.name ↔ parts = parts' :=
  (List.map_injective_iff.2 fun _ _ => Component.ext).eq_iff

/-- No component holds a separator. -/
theorem not_mem_of_isSeparator {sep : Char} (hsep : flavour.isSeparator sep = true)
    {part : Text} (hpart : part ∈ p.parts.map Component.name) : sep ∉ part := by
  obtain ⟨c, -, rfl⟩ := List.mem_map.1 hpart
  intro hmem
  have := c.plain _ hmem
  rw [hsep] at this
  cases this

/-- The text of a path that has components is not the text of the one that has
none. -/
theorem joined_ne_dot (h : p.parts ≠ []) : joined '/' (p.parts.map Component.name) ≠ ['.'] := by
  intro hdot
  have hne : p.parts.map Component.name ≠ [] := fun hnil => h (List.map_eq_nil_iff.1 hnil)
  rw [show ['.'] = ['/'].intercalate [['.']] from List.intercalate_singleton.symm] at hdot
  have hparts := (joined_inj hne (List.cons_ne_nil _ _)
    (fun part => not_mem_of_isSeparator flavour.isSeparator_slash)
    (fun part hpart => by rw [List.mem_singleton.1 hpart]; decide)).1 hdot
  obtain ⟨c, hc, hname⟩ := List.mem_map.1 (hparts ▸ List.mem_singleton_self ['.'])
  exact c.ne_dot hname

/-- **A path can be read back** from its `as_posix` text. -/
theorem asPosix_inj : p.asPosix = q.asPosix ↔ p = q := by
  refine ⟨fun h => ?_, congrArg asPosix⟩
  unfold asPosix render at h
  split_ifs at h with hp hq hq
  · exact ext (hp.trans hq.symm)
  · exact absurd h.symm (joined_ne_dot hq)
  · exact absurd h (joined_ne_dot hp)
  · have hne (r : RelativePath flavour) (hr : r.parts ≠ []) : r.parts.map Component.name ≠ [] :=
      fun hnil => hr (List.map_eq_nil_iff.1 hnil)
    refine ext (map_name_inj.1 ((joined_inj (hne p hp) (hne q hq) ?_ ?_).1 h))
    · exact fun part => not_mem_of_isSeparator flavour.isSeparator_slash
    · exact fun part => not_mem_of_isSeparator flavour.isSeparator_slash

/-- On POSIX, `str` is `as_posix`. -/
theorem str_posix (p : RelativePath .posix) : p.str = p.asPosix := rfl

/-- The text of a path ends with its suffix. -/
theorem suffix_suffix_str (p : RelativePath flavour) : p.suffix <:+ p.str := by
  unfold suffix str render
  split
  · exact List.nil_suffix
  · rename_i last hlast
    obtain ⟨parts, hparts⟩ := List.getLast?_eq_some_iff.1 hlast
    have hne : p.parts.map Component.name ≠ [] := by simp [hparts]
    have hname : (p.parts.map Component.name).getLast hne = last.name := by simp [hparts]
    rw [if_neg (by simp [hparts])]
    have := suffix_joined flavour.sep hne
    rw [hname] at this
    exact (Tools.suffix_suffix _).trans this

/-- The text of a path with a directory in it holds the separator. -/
theorem sep_mem_str (h : 2 ≤ p.parts.length) : flavour.sep ∈ p.str := by
  unfold str render
  match hparts : p.parts with
  | [] | [_] => simp [hparts] at h
  | c :: c' :: parts => exact sep_mem_joined _ _ _ _

/-- No `as_posix` text of a Windows path holds a backslash. -/
theorem backslash_not_mem_asPosix (p : RelativePath .windows) : '\\' ∉ p.asPosix := by
  unfold asPosix render
  split_ifs with hp
  · decide
  · intro hmem
    rcases mem_joined hmem with h | ⟨part, hpart, h⟩
    · cases h
    · exact not_mem_of_isSeparator rfl hpart h

end RelativePath

namespace AbsolutePath

variable {flavour : Flavour}

/-- The components of a path as they are compared. -/
def normParts (lower : Text → Text) (p : AbsolutePath flavour) : List Text :=
  p.parts.map fun c => flavour.normcase lower c.name

/-- `path == other`. -/
def Same (lower : Text → Text) (p q : AbsolutePath flavour) : Prop :=
  flavour.normcase lower p.anchor = flavour.normcase lower q.anchor ∧
    p.normParts lower = q.normParts lower

/-- `path.relative_to(root)`, or `none` where `path.is_relative_to(root)` is
false. -/
def relativeTo (lower : Text → Text) (p root : AbsolutePath flavour) :
    Option (RelativePath flavour) :=
  if flavour.normcase lower p.anchor = flavour.normcase lower root.anchor ∧
      root.normParts lower <+: p.normParts lower then
    some ⟨p.parts.drop root.parts.length⟩
  else
    none

/-- `root / path`. -/
def join (root : AbsolutePath flavour) (p : RelativePath flavour) : AbsolutePath flavour :=
  ⟨root.anchor, root.parts ++ p.parts⟩

/-- `str(path)`. -/
def str (p : AbsolutePath flavour) : Text :=
  p.anchor ++ joined flavour.sep (p.parts.map Component.name)

/-- On POSIX a path is at `p` under `root` exactly if it is the path `root / p`. -/
theorem relativeTo_posix_eq_some_iff {lower : Text → Text} {root p : AbsolutePath .posix}
    {r : RelativePath .posix} :
    p.relativeTo lower root = some r ↔ p.Same lower (root.join r) := by
  have hnames (q : AbsolutePath .posix) : q.normParts lower = q.parts.map Component.name := rfl
  have hlength : root.parts.length = (root.parts.map Component.name).length :=
    (List.length_map _).symm
  rw [relativeTo, Same, hnames, hnames, hnames]
  simp only [join, List.map_append]
  constructor
  · intro h
    split_ifs at h with hroot
    obtain rfl : RelativePath.mk (p.parts.drop root.parts.length) = r := Option.some.inj h
    obtain ⟨hanchor, names, hparts⟩ := hroot
    refine ⟨hanchor, ?_⟩
    rw [List.map_drop, hlength, ← hparts, List.drop_left]
  · rintro ⟨hanchor, hparts⟩
    rw [if_pos ⟨hanchor, hparts ▸ List.prefix_append _ _⟩]
    refine congrArg some (RelativePath.ext (RelativePath.map_name_inj.1 ?_))
    rw [List.map_drop, hparts, hlength, List.drop_left]

end AbsolutePath

end Tools
end GcnPort
