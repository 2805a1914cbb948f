import Mathlib.Data.List.Basic
import Mathlib.Data.List.Infix
import Mathlib.Tactic

/-!
# Paths by their text

A path as a text with `/` between its components.  Empty components and `.` say nothing,
`..` leaves a directory, anything else enters one; a text that begins with `/` starts at the
root.  Nothing is looked up, so a link is a name like any other.

A relative path comes down to a number of directories that it leaves and the names that it
enters after them (`normal`).  Where it leads from a directory is what is left of that
directory, and the names.
-/

namespace CyfsNdn
namespace Collections
namespace LexicalPath

/-- The name of a file or directory. -/
abbrev Name := List Char

/-- A component that leads somewhere. -/
inductive Component where
  | parent
  | name (name : Name)
  deriving DecidableEq, Repr

/-- A part between two separators. -/
def component (part : List Char) : Option Component :=
  if part = [] ∨ part = ['.'] then none
  else if part = ['.', '.'] then some .parent
  else some (.name part)

/-- The components of a path. -/
def components (path : List Char) : List Component :=
  (path.splitOn '/').filterMap component

/-- The path starts at the root. -/
def isAbsolute (path : List Char) : Bool := path.head? = some '/'

/-- `Path::join`: an absolute path replaces the base. -/
def join (base path : List Char) : List Char :=
  if isAbsolute path = true then path
  else if base = [] ∨ base.getLast? = some '/' then base ++ path
  else base ++ '/' :: path

/-- The directory, as the names from the root, that a component leads to. -/
def follow (dir : List Name) : Component → List Name
  | .parent => dir.dropLast
  | .name name => dir ++ [name]

/-- Where components lead from a directory. -/
def followAll (dir : List Name) (cs : List Component) : List Name := cs.foldl follow dir

/-- Where a path leads from a working directory. -/
def resolve (cwd : List Name) (path : List Char) : List Name :=
  followAll (if isAbsolute path = true then [] else cwd) (components path)

/-- One component more, on the directories that are left and the names that are entered. -/
def normalStep (state : Nat × List Name) : Component → Nat × List Name
  | .parent => if state.2 = [] then (state.1 + 1, []) else (state.1, state.2.dropLast)
  | .name name => (state.1, state.2 ++ [name])

/-- The number of directories that components leave, and the names that they enter then. -/
def normal (cs : List Component) : Nat × List Name := cs.foldl normalStep (0, [])

/-- A file or directory that is strictly inside another one. -/
def Below (dir file : List Name) : Prop := dir <+: file ∧ file ≠ dir

instance (dir file : List Name) : Decidable (Below dir file) :=
  inferInstanceAs (Decidable (dir <+: file ∧ file ≠ dir))

/-- What has a name in a directory is inside the same directories, and in this one. -/
theorem below_append_singleton (base dir : List Name) (name : Name) :
    Below base (dir ++ [name]) ↔ base <+: dir := by
  unfold Below
  rw [List.prefix_concat_iff]
  constructor
  · rintro ⟨heq | hprefix, hne⟩
    · exact absurd heq.symm hne
    · exact hprefix
  · intro hprefix
    refine ⟨Or.inr hprefix, ?_⟩
    intro heq
    have hle := hprefix.length_le
    rw [← heq, List.length_append, List.length_singleton] at hle
    omega

/-! ## Joining -/

theorem components_append (base path : List Char) :
    components (base ++ '/' :: path) = components base ++ components path := by
  unfold components
  rw [List.splitOn_append_cons_self, List.filterMap_append]

theorem components_nil : components [] = [] := rfl

/-- A path that is joined leads on from where the base leads. -/
theorem resolve_join (cwd : List Name) (base path : List Char) :
    resolve cwd (join base path) =
      followAll (if isAbsolute path = true then [] else resolve cwd base) (components path) := by
  unfold join
  by_cases habs : isAbsolute path = true
  · rw [if_pos habs, if_pos habs]
    unfold resolve
    rw [if_pos habs]
  rw [if_neg habs, if_neg habs]
  by_cases hempty : base = []
  · rw [if_pos (Or.inl hempty), hempty, List.nil_append]
    unfold resolve
    rw [if_neg habs]
    rfl
  have hhead : ∀ tail, isAbsolute (base ++ tail) = isAbsolute base := by
    intro tail
    cases base with
    | nil => exact absurd rfl hempty
    | cons c rest => rfl
  by_cases hlast : base.getLast? = some '/'
  · -- The separator is there already.
    rw [if_pos (Or.inr hlast)]
    obtain ⟨front, rfl⟩ := List.getLast?_eq_some_iff.mp hlast
    unfold resolve
    rw [hhead]
    have hcs : components (front ++ ['/'] ++ path) =
        components (front ++ ['/']) ++ components path := by
      rw [List.append_assoc, List.singleton_append, components_append, components_append,
        components_nil, List.append_nil]
    rw [hcs]
    unfold followAll
    rw [List.foldl_append]
  · rw [if_neg (by simp [hempty, hlast])]
    unfold resolve
    rw [hhead, components_append]
    unfold followAll
    rw [List.foldl_append]

/-- A name without a separator is one component. -/
theorem components_of_name {name : Name} (hslash : '/' ∉ name)
    (hname : component name = some (.name name)) : components name = [.name name] := by
  unfold components
  rw [List.splitOn_eq_singleton hslash]
  simp [hname]

theorem isAbsolute_of_name {name : Name} (hslash : '/' ∉ name) : isAbsolute name = false := by
  cases name with
  | nil => rfl
  | cons c rest =>
      have hne : c ≠ '/' := fun h => hslash (by rw [h]; exact List.mem_cons_self)
      simp [isAbsolute, hne]

/-- A file in a directory. -/
theorem resolve_join_name (cwd : List Name) (dir : List Char) {name : Name} (hslash : '/' ∉ name)
    (hname : component name = some (.name name)) :
    resolve cwd (join dir name) = resolve cwd dir ++ [name] := by
  rw [resolve_join, if_neg (by simp [isAbsolute_of_name hslash]),
    components_of_name hslash hname]
  rfl

/-! ## The normal form -/

theorem followAll_normal (base : List Name) (cs : List Component) :
    followAll base cs = base.take (base.length - (normal cs).1) ++ (normal cs).2 := by
  have hfrom : ∀ (cs : List Component) (k : Nat) (names : List Name),
      followAll (base.take (base.length - k) ++ names) cs =
        base.take (base.length - (cs.foldl normalStep (k, names)).1) ++
          (cs.foldl normalStep (k, names)).2 := by
    intro cs
    induction cs with
    | nil =>
        intro k names
        rfl
    | cons c rest ih =>
        intro k names
        unfold followAll at ih ⊢
        rw [List.foldl_cons, List.foldl_cons]
        cases c with
        | parent =>
            by_cases hnames : names = []
            · have hleave : follow (base.take (base.length - k) ++ names) .parent =
                  base.take (base.length - (k + 1)) ++ [] := by
                rw [hnames, List.append_nil, List.append_nil]
                show (base.take (base.length - k)).dropLast = _
                rw [List.dropLast_eq_take, List.take_take, List.length_take]
                congr 1
                omega
              have hstep : normalStep (k, names) .parent = (k + 1, []) := if_pos hnames
              rw [hleave, hstep, ih]
            · have hback : follow (base.take (base.length - k) ++ names) .parent =
                  base.take (base.length - k) ++ names.dropLast :=
                List.dropLast_append_of_ne_nil hnames
              have hstep : normalStep (k, names) .parent = (k, names.dropLast) := if_neg hnames
              rw [hback, hstep, ih]
        | name name =>
            have henter : follow (base.take (base.length - k) ++ names) (.name name) =
                base.take (base.length - k) ++ (names ++ [name]) :=
              List.append_assoc _ _ _
            have hstep : normalStep (k, names) (.name name) = (k, names ++ [name]) := rfl
            rw [henter, hstep, ih]
  have hstart := hfrom cs 0 []
  rw [Nat.sub_zero, List.take_length, List.append_nil] at hstart
  exact hstart

/-- From the root there is nothing to leave. -/
theorem followAll_root (cs : List Component) : followAll [] cs = (normal cs).2 := by
  rw [followAll_normal]
  simp

/-- Components lead back below where they start if they enter again what they leave. -/
theorem prefix_followAll_iff (base : List Name) (cs : List Component) :
    base <+: followAll base cs ↔
      base.drop (base.length - (normal cs).1) <+: (normal cs).2 := by
  rw [followAll_normal]
  conv_lhs => rw [← List.take_append_drop (base.length - (normal cs).1) base]
  rw [List.take_append_drop]
  constructor
  · rintro ⟨rest, hrest⟩
    refine ⟨rest, ?_⟩
    have hsplit := congrArg (List.drop (base.length - (normal cs).1)) hrest
    rw [List.drop_append_of_le_length (by omega),
      List.drop_append_of_le_length (by simp), List.drop_take_self, List.nil_append] at hsplit
    exact hsplit
  · rintro ⟨rest, hrest⟩
    refine ⟨rest, ?_⟩
    rw [← hrest, ← List.append_assoc, List.take_append_drop]

/-- A path that starts in a directory ends there or below: from the root it spells the
directory, and otherwise it enters again what it leaves of it. -/
def StaysBelow (base : List Name) (path : List Char) : Prop :=
  if isAbsolute path = true then base <+: (normal (components path)).2
  else base.drop (base.length - (normal (components path)).1) <+: (normal (components path)).2

instance (base : List Name) (path : List Char) : Decidable (StaysBelow base path) :=
  inferInstanceAs (Decidable (if isAbsolute path = true then
      base <+: (normal (components path)).2
    else base.drop (base.length - (normal (components path)).1) <+:
      (normal (components path)).2))

/-- What is joined to a directory leads there or below exactly when it stays below. -/
theorem prefix_resolve_join_iff (cwd : List Name) (base path : List Char) :
    resolve cwd base <+: resolve cwd (join base path) ↔ StaysBelow (resolve cwd base) path := by
  rw [resolve_join]
  unfold StaysBelow
  by_cases habs : isAbsolute path = true
  · rw [if_pos habs, if_pos habs, followAll_root]
  · rw [if_neg habs, if_neg habs, prefix_followAll_iff]

end LexicalPath
end Collections
end CyfsNdn
