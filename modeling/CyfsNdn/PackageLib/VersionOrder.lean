import CyfsNdn.Collections.MixedOrder
import CyfsNdn.PackageLib.SampleSemver

/-!
# The order of versions

`compare_versions` knows three orders, and which of them it uses is decided by the pair.  Each
is a total preorder, and so any comparison can be turned around.  Three versions whose pairs
are compared in different orders may run in a circle: by the crate a pre-release comes before
its release, and by the integers the two are equal.
-/

namespace CyfsNdn
namespace PackageLib

open Collections

/-- The orders of versions: the crate's, that of the integers and that of the texts. -/
inductive VersionOrder where
  | semver
  | ints
  | texts
  deriving DecidableEq, Repr

variable (semver : SemverCrate)

/-- The order of the crate; what it cannot read comes first. -/
def compareBySemver (v1 v2 : String) : Ordering :=
  match semver.parseVersion v1, semver.parseVersion v2 with
  | some v1, some v2 => semver.cmp v1 v2
  | some _, none => .gt
  | none, some _ => .lt
  | none, none => .eq

/-- The order of the integers; what has none comes first. -/
def compareByInts : String → String → Ordering :=
  compareOn fun version => (versionToInt version).toOption

theorem compareByInts_of_ok {v1 v2 : String} {v1Int v2Int : UInt64}
    (h1 : versionToInt v1 = .ok v1Int) (h2 : versionToInt v2 = .ok v2Int) :
    compareByInts v1 v2 = compare v1Int v2Int := by
  rw [compareByInts, compareOn, h1, h2]
  rfl

/-- Two versions in an order. -/
def VersionOrder.compare : VersionOrder → String → String → Ordering
  | .semver => compareBySemver semver
  | .ints => compareByInts
  | .texts => Ord.compare

/-- The order in which two versions are compared. -/
def orderOf (v1 v2 : String) : VersionOrder :=
  if (semver.parseVersion v1).isSome ∧ (semver.parseVersion v2).isSome then .semver
  else if (versionToInt v1).isOk ∧ (versionToInt v2).isOk then .ints
  else .texts

theorem orderOf_symm (v1 v2 : String) : orderOf semver v1 v2 = orderOf semver v2 v1 := by
  unfold orderOf
  simp only [and_comm]

theorem compareVersions_eq_mixed :
    compareVersions semver = mixed (VersionOrder.compare semver) (orderOf semver) := by
  funext v1 v2
  unfold compareVersions mixed orderOf
  cases h1 : semver.parseVersion v1 <;> cases h2 : semver.parseVersion v2
  case some.some => simp [VersionOrder.compare, compareBySemver, h1, h2]
  all_goals
    cases hi1 : versionToInt v1 <;> cases hi2 : versionToInt v2
    case ok.ok => simp [VersionOrder.compare, compareByInts_of_ok hi1 hi2, Except.isOk,
      Except.toBool]
    all_goals simp [VersionOrder.compare, Except.isOk, Except.toBool]

variable {semver}

theorem compareBySemver_swap [semver.Lawful] (v1 v2 : String) :
    compareBySemver semver v1 v2 = (compareBySemver semver v2 v1).swap := by
  have : Std.TransCmp semver.cmp := SemverCrate.Lawful.cmp_trans
  unfold compareBySemver
  cases semver.parseVersion v1 <;> cases semver.parseVersion v2
  case some.some => exact Std.OrientedCmp.eq_swap
  all_goals rfl

instance [semver.Lawful] : Std.TransCmp (compareBySemver semver) where
  eq_swap := compareBySemver_swap _ _
  isLE_trans {v1 v2 v3} h12 h23 := by
    have : Std.TransCmp semver.cmp := SemverCrate.Lawful.cmp_trans
    unfold compareBySemver at *
    cases h1 : semver.parseVersion v1 <;> cases h2 : semver.parseVersion v2 <;>
      cases h3 : semver.parseVersion v3 <;> simp only [h1, h2, h3] at h12 h23 ⊢
    case some.some.some => exact Std.TransCmp.isLE_trans h12 h23
    all_goals first | rfl | cases h12 | cases h23

instance [semver.Lawful] (order : VersionOrder) : Std.TransCmp (order.compare semver) := by
  cases order with
  | semver => exact inferInstanceAs (Std.TransCmp (compareBySemver semver))
  | ints => exact inferInstanceAs (Std.TransCmp (compareOn _))
  | texts => exact inferInstanceAs (Std.TransCmp (Ord.compare (α := String)))

/-- Versions that the crate reads are compared in its order. -/
theorem orderOf_of_parse {v1 v2 : String} (h1 : (semver.parseVersion v1).isSome)
    (h2 : (semver.parseVersion v2).isSome) : orderOf semver v1 v2 = .semver :=
  if_pos ⟨h1, h2⟩

/-- A version that the crate does not read is compared by the integers where both have one. -/
theorem orderOf_of_ints {v1 v2 : String} (hno : semver.parseVersion v1 = none)
    (h1 : (versionToInt v1).isOk) (h2 : (versionToInt v2).isOk) :
    orderOf semver v1 v2 = .ints := by
  have hread : ¬ ((semver.parseVersion v1).isSome ∧ (semver.parseVersion v2).isSome) := by
    simp [hno]
  unfold orderOf
  rw [if_neg hread, if_pos ⟨h1, h2⟩]

/-- Texts that are neither read nor have integers are compared as they are. -/
theorem orderOf_of_neither {v1 v2 : String} (hno : semver.parseVersion v1 = none)
    (hbad : ¬ (versionToInt v1).isOk) : orderOf semver v1 v2 = .texts := by
  simp [orderOf, hno, hbad]

/-- What the texts of some versions have to be for one order: the crate reads all of them, or
it reads none, and all have integers or none has. -/
def OneOrder (semver : SemverCrate) (U : Set String) : Prop :=
  (∀ v ∈ U, (semver.parseVersion v).isSome) ∨
    (∀ v ∈ U, semver.parseVersion v = none ∧ (versionToInt v).isOk) ∨
    ∀ v ∈ U, semver.parseVersion v = none ∧ ¬ (versionToInt v).isOk

/-- Such versions have one order. -/
theorem OneOrder.exists_order {U : Set String} (h : OneOrder semver U) :
    ∃ order, ∀ v1 ∈ U, ∀ v2 ∈ U, orderOf semver v1 v2 = order := by
  rcases h with hparse | hints | hneither
  · refine ⟨.semver, ?_⟩
    intro v1 h1 v2 h2
    exact orderOf_of_parse (hparse v1 h1) (hparse v2 h2)
  · refine ⟨.ints, ?_⟩
    intro v1 h1 v2 h2
    exact orderOf_of_ints (hints v1 h1).1 (hints v1 h1).2 (hints v2 h2).2
  · refine ⟨.texts, ?_⟩
    intro v1 h1 v2 _
    exact orderOf_of_neither (hneither v1 h1).1 (hneither v1 h1).2

/-- Any three of them are compatible, so the comparison is a total preorder on them. -/
theorem OneOrder.preorderOn [semver.Lawful] {U : Set String} (h : OneOrder semver U) :
    (∀ v1 ∈ U, ∀ v2 ∈ U, ∀ v3 ∈ U,
      Compatible (VersionOrder.compare semver) (orderOf semver) v1 v2 v3) ∧
      PreorderOn (compareVersions semver) U := by
  obtain ⟨order, horder⟩ := h.exists_order
  have hcompatible : ∀ v1 ∈ U, ∀ v2 ∈ U, ∀ v3 ∈ U,
      Compatible (VersionOrder.compare semver) (orderOf semver) v1 v2 v3 := by
    intro v1 h1 v2 h2 v3 h3
    apply Compatible.of_one_order
    · rw [horder v1 h1 v2 h2, horder v1 h1 v3 h3]
    · rw [horder v2 h2 v3 h3, horder v1 h1 v3 h3]
  refine ⟨hcompatible, ?_⟩
  rw [compareVersions_eq_mixed]
  exact (mixed_preorderOn_iff (orderOf_symm semver) U).mpr hcompatible

/-- On a set of versions the comparison is a total preorder, and the greatest of several of
them compares as equal whatever their order, exactly if any three of the set are compatible. -/
theorem compareVersions_preorderOn_iff [semver.Lawful] (U : Set String) :
    (PreorderOn (compareVersions semver) U ∧
      ∀ (versions versions' : List (String × String)) (g g' : String × String),
        (∀ v ∈ versions, v.1 ∈ U) → versions.Perm versions' →
          greatest (compareVersions semver) versions = some g →
            greatest (compareVersions semver) versions' = some g' →
              compareVersions semver g.1 g'.1 = .eq) ↔
      ∀ v1 ∈ U, ∀ v2 ∈ U, ∀ v3 ∈ U,
        Compatible (VersionOrder.compare semver) (orderOf semver) v1 v2 v3 := by
  rw [← mixed_preorderOn_iff (orderOf_symm semver) U, ← compareVersions_eq_mixed]
  exact ⟨And.left, fun h => ⟨h, fun _ _ _ _ hU hperm hg hg' => h.greatest_perm hU hperm hg hg'⟩⟩

theorem shortVersions_preorderOn :
    (∀ v1 ∈ ({"1", "1.0", "1.0.0", "2.0.0"} : Set String),
      ∀ v2 ∈ ({"1", "1.0", "1.0.0", "2.0.0"} : Set String),
        ∀ v3 ∈ ({"1", "1.0", "1.0.0", "2.0.0"} : Set String),
          Compatible (VersionOrder.compare sampleSemver) (orderOf sampleSemver) v1 v2 v3) ∧
      PreorderOn (compareVersions sampleSemver) {"1", "1.0", "1.0.0", "2.0.0"} := by
  have hcompatible : ∀ v1 ∈ ["1", "1.0", "1.0.0", "2.0.0"], ∀ v2 ∈ ["1", "1.0", "1.0.0", "2.0.0"],
      ∀ v3 ∈ ["1", "1.0", "1.0.0", "2.0.0"],
        Compatible (VersionOrder.compare sampleSemver) (orderOf sampleSemver) v1 v2 v3 := by
    decide
  have hset : ∀ v1 ∈ ({"1", "1.0", "1.0.0", "2.0.0"} : Set String),
      ∀ v2 ∈ ({"1", "1.0", "1.0.0", "2.0.0"} : Set String),
        ∀ v3 ∈ ({"1", "1.0", "1.0.0", "2.0.0"} : Set String),
          Compatible (VersionOrder.compare sampleSemver) (orderOf sampleSemver) v1 v2 v3 :=
    fun v1 h1 v2 h2 v3 h3 => hcompatible v1 (by simpa using h1) v2 (by simpa using h2) v3
      (by simpa using h3)
  exact ⟨hset, ((compareVersions_preorderOn_iff _).mpr hset).1⟩

/-- A release and its pre-release both compare as equal with the short version, and not with
each other. -/
theorem preRelease_circle :
    compareVersions sampleSemver "1.0.0" "1.0" = .eq ∧
      compareVersions sampleSemver "1.0" "1.0.0-alpha" = .eq ∧
      compareVersions sampleSemver "1.0.0" "1.0.0-alpha" = .gt ∧
      ¬ PreorderOn (compareVersions sampleSemver) Set.univ := by
  have h1 : compareVersions sampleSemver "1.0.0" "1.0" = .eq := by decide
  have h2 : compareVersions sampleSemver "1.0" "1.0.0-alpha" = .eq := by decide
  have h3 : compareVersions sampleSemver "1.0.0" "1.0.0-alpha" = .gt := by decide
  refine ⟨h1, h2, h3, fun h => ?_⟩
  exact h.trans _ (Set.mem_univ _) _ (Set.mem_univ _) _ (Set.mem_univ _)
    (h1.trans_ne (by decide)) (h2.trans_ne (by decide)) h3

end PackageLib
end CyfsNdn
