import CyfsNdn.Relational.Table
import Mathlib.Data.List.Nodup

/-!
# An order of last use, kept by fresh ids

A cache that gives an entry a fresh id at each of its uses has its entries in the order
of their last use: the least id belongs to the entry whose last use is the longest ago.
`LruIndex` relates the three things such a cache keeps, the id that each of its paths
carries, the table of the ids with their paths and the counter of the entries, to the
history of all uses.  Its rules say what forgetting entries, adding one and using one do
to the relation.
-/

namespace CyfsNdn
namespace Collections

open Relational

variable {ι : Type}

/-- The history has a use of `y` after the last use of `x`. -/
def UsedSince (uses : List ι) (x y : ι) : Prop :=
  ∃ before after, uses = before ++ x :: after ∧ x ∉ after ∧ y ∈ after

/-- A use of something else changes nothing. -/
theorem UsedSince.append {uses : List ι} {x y z : ι} (h : UsedSince uses x y) (hxz : x ≠ z) :
    UsedSince (uses ++ [z]) x y := by
  obtain ⟨before, after, rfl, hx, hy⟩ := h
  refine ⟨before, after ++ [z], by simp, ?_, List.mem_append_left _ hy⟩
  rw [List.mem_append, List.mem_singleton]
  rintro (hmem | heq)
  · exact hx hmem
  · exact hxz heq

/-- What was used before is older than a new use. -/
theorem usedSince_append_self {uses : List ι} {x y : ι} (hx : x ∈ uses) (hxy : x ≠ y) :
    UsedSince (uses ++ [y]) x y := by
  classical
  obtain ⟨before, after, rfl, hlast⟩ : ∃ before after, uses = before ++ x :: after ∧ x ∉ after := by
    obtain ⟨after, before, hsplit, hnot⟩ :=
      List.eq_append_cons_of_mem (List.mem_reverse.mpr hx)
    refine ⟨before.reverse, after.reverse, ?_, fun h => hnot (List.mem_reverse.mp h)⟩
    have hback := congrArg List.reverse hsplit
    simpa using hback
  refine ⟨before, after ++ [y], by simp, ?_, List.mem_append_right _ (List.mem_singleton_self y)⟩
  rw [List.mem_append, List.mem_singleton]
  rintro (hmem | heq)
  · exact hlast hmem
  · exact hxy heq

/-- The ids of the entries, the table of the ids and the counter of a cache, after a
history of uses; `next` is the id that no entry had yet. -/
structure LruIndex (entry : ι → Option Nat) (uses : List ι) (next : Nat)
    (table : Table (Nat × ι) Prod.fst) (count : Nat) : Prop where
  listed : ∀ i x, (i, x) ∈ table.rows ↔ entry x = some i
  counted : count = table.rows.length
  fresh : ∀ row ∈ table.rows, row.1 < next
  used : ∀ row ∈ table.rows, row.2 ∈ uses
  ordered : ∀ row ∈ table.rows, ∀ other ∈ table.rows, row.1 < other.1 →
    UsedSince uses row.2 other.2

/-- An empty cache. -/
theorem lruIndex_empty {entry : ι → Option Nat} (hentry : ∀ x, entry x = none) (uses : List ι)
    (next : Nat) : LruIndex entry uses next Table.empty 0 where
  listed := fun i x => by simp [hentry x]
  counted := rfl
  fresh := fun row hrow => absurd hrow (by simp)
  used := fun row hrow => absurd hrow (by simp)
  ordered := fun row hrow => absurd hrow (by simp)

namespace LruIndex

variable {entry entry' : ι → Option Nat} {uses : List ι} {next count : Nat}
  {table : Table (Nat × ι) Prod.fst}

/-- No two paths carry one id. -/
theorem injective (h : LruIndex entry uses next table count) {x y : ι} {i : Nat}
    (hx : entry x = some i) (hy : entry y = some i) : x = y := by
  have hrow := table.eq_of_key_eq ((h.listed i x).mpr hx) ((h.listed i y).mpr hy) rfl
  exact congrArg Prod.snd hrow

/-- The table finds the path that carries an id. -/
theorem find?_eq (h : LruIndex entry uses next table count) {x : ι} {i : Nat}
    (hx : entry x = some i) : table.find? i = some (i, x) :=
  Table.find?_eq_some_iff.mpr ⟨(h.listed i x).mpr hx, rfl⟩

/-- Forgetting entries: their ids leave the table and the counter goes down by one each. -/
theorem drop (h : LruIndex entry uses next table count) {ids : List Nat} (hnodup : ids.Nodup)
    (hids : ∀ i ∈ ids, ∃ x, entry x = some i)
    (hentry : ∀ x i, entry' x = some i ↔ entry x = some i ∧ i ∉ ids)
    {p : Nat × ι → Bool} (hp : ∀ row, p row = true ↔ row.1 ∈ ids) :
    LruIndex entry' uses next (table.deleteWhere p) (count - ids.length) := by
  have hsub : ∀ row ∈ (table.deleteWhere p).rows, row ∈ table.rows :=
    fun row hrow => (Table.mem_deleteWhere.mp hrow).1
  -- the rows that go are those of the ids, each once
  have hgone : (table.rows.filter p).length = ids.length := by
    have hperm : ((table.rows.filter p).map Prod.fst).Perm ids := by
      rw [List.perm_ext_iff_of_nodup _ hnodup]
      · intro i
        constructor
        · intro hi
          obtain ⟨row, hrow, rfl⟩ := List.mem_map.mp hi
          exact (hp row).mp (List.mem_filter.mp hrow).2
        · intro hi
          obtain ⟨x, hx⟩ := hids i hi
          exact List.mem_map.mpr ⟨(i, x),
            List.mem_filter.mpr ⟨(h.listed i x).mpr hx, (hp (i, x)).mpr hi⟩, rfl⟩
      · exact table.keysNodup.sublist (List.filter_sublist.map Prod.fst)
    simpa using hperm.length_eq
  refine ⟨?_, ?_, fun row hrow => h.fresh row (hsub row hrow),
    fun row hrow => h.used row (hsub row hrow),
    fun row hrow other hother => h.ordered row (hsub row hrow) other (hsub other hother)⟩
  · intro i x
    rw [Table.mem_deleteWhere, h.listed, hentry, ← Bool.not_eq_true, hp]
  · have hsplit : table.rows.length =
        (table.rows.filter p).length + (table.deleteWhere p).rows.length := by
      have hboth := List.length_eq_length_filter_add (l := table.rows) p
      simpa using hboth
    rw [h.counted]
    omega

/-- A new entry: its first use is the latest of all uses. -/
theorem add [DecidableEq ι] (h : LruIndex entry uses next table count) {x : ι}
    (hx : entry x = none) (hentry : ∀ y, entry' y = if y = x then some next else entry y) :
    LruIndex entry' (uses ++ [x]) (next + 1) (table.insertOrReplace (next, x))
      (count + 1) := by
  have hnew : ∀ row ∈ table.rows, row.1 ≠ next :=
    fun row hrow hnext => Nat.lt_irrefl _ (hnext ▸ h.fresh row hrow)
  have hother : ∀ row ∈ table.rows, row.2 ≠ x := by
    intro row hrow hpath
    have hcarries := (h.listed row.1 row.2).mp hrow
    rw [hpath, hx] at hcarries
    exact absurd hcarries (by simp)
  have hmem : ∀ row, row ∈ (table.insertOrReplace (next, x)).rows ↔
      row = (next, x) ∨ row ∈ table.rows := by
    intro row
    rw [Table.mem_insertOrReplace]
    exact or_congr_right (and_iff_left_of_imp (hnew row))
  refine ⟨?_, ?_, ?_, ?_, ?_⟩
  · intro i y
    rw [hmem, h.listed, hentry]
    by_cases hy : y = x
    · subst hy
      simp [hx, eq_comm]
    · simp [hy]
  · have hrows : (table.insertOrReplace (next, x)).rows =
        (table.rows.filter fun row => !decide (row.1 = next)) ++ [(next, x)] := rfl
    have hall : (table.rows.filter fun row => !decide (row.1 = next)) = table.rows := by
      rw [List.filter_eq_self]
      intro row hrow
      simpa using hnew row hrow
    rw [hrows, hall, List.length_append, List.length_singleton, h.counted]
  · intro row hrow
    rcases (hmem row).mp hrow with rfl | hold
    · exact Nat.lt_succ_self next
    · exact Nat.lt_succ_of_lt (h.fresh row hold)
  · intro row hrow
    rcases (hmem row).mp hrow with rfl | hold
    · exact List.mem_append_right _ (List.mem_singleton_self x)
    · exact List.mem_append_left _ (h.used row hold)
  · intro row hrow other hotherRow hlt
    rcases (hmem row).mp hrow with rfl | hold
    · -- no id is greater than the new one
      exfalso
      rcases (hmem other).mp hotherRow with rfl | hotherOld
      · exact Nat.lt_irrefl _ hlt
      · exact Nat.lt_asymm hlt (h.fresh other hotherOld)
    · rcases (hmem other).mp hotherRow with rfl | hotherOld
      · exact usedSince_append_self (h.used row hold) (hother row hold)
      · exact (h.ordered row hold other hotherOld hlt).append (hother row hold)

/-- Forgetting what one path carries. -/
theorem dropPath [DecidableEq ι] (h : LruIndex entry uses next table count) {x : ι}
    {ids : List Nat} (hids : ids = (entry x).toList)
    (hentry : ∀ y, entry' y = if y = x then none else entry y) {p : Nat × ι → Bool}
    (hp : ∀ row, p row = true ↔ row.1 ∈ ids) :
    LruIndex entry' uses next (table.deleteWhere p) (count - ids.length) := by
  have hmem : ∀ i, i ∈ ids ↔ entry x = some i := fun i => by rw [hids, Option.mem_toList]
  refine h.drop ?_ (fun i hi => ⟨x, (hmem i).mp hi⟩) ?_ hp
  · rw [hids]
    cases entry x with
    | none => exact List.nodup_nil
    | some i => exact List.nodup_singleton i
  · intro y i
    rw [hentry, hmem]
    by_cases hy : y = x
    · subst hy
      simp
    · rw [if_neg hy]
      refine (and_iff_left_of_imp ?_).symm
      exact fun hyi hxi => hy (h.injective hyi hxi)

/-- A use of an entry: it gets a new id, and its old one leaves the table. -/
theorem refresh [DecidableEq ι] (h : LruIndex entry uses next table count) {x : ι} {i : Nat}
    (hx : entry x = some i) (hentry : ∀ y, entry' y = if y = x then some next else entry y) :
    LruIndex entry' (uses ++ [x]) (next + 1)
      ((table.deleteKey i).insertOrReplace (next, x)) count := by
  have hgone : LruIndex (fun y => if y = x then none else entry y) uses next
      (table.deleteKey i) (count - 1) := by
    have hids : [i] = (entry x).toList := by
      rw [hx]
      rfl
    exact h.dropPath hids (fun _ => rfl) (fun row => by simp)
  have hpos : 0 < count := by
    rw [h.counted]
    exact List.length_pos_of_mem ((h.listed i x).mpr hx)
  have hback : count - 1 + 1 = count := by omega
  rw [← hback]
  apply hgone.add (if_pos rfl)
  intro y
  rw [hentry]
  by_cases hy : y = x
  · rw [if_pos hy, if_pos hy]
  · rw [if_neg hy, if_neg hy, if_neg hy]

/-- A use of something that has no entry. -/
theorem skip (h : LruIndex entry uses next table count) {x : ι} (hx : entry x = none) :
    LruIndex entry (uses ++ [x]) next table count := by
  refine ⟨h.listed, h.counted, h.fresh, fun row hrow => List.mem_append_left _ (h.used row hrow),
    ?_⟩
  intro row hrow other hother hlt
  refine (h.ordered row hrow other hother hlt).append ?_
  intro hpath
  have hcarries := (h.listed row.1 row.2).mp hrow
  rw [hpath, hx] at hcarries
  exact absurd hcarries (by simp)

/-- All entries were used after the last use of the entry with the least id. -/
theorem usedSince_of_least (h : LruIndex entry uses next table count) {i : Nat} {x : ι}
    (hx : entry x = some i) (hleast : ∀ row ∈ table.rows, i ≤ row.1) {y : ι}
    (hy : (entry y).isSome) (hyx : y ≠ x) : UsedSince uses x y := by
  obtain ⟨j, hj⟩ := Option.isSome_iff_exists.mp hy
  have hrow := (h.listed j y).mpr hj
  refine h.ordered (i, x) ((h.listed i x).mpr hx) (j, y) hrow ?_
  refine lt_of_le_of_ne (hleast (j, y) hrow) ?_
  intro hij
  subst hij
  exact hyx (h.injective hj hx)

end LruIndex

end Collections
end CyfsNdn
