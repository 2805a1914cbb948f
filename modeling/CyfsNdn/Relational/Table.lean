import Mathlib.Data.List.Nodup
import Mathlib.Data.List.Basic
import Mathlib.Tactic

/-!
# Tables with a primary key

A relational table as the list of its rows in insertion order, together with
the proof that no two rows share a primary key.  The statements of the SQL
dialect that the models use are total functions on such tables:

* `insertOrReplace`, `insertOrIgnore` and `upsert` are the three forms of
  `INSERT` that say what happens on a key conflict;
* `updateWhere` and `deleteWhere` take the `WHERE` clause as a Boolean row
  predicate, and an update carries the proof that it leaves the key alone;
* `find?` reads the row of one key, `countWhere` is `SELECT COUNT(*)`.

Every statement comes with its effect on `find?` and on row membership, so
that no later proof has to look at the list itself.
-/

namespace CyfsNdn
namespace Relational

/-- Rows in insertion order, no two with the same primary key. -/
structure Table (R : Type) {K : Type} (key : R → K) where
  rows : List R
  keysNodup : (rows.map key).Nodup

namespace Table

variable {R K : Type} {key : R → K}

/-- The table right after `CREATE TABLE`. -/
def empty : Table R key where
  rows := []
  keysNodup := List.nodup_nil

@[simp] theorem empty_rows : (empty : Table R key).rows = [] := rfl

/-- Two rows of one table with the same key are the same row. -/
theorem eq_of_key_eq (t : Table R key) {r s : R} (hr : r ∈ t.rows)
    (hs : s ∈ t.rows) (hkey : key r = key s) : r = s :=
  List.inj_on_of_nodup_map t.keysNodup hr hs hkey

/-! ## Statements that need no key comparison -/

/-- `DELETE FROM t WHERE p`. -/
def deleteWhere (t : Table R key) (p : R → Bool) : Table R key where
  rows := t.rows.filter fun r => !p r
  keysNodup := t.keysNodup.sublist (List.filter_sublist.map key)

@[simp] theorem deleteWhere_rows (t : Table R key) (p : R → Bool) :
    (t.deleteWhere p).rows = t.rows.filter fun r => !p r := rfl

theorem mem_deleteWhere {t : Table R key} {p : R → Bool} {r : R} :
    r ∈ (t.deleteWhere p).rows ↔ r ∈ t.rows ∧ p r = false := by
  simp [deleteWhere]

/-- `UPDATE t SET f WHERE p`, for an `f` that leaves the key columns alone. -/
def updateWhere (t : Table R key) (p : R → Bool) (f : R → R)
    (hf : ∀ r, key (f r) = key r) : Table R key where
  rows := t.rows.map fun r => if p r then f r else r
  keysNodup := by
    have hkeys : (key ∘ fun r => if p r then f r else r) = key := by
      funext r
      by_cases hp : p r = true
      · simp [hp, hf]
      · simp [hp]
    rw [List.map_map, hkeys]
    exact t.keysNodup

theorem mem_updateWhere {t : Table R key} {p : R → Bool} {f : R → R}
    {hf : ∀ r, key (f r) = key r} {r : R} :
    r ∈ (t.updateWhere p f hf).rows ↔
      ∃ s ∈ t.rows, (if p s then f s else s) = r := by
  simp [updateWhere]

/-- `SELECT COUNT(*) FROM t WHERE p`; also the number of rows that a `DELETE`
with the same clause reports. -/
def countWhere (t : Table R key) (p : R → Bool) : Nat :=
  t.rows.countP p

theorem countWhere_pos {t : Table R key} {p : R → Bool} :
    0 < t.countWhere p ↔ ∃ r ∈ t.rows, p r = true := by
  simp [countWhere, List.countP_pos_iff]

theorem countWhere_deleteWhere (t : Table R key) (p q : R → Bool) :
    (t.deleteWhere p).countWhere q = t.countWhere fun r => q r && !p r := by
  simp [countWhere, List.countP_filter]

/-- A deletion splits a count into the rows that stay and the rows that go. -/
theorem countWhere_eq_add_deleteWhere (t : Table R key) (p q : R → Bool) :
    t.countWhere q = (t.deleteWhere p).countWhere q + t.countWhere fun r => q r && p r := by
  rw [countWhere_deleteWhere]
  unfold countWhere
  induction t.rows with
  | nil => rfl
  | cons r rest ih =>
      simp only [List.countP_cons, ih]
      by_cases hp : p r = true <;> by_cases hq : q r = true <;> simp [hp, hq] <;> omega

/-- A count whose clause no updated row can tell apart is unchanged. -/
theorem countWhere_updateWhere (t : Table R key) (p q : R → Bool) (f : R → R)
    (hf : ∀ r, key (f r) = key r) (hq : ∀ r, q (f r) = q r) :
    (t.updateWhere p f hf).countWhere q = t.countWhere q := by
  unfold countWhere updateWhere
  rw [List.countP_map]
  apply List.countP_congr
  intro r _
  by_cases hp : p r = true
  · simp [hp, hq]
  · simp [hp]

section KeyComparison

variable [DecidableEq K]

/-! ## Reading the row of a key -/

/-- `SELECT * FROM t WHERE key = k`. -/
def find? (t : Table R key) (k : K) : Option R :=
  t.rows.find? fun r => key r = k

@[simp] theorem find?_empty (k : K) : (empty : Table R key).find? k = none := rfl

theorem find?_eq_some_iff {t : Table R key} {k : K} {r : R} :
    t.find? k = some r ↔ r ∈ t.rows ∧ key r = k := by
  constructor
  · intro hfind
    have hkey := List.find?_some hfind
    exact ⟨List.mem_of_find?_eq_some hfind, by simpa using hkey⟩
  · rintro ⟨hmem, hkey⟩
    cases hfind : t.find? k with
    | none =>
        have hnone := List.find?_eq_none.mp hfind r hmem
        simp [hkey] at hnone
    | some s =>
        have hs := List.find?_some hfind
        have hsmem := List.mem_of_find?_eq_some hfind
        have hskey : key s = k := by simpa using hs
        rw [t.eq_of_key_eq hsmem hmem (hskey.trans hkey.symm)]

theorem find?_eq_none_iff {t : Table R key} {k : K} :
    t.find? k = none ↔ ∀ r ∈ t.rows, key r ≠ k := by
  simp [find?, List.find?_eq_none]

/-- The row that a membership proof names is the one its key finds. -/
theorem find?_key_of_mem {t : Table R key} {r : R} (hr : r ∈ t.rows) :
    t.find? (key r) = some r :=
  find?_eq_some_iff.mpr ⟨hr, rfl⟩

theorem key_of_find? {t : Table R key} {k : K} {r : R}
    (hfind : t.find? k = some r) : key r = k :=
  (find?_eq_some_iff.mp hfind).2

/-- Two tables that find the same rows under a key find the same row. -/
theorem find?_congr {t u : Table R key} {k : K}
    (h : ∀ r, key r = k → (r ∈ t.rows ↔ r ∈ u.rows)) : t.find? k = u.find? k := by
  apply Option.ext
  intro r
  rw [find?_eq_some_iff, find?_eq_some_iff]
  constructor
  · rintro ⟨hmem, hkey⟩
    exact ⟨(h r hkey).mp hmem, hkey⟩
  · rintro ⟨hmem, hkey⟩
    exact ⟨(h r hkey).mpr hmem, hkey⟩

/-- An update changes the row of a key where the clause holds of it. -/
theorem find?_updateWhere (t : Table R key) (p : R → Bool) (f : R → R)
    (hf : ∀ r, key (f r) = key r) (k : K) :
    (t.updateWhere p f hf).find? k = (t.find? k).map fun r => if p r then f r else r := by
  apply Option.ext
  intro r
  rw [find?_eq_some_iff, mem_updateWhere]
  simp only [Option.map_eq_some_iff, find?_eq_some_iff]
  have hkeys : ∀ s, key (if p s then f s else s) = key s := by
    intro s
    split
    · exact hf s
    · rfl
  constructor
  · rintro ⟨⟨s, hs, rfl⟩, hkey⟩
    exact ⟨s, ⟨hs, (hkeys s).symm.trans hkey⟩, rfl⟩
  · rintro ⟨s, ⟨hs, hkey⟩, rfl⟩
    exact ⟨⟨s, hs, rfl⟩, (hkeys s).trans hkey⟩

/-! ## Statements on one key -/

/-- `DELETE FROM t WHERE key = k`. -/
def deleteKey (t : Table R key) (k : K) : Table R key :=
  t.deleteWhere fun r => key r = k

/-- `UPDATE t SET f WHERE key = k`. -/
def updateKey (t : Table R key) (k : K) (f : R → R)
    (hf : ∀ r, key (f r) = key r) : Table R key :=
  t.updateWhere (fun r => key r = k) f hf

/-- An update that changes no row changes nothing. -/
theorem updateKey_eq_self (t : Table R key) (k : K) {f : R → R}
    {hf : ∀ r, key (f r) = key r} (h : ∀ r, f r = r) : t.updateKey k f hf = t := by
  obtain ⟨rows, hnodup⟩ := t
  have hrows : (rows.map fun r => if decide (key r = k) then f r else r) = rows := by
    simp [h]
  simp only [updateKey, updateWhere, mk.injEq]
  exact hrows

theorem find?_updateKey (t : Table R key) (k k' : K) (f : R → R)
    (hf : ∀ r, key (f r) = key r) :
    (t.updateKey k f hf).find? k' =
      if k' = k then (t.find? k').map f else t.find? k' := by
  apply Option.ext
  intro r
  rw [find?_eq_some_iff, updateKey, mem_updateWhere]
  by_cases hk : k' = k
  · subst hk
    simp only [if_true, Option.map_eq_some_iff, find?_eq_some_iff]
    constructor
    · rintro ⟨⟨s, hs, hsr⟩, hkey⟩
      by_cases hskey : key s = k'
      · exact ⟨s, ⟨hs, hskey⟩, by simpa [hskey] using hsr⟩
      · have hrs : s = r := by simpa [hskey] using hsr
        exact absurd (hrs ▸ hkey) hskey
    · rintro ⟨s, ⟨hs, hskey⟩, hsr⟩
      refine ⟨⟨s, hs, by simpa [hskey] using hsr⟩, ?_⟩
      rw [← hsr, hf, hskey]
  · simp only [if_neg hk, find?_eq_some_iff]
    constructor
    · rintro ⟨⟨s, hs, hsr⟩, hkey⟩
      by_cases hskey : key s = k
      · have hfs : f s = r := by simpa [hskey] using hsr
        rw [← hfs, hf, hskey] at hkey
        exact absurd hkey.symm hk
      · have hrs : s = r := by simpa [hskey] using hsr
        exact ⟨hrs ▸ hs, hkey⟩
    · rintro ⟨hr, hkey⟩
      refine ⟨⟨r, hr, ?_⟩, hkey⟩
      have hrk : key r ≠ k := fun h => hk (hkey.symm.trans h)
      simp [hrk]

theorem find?_deleteKey (t : Table R key) (k k' : K) :
    (t.deleteKey k).find? k' = if k' = k then none else t.find? k' := by
  by_cases hk : k' = k
  · subst hk
    rw [if_pos rfl, find?_eq_none_iff]
    intro r hr
    have hdel := (mem_deleteWhere.mp hr).2
    simpa using hdel
  · rw [if_neg hk]
    apply find?_congr
    intro r hkey
    have hrk : key r ≠ k := fun h => hk (hkey.symm.trans h)
    simp [deleteKey, hrk]

/-- A selection loses exactly the rows of a deleted key. -/
theorem filter_deleteKey (t : Table R key) (k : K) (p : R → Bool) :
    (t.deleteKey k).rows.filter p = (t.rows.filter p).filter fun r => decide (key r ≠ k) := by
  show (t.rows.filter fun r => !decide (key r = k)).filter p = _
  rw [List.filter_filter, List.filter_filter]
  congr 1
  funext r
  simp [Bool.and_comm]

/-- So it does when the row of the key is updated out of the selection. -/
theorem filter_updateKey (t : Table R key) (k : K) (f : R → R)
    (hf : ∀ r, key (f r) = key r) (p : R → Bool) (hout : ∀ r, key r = k → p (f r) = false) :
    (t.updateKey k f hf).rows.filter p =
      (t.rows.filter p).filter fun r => decide (key r ≠ k) := by
  show (t.rows.map fun r => if decide (key r = k) then f r else r).filter p = _
  induction t.rows with
  | nil => rfl
  | cons r rest ih =>
      simp only [decide_eq_true_eq] at ih
      by_cases hk : key r = k
      · have hmap : (if key r = k then f r else r) = f r := if_pos hk
        simp only [List.map_cons, decide_eq_true_eq, hmap, List.filter_cons, hout r hk]
        by_cases hp : p r = true
        · simpa [hp, hk] using ih
        · simpa [hp] using ih
      · have hmap : (if key r = k then f r else r) = r := if_neg hk
        simp only [List.map_cons, decide_eq_true_eq, hmap, List.filter_cons]
        by_cases hp : p r = true
        · simpa [hp, hk] using ih
        · simpa [hp] using ih

/-- The rows of a key are the one row that the key finds. -/
theorem filter_key (t : Table R key) (k : K) :
    (t.rows.filter fun r => key r = k) = (t.find? k).toList := by
  obtain ⟨rows, hnodup⟩ := t
  show rows.filter (fun r => key r = k) = (rows.find? fun r => key r = k).toList
  induction rows with
  | nil => rfl
  | cons r rest ih =>
      rw [List.map_cons, List.nodup_cons] at hnodup
      obtain ⟨hnew, hrest⟩ := hnodup
      by_cases hk : key r = k
      · have hnone : rest.filter (fun s => key s = k) = [] := by
          rw [List.filter_eq_nil_iff]
          intro s hs
          have hne : key s ≠ key r := fun h => hnew (h ▸ List.mem_map_of_mem hs)
          simpa [← hk] using hne
        simp [hk, hnone]
      · simp [hk, ih hrest]

/-- Deleting a key lowers a count by one when the row of the key was counted. -/
theorem countWhere_deleteKey (t : Table R key) (k : K) (p : R → Bool) :
    t.countWhere p =
      (t.deleteKey k).countWhere p + ((t.find? k).toList.countP p) := by
  rw [← filter_key, List.countP_filter]
  exact countWhere_eq_add_deleteWhere t _ p

/-! ## Sums -/

/-- `SELECT SUM(w) FROM t`. -/
def total (t : Table R key) (w : R → Nat) : Nat :=
  (t.rows.map w).sum

omit [DecidableEq K] in
theorem total_congr {t : Table R key} {w w' : R → Nat} (h : ∀ r ∈ t.rows, w r = w' r) :
    t.total w = t.total w' := by
  unfold total
  rw [List.map_congr_left h]

omit [DecidableEq K] in
/-- Counting is summing ones. -/
theorem total_le_length (t : Table R key) {w : R → Nat} (hw : ∀ r, w r ≤ 1) :
    t.total w ≤ t.rows.length := by
  unfold total
  induction t.rows with
  | nil => exact Nat.le_refl 0
  | cons r rest ih =>
      have hr := hw r
      simp only [List.map_cons, List.sum_cons, List.length_cons]
      omega

/-- A key splits a sum into the row of the key and the rest. -/
theorem total_eq_add_find? (t : Table R key) (k : K) (w : R → Nat) :
    t.total w = (t.deleteKey k).total w + ((t.find? k).map w).getD 0 := by
  have hsplit : ∀ rows : List R, (rows.map w).sum =
      ((rows.filter fun r => !decide (key r = k)).map w).sum +
        ((rows.filter fun r => decide (key r = k)).map w).sum := by
    intro rows
    induction rows with
    | nil => rfl
    | cons r rest ih =>
        rw [List.map_cons, List.sum_cons, ih]
        by_cases hk : key r = k
        · simp [hk]
          omega
        · simp [hk]
          omega
  unfold total
  rw [hsplit, filter_key]
  show _ + _ = _ + _
  congr 1
  cases t.find? k with
  | none => rfl
  | some r => simp

/-- An update of one row changes what that row adds to a sum. -/
theorem total_updateKey (t : Table R key) (k : K) (f : R → R)
    (hf : ∀ r, key (f r) = key r) (w : R → Nat) :
    (t.updateKey k f hf).total w =
      (t.deleteKey k).total w + ((t.find? k).map fun r => w (f r)).getD 0 := by
  have hrows : ((t.updateKey k f hf).deleteKey k).rows = (t.deleteKey k).rows := by
    show (t.rows.map fun r => if decide (key r = k) then f r else r).filter
      (fun r => !decide (key r = k)) = t.rows.filter fun r => !decide (key r = k)
    induction t.rows with
    | nil => rfl
    | cons r rest ih =>
        simp only [decide_eq_true_eq] at ih
        by_cases hk : key r = k
        · simp [hk, hf, ih]
        · simp [hk, ih]
  rw [total_eq_add_find? _ k, find?_updateKey, if_pos rfl, Option.map_map]
  unfold total
  rw [hrows]
  rfl

/-! ## The three forms of `INSERT` -/

/-- Append a row whose key is new. -/
private def append (t : Table R key) (r : R) (hr : key r ∉ t.rows.map key) :
    Table R key where
  rows := t.rows ++ [r]
  keysNodup := by
    rw [List.map_append, List.map_singleton]
    exact List.nodup_append.mpr ⟨t.keysNodup, List.nodup_singleton _, by
      intro a ha b hb hab
      rw [List.mem_singleton] at hb
      exact hr (hb ▸ hab ▸ ha)⟩

/-- `INSERT OR REPLACE`: a row with the same key goes first. -/
def insertOrReplace (t : Table R key) (r : R) : Table R key :=
  (t.deleteKey (key r)).append r (by
    intro hmem
    obtain ⟨s, hs, hkey⟩ := List.mem_map.mp hmem
    have hdel := (mem_deleteWhere.mp hs).2
    simp [hkey] at hdel)

theorem mem_insertOrReplace {t : Table R key} {r s : R} :
    s ∈ (t.insertOrReplace r).rows ↔ s = r ∨ s ∈ t.rows ∧ key s ≠ key r := by
  have hrows : (t.insertOrReplace r).rows = (t.deleteKey (key r)).rows ++ [r] := rfl
  rw [hrows, List.mem_append, List.mem_singleton, deleteKey, mem_deleteWhere]
  simp [or_comm]

theorem find?_insertOrReplace (t : Table R key) (r : R) (k : K) :
    (t.insertOrReplace r).find? k = if k = key r then some r else t.find? k := by
  by_cases hk : k = key r
  · subst hk
    rw [if_pos rfl, find?_eq_some_iff]
    exact ⟨mem_insertOrReplace.mpr (Or.inl rfl), rfl⟩
  · rw [if_neg hk]
    apply find?_congr
    intro s hkey
    have hne : key s ≠ key r := fun h => hk (hkey.symm.trans h)
    have hsr : s ≠ r := fun h => hne (h ▸ rfl)
    simp [mem_insertOrReplace, hne, hsr]

theorem total_insertOrReplace (t : Table R key) (r : R) (w : R → Nat) :
    (t.insertOrReplace r).total w = (t.deleteKey (key r)).total w + w r := by
  have hrows : (t.insertOrReplace r).rows = (t.deleteKey (key r)).rows ++ [r] := rfl
  unfold total
  rw [hrows]
  simp

/-- `INSERT OR IGNORE`: a row with the same key stays and wins. -/
def insertOrIgnore (t : Table R key) (r : R) : Table R key :=
  if h : key r ∈ t.rows.map key then t else t.append r h

theorem insertOrIgnore_of_find?_some {t : Table R key} {r s : R}
    (h : t.find? (key r) = some s) : t.insertOrIgnore r = t := by
  unfold insertOrIgnore
  obtain ⟨hs, hkey⟩ := find?_eq_some_iff.mp h
  rw [dif_pos (List.mem_map.mpr ⟨s, hs, hkey⟩)]

theorem insertOrIgnore_rows_of_find?_none {t : Table R key} {r : R}
    (h : t.find? (key r) = none) : (t.insertOrIgnore r).rows = t.rows ++ [r] := by
  unfold insertOrIgnore
  have hnew : key r ∉ t.rows.map key := by
    intro hmem
    obtain ⟨s, hs, hkey⟩ := List.mem_map.mp hmem
    exact find?_eq_none_iff.mp h s hs hkey
  rw [dif_neg hnew]
  rfl

theorem mem_insertOrIgnore {t : Table R key} {r s : R} :
    s ∈ (t.insertOrIgnore r).rows ↔
      s ∈ t.rows ∨ s = r ∧ t.find? (key r) = none := by
  cases hfind : t.find? (key r) with
  | none => simp [insertOrIgnore_rows_of_find?_none hfind]
  | some old => simp [insertOrIgnore_of_find?_some hfind]

theorem find?_insertOrIgnore (t : Table R key) (r : R) (k : K) :
    (t.insertOrIgnore r).find? k =
      if k = key r then some ((t.find? k).getD r) else t.find? k := by
  by_cases hk : k = key r
  · subst hk
    rw [if_pos rfl]
    cases hfind : t.find? (key r) with
    | none =>
        rw [find?_eq_some_iff]
        exact ⟨mem_insertOrIgnore.mpr (Or.inr ⟨rfl, hfind⟩), rfl⟩
    | some old =>
        rw [insertOrIgnore_of_find?_some hfind, hfind]
        rfl
  · rw [if_neg hk]
    apply find?_congr
    intro s hkey
    have hsr : s ≠ r := fun h => hk (hkey.symm.trans (h ▸ rfl))
    simp [mem_insertOrIgnore, hsr]

/-- The number of rows that `INSERT OR IGNORE` reports as inserted. -/
def insertOrIgnoreCount (t : Table R key) (r : R) : Nat :=
  if key r ∈ t.rows.map key then 0 else 1

theorem insertOrIgnoreCount_pos {t : Table R key} {r : R} :
    0 < t.insertOrIgnoreCount r ↔ t.find? (key r) = none := by
  unfold insertOrIgnoreCount
  rw [find?_eq_none_iff]
  by_cases hmem : key r ∈ t.rows.map key
  · rw [if_pos hmem]
    obtain ⟨s, hs, hkey⟩ := List.mem_map.mp hmem
    simp only [lt_self_iff_false, false_iff]
    intro hall
    exact hall s hs hkey
  · rw [if_neg hmem]
    simp only [Nat.lt_one_iff, pos_of_gt, true_iff]
    intro s hs hkey
    exact hmem (List.mem_map.mpr ⟨s, hs, hkey⟩)

theorem countWhere_insertOrIgnore (t : Table R key) (r : R) (p : R → Bool) :
    (t.insertOrIgnore r).countWhere p =
      t.countWhere p + if t.find? (key r) = none ∧ p r = true then 1 else 0 := by
  cases hfind : t.find? (key r) with
  | none =>
      unfold countWhere
      rw [insertOrIgnore_rows_of_find?_none hfind, List.countP_append]
      by_cases hp : p r = true <;> simp [hp]
  | some old => simp [insertOrIgnore_of_find?_some hfind]

/-- `INSERT .. ON CONFLICT(key) DO UPDATE SET f`: a row with the same key is
updated in place, otherwise `r` is appended. -/
def upsert (t : Table R key) (r : R) (f : R → R)
    (hf : ∀ s, key (f s) = key s) : Table R key :=
  if key r ∈ t.rows.map key then t.updateKey (key r) f hf else t.insertOrIgnore r

/-- The row that an `upsert` leaves under its key. -/
def upserted (t : Table R key) (r : R) (f : R → R) : R :=
  match t.find? (key r) with
  | some old => f old
  | none => r

theorem key_upserted (t : Table R key) (r : R) (f : R → R)
    (hf : ∀ s, key (f s) = key s) : key (t.upserted r f) = key r := by
  unfold upserted
  cases hfind : t.find? (key r) with
  | none => rfl
  | some old => exact (hf old).trans (key_of_find? hfind)

theorem mem_upsert {t : Table R key} {r s : R} {f : R → R}
    {hf : ∀ s, key (f s) = key s} :
    s ∈ (t.upsert r f hf).rows ↔
      s = t.upserted r f ∨ s ∈ t.rows ∧ key s ≠ key r := by
  unfold upsert upserted
  cases hfind : t.find? (key r) with
  | none =>
      have hnone := find?_eq_none_iff.mp hfind
      have hnew : key r ∉ t.rows.map key := by
        intro hmem
        obtain ⟨u, hu, hkey⟩ := List.mem_map.mp hmem
        exact hnone u hu hkey
      rw [if_neg hnew, mem_insertOrIgnore, hfind]
      constructor
      · rintro (hs | ⟨hs, -⟩)
        · exact Or.inr ⟨hs, hnone s hs⟩
        · exact Or.inl hs
      · rintro (hs | ⟨hs, -⟩)
        · exact Or.inr ⟨hs, rfl⟩
        · exact Or.inl hs
  | some old =>
      obtain ⟨hold, holdKey⟩ := find?_eq_some_iff.mp hfind
      rw [if_pos (List.mem_map.mpr ⟨old, hold, holdKey⟩), updateKey, mem_updateWhere]
      constructor
      · rintro ⟨u, hu, hus⟩
        by_cases hkey : key u = key r
        · have huold : u = old := t.eq_of_key_eq hu hold (hkey.trans holdKey.symm)
          subst huold
          exact Or.inl (by simpa [hkey] using hus.symm)
        · have hsu : u = s := by simpa [hkey] using hus
          exact Or.inr ⟨hsu ▸ hu, hsu ▸ hkey⟩
      · rintro (hs | ⟨hs, hkey⟩)
        · exact ⟨old, hold, by simp [holdKey, hs]⟩
        · exact ⟨s, hs, by simp [hkey]⟩

end KeyComparison

end Table

end Relational
end CyfsNdn
