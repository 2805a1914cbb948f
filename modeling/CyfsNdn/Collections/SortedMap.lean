import Mathlib.Data.List.Sort
import Mathlib.Data.List.Nodup
import Mathlib.Tactic

/-!
# Maps as lists of entries

A map with an order on its keys is the list of its entries in this order, every key
once.  `sortKeys` brings the entries of a map that is not ordered into it.  What a map
says about a key does not depend on the order.
-/

namespace CyfsNdn
namespace Collections

variable {κ α β : Type}

theorem map_fst_map_snd (entries : List (κ × α)) (f : α → β) :
    (entries.map fun e => (e.1, f e.2)).map Prod.fst = entries.map Prod.fst := by
  rw [List.map_map]
  rfl

/-! ## Entries that are left out -/

/-- The entries that have a value. -/
def present (entries : List (κ × Option α)) : List (κ × α) :=
  entries.filterMap fun e => e.2.map (e.1, ·)

@[simp] theorem present_nil : present ([] : List (κ × Option α)) = [] := rfl

@[simp] theorem present_cons_none (key : κ) (rest : List (κ × Option α)) :
    present ((key, none) :: rest) = present rest := rfl

@[simp] theorem present_cons_some (key : κ) (value : α) (rest : List (κ × Option α)) :
    present ((key, some value) :: rest) = (key, value) :: present rest := rfl

theorem mem_present {entries : List (κ × Option α)} {e : κ × α} :
    e ∈ present entries ↔ (e.1, some e.2) ∈ entries := by
  obtain ⟨key, value⟩ := e
  simp [present]

theorem keys_present_sublist (entries : List (κ × Option α)) :
    ((present entries).map Prod.fst).Sublist (entries.map Prod.fst) := by
  induction entries with
  | nil => exact List.Sublist.slnil
  | cons e rest ih =>
      obtain ⟨key, value⟩ := e
      cases value with
      | none => exact ih.cons key
      | some value => exact ih.cons_cons key

/-! ## Order -/

section Order

variable [LinearOrder κ]

/-- The order of entries by their keys. -/
def keyLe (e e' : κ × α) : Prop := e.1 ≤ e'.1

instance : DecidableRel (keyLe (κ := κ) (α := α)) :=
  fun e e' => inferInstanceAs (Decidable (e.1 ≤ e'.1))

instance : Std.Total (keyLe (κ := κ) (α := α)) := ⟨fun e e' => le_total e.1 e'.1⟩

instance : IsTrans (κ × α) keyLe := ⟨fun _ _ _ h h' => le_trans h h'⟩

/-- The entries in the order of their keys. -/
def sortKeys (entries : List (κ × α)) : List (κ × α) :=
  entries.insertionSort keyLe

/-- Every key once, in ascending order. -/
def KeySorted (entries : List (κ × α)) : Prop :=
  (entries.map Prod.fst).Pairwise (· < ·)

theorem perm_sortKeys (entries : List (κ × α)) : (sortKeys entries).Perm entries :=
  List.perm_insertionSort keyLe entries

theorem keySorted_sortKeys {entries : List (κ × α)} (h : (entries.map Prod.fst).Nodup) :
    KeySorted (sortKeys entries) := by
  have hnodup : ((sortKeys entries).map Prod.fst).Nodup :=
    ((perm_sortKeys entries).map Prod.fst).nodup_iff.mpr h
  have hle : ((sortKeys entries).map Prod.fst).Pairwise (· ≤ ·) := by
    rw [List.pairwise_map]
    exact List.pairwise_insertionSort keyLe entries
  exact (hle.and hnodup).imp fun ⟨hle, hne⟩ => lt_of_le_of_ne hle hne

/-- Entries in order stay as they are. -/
theorem sortKeys_of_keySorted {entries : List (κ × α)} (h : KeySorted entries) :
    sortKeys entries = entries := by
  refine List.Pairwise.insertionSort_eq ?_
  exact (List.pairwise_map.mp h).imp fun hlt => le_of_lt hlt

/-- Only the keys decide the order. -/
theorem sortKeys_map_snd (entries : List (κ × α)) (f : α → β) :
    sortKeys (entries.map fun e => (e.1, f e.2)) =
      (sortKeys entries).map fun e => (e.1, f e.2) :=
  (List.map_insertionSort keyLe keyLe (fun e => (e.1, f e.2)) entries
    fun _ _ _ _ => Iff.rfl).symm

theorem sortKeys_sortKeys {entries : List (κ × α)} (h : (entries.map Prod.fst).Nodup) :
    sortKeys (sortKeys entries) = sortKeys entries :=
  sortKeys_of_keySorted (keySorted_sortKeys h)

theorem KeySorted.nodup {entries : List (κ × α)} (h : KeySorted entries) :
    (entries.map Prod.fst).Nodup :=
  h.imp fun hlt => ne_of_lt hlt

theorem KeySorted.tail {e : κ × α} {rest : List (κ × α)} (h : KeySorted (e :: rest)) :
    KeySorted rest :=
  (List.pairwise_cons.mp h).2

theorem KeySorted.lt_of_mem_tail {e e' : κ × α} {rest : List (κ × α)}
    (h : KeySorted (e :: rest)) (he : e' ∈ rest) : e.1 < e'.1 :=
  (List.pairwise_cons.mp h).1 e'.1 (List.mem_map_of_mem he)

/-- The map with this value for the key. -/
def insertKey (key : κ) (value : α) : List (κ × α) → List (κ × α)
  | [] => [(key, value)]
  | e :: rest =>
      if key < e.1 then (key, value) :: e :: rest
      else if key = e.1 then (key, value) :: rest
      else e :: insertKey key value rest

theorem mem_insertKey {key : κ} {value : α} {entries : List (κ × α)} {e : κ × α}
    (h : e ∈ insertKey key value entries) : e = (key, value) ∨ e ∈ entries := by
  induction entries with
  | nil => exact .inl (List.mem_singleton.mp h)
  | cons first rest ih =>
      unfold insertKey at h
      split_ifs at h
      · exact List.mem_cons.mp h
      · rcases List.mem_cons.mp h with rfl | hrest
        · exact .inl rfl
        · exact .inr (List.mem_cons_of_mem _ hrest)
      · rcases List.mem_cons.mp h with rfl | hrest
        · exact .inr List.mem_cons_self
        · exact (ih hrest).imp id (List.mem_cons_of_mem _)

theorem KeySorted.insertKey {entries : List (κ × α)} (h : KeySorted entries) (key : κ)
    (value : α) : KeySorted (insertKey key value entries) := by
  induction entries with
  | nil => exact List.pairwise_singleton _ _
  | cons first rest ih =>
      unfold Collections.insertKey
      split_ifs with hlt heq
      · refine List.pairwise_cons.mpr ⟨?_, h⟩
        intro k hk
        obtain ⟨e, he, rfl⟩ := List.mem_map.mp hk
        rcases List.mem_cons.mp he with rfl | he
        · exact hlt
        · exact hlt.trans (h.lt_of_mem_tail he)
      · exact heq ▸ h
      · refine List.pairwise_cons.mpr ⟨?_, ih h.tail⟩
        intro k hk
        obtain ⟨e, he, rfl⟩ := List.mem_map.mp hk
        rcases mem_insertKey he with rfl | he
        · exact lt_of_le_of_ne (not_lt.mp hlt) (Ne.symm heq)
        · exact h.lt_of_mem_tail he

theorem KeySorted.append {low high : List (κ × α)} (h : KeySorted (low ++ high)) :
    KeySorted low ∧ KeySorted high := by
  unfold KeySorted at h ⊢
  rw [List.map_append] at h
  exact ⟨(List.pairwise_append.mp h).1, (List.pairwise_append.mp h).2.1⟩

/-- A key after all others comes last. -/
theorem insertKey_of_forall_lt {key : κ} {value : α} {entries : List (κ × α)}
    (h : ∀ e ∈ entries, e.1 < key) : insertKey key value entries = entries ++ [(key, value)] := by
  induction entries with
  | nil => rfl
  | cons first rest ih =>
      have hfirst := h first List.mem_cons_self
      unfold insertKey
      rw [if_neg (not_lt.mpr (le_of_lt hfirst)), if_neg (ne_of_gt hfirst),
        ih fun e he => h e (List.mem_cons_of_mem _ he)]
      rfl

end Order

/-! ## What a map says -/

section Lookup

variable [BEq κ] [LawfulBEq κ]

/-- Where every key stands once, an entry is what the map says about its key. -/
theorem lookup_eq_some_iff_mem {entries : List (κ × α)} (h : (entries.map Prod.fst).Nodup)
    {key : κ} {value : α} : entries.lookup key = some value ↔ (key, value) ∈ entries := by
  induction entries with
  | nil => simp
  | cons e rest ih =>
      obtain ⟨k, v⟩ := e
      rw [List.map_cons, List.nodup_cons] at h
      obtain ⟨hfresh, hrest⟩ := h
      rw [List.lookup_cons, List.mem_cons]
      by_cases hkey : key = k
      · subst hkey
        have hnot : (key, value) ∉ rest := fun hmem =>
          hfresh (List.mem_map.mpr ⟨(key, value), hmem, rfl⟩)
        simp [hnot, eq_comm]
      · have hbeq : (key == k) = false := by simpa using hkey
        rw [hbeq]
        simp [hkey, ih hrest]

/-- What a map says about a key does not depend on the order of its entries. -/
theorem lookup_eq_of_perm {entries entries' : List (κ × α)} (hperm : entries.Perm entries')
    (h : (entries.map Prod.fst).Nodup) (key : κ) :
    entries.lookup key = entries'.lookup key := by
  have h' : (entries'.map Prod.fst).Nodup := (hperm.map Prod.fst).nodup_iff.mp h
  refine Option.ext fun value => ?_
  rw [lookup_eq_some_iff_mem h, lookup_eq_some_iff_mem h', hperm.mem_iff]

theorem lookup_sortKeys [LinearOrder κ] {entries : List (κ × α)} (h : (entries.map Prod.fst).Nodup) (key : κ) :
    (sortKeys entries).lookup key = entries.lookup key :=
  (lookup_eq_of_perm (perm_sortKeys entries).symm h key).symm

/-- A key that has a value is changed alone. -/
theorem lookup_insertKey [LinearOrder κ] {entries : List (κ × α)} (h : KeySorted entries)
    (key key' : κ) (value : α) :
    (insertKey key value entries).lookup key' =
      if key' = key then some value else entries.lookup key' := by
  have hmem : (key, value) ∈ insertKey key value entries := by
    clear h
    induction entries with
    | nil => exact List.mem_singleton.mpr rfl
    | cons first rest ih =>
        unfold insertKey
        split_ifs
        · exact List.mem_cons_self
        · exact List.mem_cons_self
        · exact List.mem_cons_of_mem _ ih
  have hold : ∀ e ∈ entries, e.1 ≠ key → e ∈ insertKey key value entries := by
    clear h hmem
    induction entries with
    | nil => exact nofun
    | cons first rest ih =>
        intro e he hne
        unfold insertKey
        rcases List.mem_cons.mp he with rfl | he
        · split_ifs with hlt heq
          · exact List.mem_cons_of_mem _ List.mem_cons_self
          · exact absurd heq.symm hne
          · exact List.mem_cons_self
        · split_ifs
          · exact List.mem_cons_of_mem _ (List.mem_cons_of_mem _ he)
          · exact List.mem_cons_of_mem _ he
          · exact List.mem_cons_of_mem _ (ih e he hne)
  have hnodup := (h.insertKey key value).nodup
  by_cases hkey : key' = key
  · subst hkey
    rw [if_pos rfl]
    exact (lookup_eq_some_iff_mem hnodup).mpr hmem
  · rw [if_neg hkey]
    refine Option.ext fun v => ?_
    rw [lookup_eq_some_iff_mem hnodup, lookup_eq_some_iff_mem h.nodup]
    constructor
    · intro hv
      rcases mem_insertKey hv with heq | hv
      · exact absurd (congrArg Prod.fst heq) hkey
      · exact hv
    · exact fun hv => hold _ hv hkey

/-- What the entries that have a value say about a key. -/
theorem lookup_present {entries : List (κ × Option α)} (h : (entries.map Prod.fst).Nodup)
    (key : κ) : (present entries).lookup key = (entries.lookup key).join := by
  induction entries with
  | nil => rfl
  | cons e rest ih =>
      obtain ⟨k, value⟩ := e
      rw [List.map_cons, List.nodup_cons] at h
      obtain ⟨hfresh, hrest⟩ := h
      have hih := ih hrest
      rw [List.lookup_cons]
      by_cases hkey : key = k
      · subst hkey
        have hnone : rest.lookup key = none := by
          rw [List.lookup_eq_none_iff]
          intro e he
          have hne : key ≠ e.1 := fun heq => hfresh (List.mem_map.mpr ⟨e, he, heq.symm⟩)
          simpa using hne
        cases value with
        | none =>
            rw [present_cons_none, hih, hnone]
            simp
        | some value => simp
      · have hbeq : (key == k) = false := by simpa using hkey
        rw [hbeq]
        cases value with
        | none => exact hih
        | some value =>
            rw [present_cons_some, List.lookup_cons, hbeq]
            exact hih

end Lookup

end Collections
end CyfsNdn
