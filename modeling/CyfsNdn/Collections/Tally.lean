import Mathlib.Data.List.Nodup
import Mathlib.Tactic

/-!
# Sums over the entries of a map

A map without an order is the list of its entries, every key once.  A tally adds up one
weight for every entry.  Taking an entry away lowers it by the weight of this entry.
-/

namespace CyfsNdn
namespace Collections

variable {κ α : Type} [DecidableEq κ]

/-- The entries without the one of a key. -/
def eraseKey (key : κ) (entries : List (κ × α)) : List (κ × α) :=
  entries.filter fun e => e.1 ≠ key

/-- The entries with this one for its key. -/
def putKey (key : κ) (value : α) (entries : List (κ × α)) : List (κ × α) :=
  (key, value) :: eraseKey key entries

theorem key_ne_of_mem_eraseKey {key : κ} {entries : List (κ × α)} {e : κ × α}
    (h : e ∈ eraseKey key entries) : e.1 ≠ key :=
  of_decide_eq_true (List.mem_filter.mp h).2

theorem nodup_eraseKey {entries : List (κ × α)} (h : (entries.map Prod.fst).Nodup) (key : κ) :
    ((eraseKey key entries).map Prod.fst).Nodup :=
  h.sublist (List.filter_sublist.map Prod.fst)

theorem nodup_putKey {entries : List (κ × α)} (h : (entries.map Prod.fst).Nodup) (key : κ)
    (value : α) : ((putKey key value entries).map Prod.fst).Nodup := by
  unfold putKey
  rw [List.map_cons, List.nodup_cons]
  refine ⟨fun hmem => ?_, nodup_eraseKey h key⟩
  obtain ⟨e, he, heq⟩ := List.mem_map.mp hmem
  exact key_ne_of_mem_eraseKey he heq

/-- A key that is not there is not taken away. -/
theorem eraseKey_of_not_mem {key : κ} {entries : List (κ × α)}
    (h : key ∉ entries.map Prod.fst) : eraseKey key entries = entries := by
  unfold eraseKey
  rw [List.filter_eq_self]
  intro e he
  exact decide_eq_true fun heq => h (heq ▸ List.mem_map_of_mem he)

theorem lookup_eraseKey_self (key : κ) (entries : List (κ × α)) :
    (eraseKey key entries).lookup key = none := by
  rw [List.lookup_eq_none_iff]
  intro e he
  simpa using Ne.symm (key_ne_of_mem_eraseKey he)

theorem lookup_eraseKey_of_ne {key key' : κ} (h : key' ≠ key) (entries : List (κ × α)) :
    (eraseKey key entries).lookup key' = entries.lookup key' := by
  unfold eraseKey
  induction entries with
  | nil => rfl
  | cons e rest ih =>
      obtain ⟨first, value⟩ := e
      by_cases hkey : first = key
      · subst hkey
        rw [List.filter_cons_of_neg (by simp), ih, List.lookup_cons,
          beq_eq_false_iff_ne.mpr h]
      · rw [List.filter_cons_of_pos (by simpa using hkey), List.lookup_cons, List.lookup_cons, ih]

theorem lookup_putKey (key key' : κ) (value : α) (entries : List (κ × α)) :
    (putKey key value entries).lookup key' =
      if key' = key then some value else entries.lookup key' := by
  unfold putKey
  rw [List.lookup_cons]
  by_cases h : key' = key
  · rw [if_pos h, beq_iff_eq.mpr h]
  · rw [if_neg h, beq_eq_false_iff_ne.mpr h]
    exact lookup_eraseKey_of_ne h entries

/-- Entries that are put one after the other, no key twice. -/
theorem lookup_foldl_putKey {entries : List (κ × α)} (h : (entries.map Prod.fst).Nodup)
    (start : List (κ × α)) (key : κ) :
    (entries.foldl (fun acc e => putKey e.1 e.2 acc) start).lookup key =
      (entries.lookup key).or (start.lookup key) := by
  induction entries generalizing start with
  | nil => rfl
  | cons e rest ih =>
      obtain ⟨first, value⟩ := e
      rw [List.map_cons, List.nodup_cons] at h
      rw [List.foldl_cons, ih h.2, lookup_putKey, List.lookup_cons]
      by_cases hkey : key = first
      · have hnone : rest.lookup first = none := by
          rw [List.lookup_eq_none_iff]
          intro e he
          have hne : first ≠ e.1 := fun heq => h.1 (List.mem_map.mpr ⟨e, he, heq.symm⟩)
          simpa using hne
        rw [hkey, hnone, if_pos rfl, beq_self_eq_true]
        rfl
      · rw [if_neg hkey, beq_eq_false_iff_ne.mpr hkey]

/-! ## Tallies -/

/-- The sum of the weights. -/
def tally (weight : κ × α → Nat) (entries : List (κ × α)) : Nat :=
  (entries.map weight).sum

omit [DecidableEq κ] in
theorem tally_cons (weight : κ × α → Nat) (e : κ × α) (entries : List (κ × α)) :
    tally weight (e :: entries) = weight e + tally weight entries := by
  unfold tally
  rw [List.map_cons, List.sum_cons]

omit [DecidableEq κ] in
theorem tally_congr {weight weight' : κ × α → Nat} {entries : List (κ × α)}
    (h : ∀ e ∈ entries, weight e = weight' e) : tally weight entries = tally weight' entries := by
  unfold tally
  rw [List.map_congr_left h]

/-- The weight of the entry of a key, if there is one. -/
def weightAt (weight : κ × α → Nat) (key : κ) (entries : List (κ × α)) : Nat :=
  (entries.lookup key).elim 0 fun value => weight (key, value)

/-- What is left, and the entry that was taken away. -/
theorem tally_eraseKey (weight : κ × α → Nat) {entries : List (κ × α)}
    (h : (entries.map Prod.fst).Nodup) (key : κ) :
    tally weight (eraseKey key entries) + weightAt weight key entries =
      tally weight entries := by
  induction entries with
  | nil => rfl
  | cons e rest ih =>
      obtain ⟨first, value⟩ := e
      rw [List.map_cons, List.nodup_cons] at h
      unfold weightAt
      rw [List.lookup_cons, tally_cons]
      by_cases hkey : first = key
      · subst hkey
        have hrest : eraseKey first ((first, value) :: rest) = rest := by
          unfold eraseKey
          rw [List.filter_cons_of_neg (by simp)]
          exact eraseKey_of_not_mem h.1
        rw [hrest, beq_self_eq_true]
        exact Nat.add_comm _ _
      · have hrest : eraseKey key ((first, value) :: rest) =
            (first, value) :: eraseKey key rest := by
          unfold eraseKey
          rw [List.filter_cons_of_pos (by simpa using hkey)]
        have hbeq : (key == first) = false := beq_eq_false_iff_ne.mpr (Ne.symm hkey)
        have hih := ih h.2
        unfold weightAt at hih
        rw [hrest, tally_cons, hbeq, Nat.add_assoc]
        dsimp only
        rw [hih]

/-- The new entry takes the place of the one that was there. -/
theorem tally_putKey {weight weight' : κ × α → Nat} {entries : List (κ × α)}
    (h : (entries.map Prod.fst).Nodup) {key : κ} (value : α)
    (hsame : ∀ e : κ × α, e.1 ≠ key → weight' e = weight e) :
    tally weight' (putKey key value entries) + weightAt weight key entries =
      weight' (key, value) + tally weight entries := by
  have hleft := tally_eraseKey weight h key
  unfold putKey
  rw [tally_cons, tally_congr fun e he => hsame e (key_ne_of_mem_eraseKey he)]
  omega

end Collections
end CyfsNdn
