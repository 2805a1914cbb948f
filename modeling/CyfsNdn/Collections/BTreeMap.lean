import CyfsNdn.Collections.SortedMap

/-!
# Ordered maps

A map that has its entries in the order of their keys.  Each operation has one rule that
says what the map has for a key afterwards.
-/

namespace CyfsNdn
namespace Collections

/-- `BTreeMap<κ, α>`. -/
structure BTreeMap (κ α : Type) [LinearOrder κ] where
  entries : List (κ × α)
  sorted : KeySorted entries

namespace BTreeMap

variable {κ α β : Type} [LinearOrder κ]

/-- A map with nothing in it. -/
def empty : BTreeMap κ α := ⟨[], List.Pairwise.nil⟩

/-- The value of a key. -/
def get? (m : BTreeMap κ α) (key : κ) : Option α := m.entries.lookup key

/-- The map with a value for a key. -/
def insert (m : BTreeMap κ α) (key : κ) (value : α) : BTreeMap κ α :=
  ⟨insertKey key value m.entries, m.sorted.insertKey key value⟩

/-- The map without a key. -/
def remove (m : BTreeMap κ α) (key : κ) : BTreeMap κ α where
  entries := m.entries.filter fun e => e.1 ≠ key
  sorted := m.sorted.sublist (List.filter_sublist.map Prod.fst)

/-- The map with each of the pairs put in, in turn. -/
def extend (m : BTreeMap κ α) (pairs : List (κ × α)) : BTreeMap κ α :=
  pairs.foldl (fun m e => m.insert e.1 e.2) m

@[simp] theorem get?_empty (key : κ) : (empty : BTreeMap κ α).get? key = none := rfl

theorem get?_insert (m : BTreeMap κ α) (key key' : κ) (value : α) :
    (m.insert key value).get? key' = if key' = key then some value else m.get? key' :=
  lookup_insertKey m.sorted key key' value

theorem get?_eq_some_iff {m : BTreeMap κ α} {key : κ} {value : α} :
    m.get? key = some value ↔ (key, value) ∈ m.entries :=
  lookup_eq_some_iff_mem m.sorted.nodup

theorem get?_remove (m : BTreeMap κ α) (key key' : κ) :
    (m.remove key).get? key' = if key' = key then none else m.get? key' := by
  apply Option.ext
  intro value
  rw [get?_eq_some_iff]
  show (key', value) ∈ m.entries.filter (fun e => e.1 ≠ key) ↔ _
  rw [List.mem_filter, ← get?_eq_some_iff]
  by_cases hkey : key' = key
  · simp [hkey]
  · simp [hkey]

theorem get?_extend {m : BTreeMap κ α} {pairs : List (κ × α)} (h : (pairs.map Prod.fst).Nodup)
    (key : κ) : (m.extend pairs).get? key = (pairs.lookup key).or (m.get? key) := by
  induction pairs generalizing m with
  | nil => rfl
  | cons e pairs ih =>
      rw [List.map_cons, List.nodup_cons] at h
      show ((m.insert e.1 e.2).extend pairs).get? key = _
      rw [ih h.2, get?_insert, List.lookup_cons]
      by_cases hkey : key = e.1
      · subst hkey
        have hnone : pairs.lookup e.1 = none := by
          rw [List.lookup_eq_none_iff]
          intro p hp
          have hne : e.1 ≠ p.1 := fun heq => h.1 (heq ▸ List.mem_map_of_mem hp)
          simpa using hne
        simp [hnone]
      · have hbeq : (key == e.1) = false := by simpa using hkey
        simp [hkey, hbeq]

end BTreeMap

end Collections
end CyfsNdn
