import CyfsNdn.Collections.BTreeMap

/-!
# Pages of an ordered map

A reader of an ordered map keeps the last key it was given, and the next page begins after
it.  Whatever the sizes of the pages are, together they are the map from its start on.
-/

namespace CyfsNdn
namespace Collections

/-- The cursor after the first so many entries. -/
def cursorAt {κ α : Type} (xs : List (κ × α)) (n : Nat) : Option κ :=
  (xs.take n).getLast?.map Prod.fst

namespace BTreeMap

variable {κ α : Type} [LinearOrder κ]

/-- What is left after a key, or everything. -/
def after (m : BTreeMap κ α) : Option κ → List (κ × α)
  | none => m.entries
  | some key => m.entries.filter fun e => key < e.1

/-- The next page, and the key after which the one after it begins. -/
def nextPage (m : BTreeMap κ α) (cursor : Option κ) (limit : Nat) :
    List (κ × α) × Option κ :=
  let page := (m.after cursor).take limit
  (page, (page.getLast?.map Prod.fst).or cursor)

/-- After the key of the last entry that was given comes the rest. -/
theorem after_cursorAt (m : BTreeMap κ α) (n : Nat) :
    m.after (cursorAt m.entries n) = m.entries.drop n := by
  have hsorted := m.sorted
  unfold cursorAt
  cases hlast : (m.entries.take n).getLast? with
  | none =>
      have hnil := List.getLast?_eq_none_iff.mp hlast
      have hdrop : m.entries.take n ++ m.entries.drop n = m.entries :=
        List.take_append_drop n m.entries
      rw [hnil, List.nil_append] at hdrop
      exact hdrop.symm
  | some e =>
      obtain ⟨front, hfront⟩ := List.getLast?_eq_some_iff.mp hlast
      have hsplit : m.entries = front ++ e :: m.entries.drop n := by
        conv_lhs => rw [← List.take_append_drop n m.entries, hfront]
        simp
      show m.entries.filter (fun e' => e.1 < e'.1) = m.entries.drop n
      generalize m.entries.drop n = rest at hsplit
      rw [hsplit] at hsorted ⊢
      unfold KeySorted at hsorted
      rw [List.map_append, List.map_cons, List.pairwise_append, List.pairwise_cons] at hsorted
      obtain ⟨-, ⟨hrest, -⟩, hbefore⟩ := hsorted
      have hnone : front.filter (fun e' => e.1 < e'.1) = [] := by
        rw [List.filter_eq_nil_iff]
        intro e' he'
        have hlt := hbefore e'.1 (List.mem_map_of_mem he') e.1 List.mem_cons_self
        simpa using le_of_lt hlt
      have hall : rest.filter (fun e' => e.1 < e'.1) = rest := by
        rw [List.filter_eq_self]
        intro e' he'
        simpa using hrest e'.1 (List.mem_map_of_mem he')
      rw [List.filter_append, hnone, List.nil_append, List.filter_cons_of_neg (by simp), hall]

/-- A page goes on where the last one ended. -/
theorem nextPage_cursorAt (m : BTreeMap κ α) (n limit : Nat) :
    m.nextPage (cursorAt m.entries n) limit =
      ((m.entries.drop n).take limit, cursorAt m.entries (n + limit)) := by
  unfold nextPage
  rw [after_cursorAt]
  have hcursor : ((((m.entries.drop n).take limit).getLast?.map Prod.fst).or
      (cursorAt m.entries n)) = cursorAt m.entries (n + limit) := by
    unfold cursorAt
    rw [List.take_add, List.getLast?_append]
    cases ((m.entries.drop n).take limit).getLast? <;> rfl
  dsimp only
  rw [hcursor]

end BTreeMap

end Collections
end CyfsNdn
