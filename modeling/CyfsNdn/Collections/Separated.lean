import Mathlib.Data.List.Basic
import Mathlib.Tactic

/-!
# Parts between separators

What `split` gives is told by the text: so many parts without the separator, and one separator
between any two.
-/

namespace CyfsNdn
namespace Collections

variable {α : Type} [DecidableEq α] {a : α} {xs : List α}

/-- One part: there is no separator. -/
theorem splitOn_eq_singleton_iff {p : List α} : xs.splitOn a = [p] ↔ xs = p ∧ a ∉ p := by
  constructor
  · intro h
    by_cases hmem : a ∈ xs
    · obtain ⟨first, rest, rfl, hfirst⟩ := List.eq_append_cons_of_mem hmem
      rw [List.splitOn_append_cons_self_of_not_mem hfirst, List.cons.injEq] at h
      exact absurd h.2 (List.splitOn_ne_nil a rest)
    · rw [List.splitOn_eq_singleton hmem, List.cons.injEq] at h
      exact ⟨h.1, h.1 ▸ hmem⟩
  · rintro ⟨rfl, hmem⟩
    exact List.splitOn_eq_singleton hmem

/-- More parts: the first one ends at the first separator. -/
theorem splitOn_eq_cons_cons_iff {p q : List α} {parts : List (List α)} :
    xs.splitOn a = p :: q :: parts ↔
      ∃ ys, xs = p ++ a :: ys ∧ a ∉ p ∧ ys.splitOn a = q :: parts := by
  constructor
  · intro h
    by_cases hmem : a ∈ xs
    · obtain ⟨first, rest, rfl, hfirst⟩ := List.eq_append_cons_of_mem hmem
      rw [List.splitOn_append_cons_self_of_not_mem hfirst, List.cons.injEq] at h
      obtain ⟨rfl, hrest⟩ := h
      exact ⟨rest, rfl, hfirst, hrest⟩
    · rw [List.splitOn_eq_singleton hmem] at h
      simp at h
  · rintro ⟨ys, rfl, hp, hys⟩
    rw [List.splitOn_append_cons_self_of_not_mem hp, hys]

theorem splitOn_eq_pair_iff {p q : List α} :
    xs.splitOn a = [p, q] ↔ xs = p ++ a :: q ∧ a ∉ p ∧ a ∉ q := by
  simp only [splitOn_eq_cons_cons_iff, splitOn_eq_singleton_iff]
  constructor
  · rintro ⟨ys, hxs, hp, rfl, hq⟩
    exact ⟨hxs, hp, hq⟩
  · rintro ⟨hxs, hp, hq⟩
    exact ⟨q, hxs, hp, rfl, hq⟩

theorem splitOn_eq_triple_iff {p q r : List α} :
    xs.splitOn a = [p, q, r] ↔ xs = p ++ a :: (q ++ a :: r) ∧ a ∉ p ∧ a ∉ q ∧ a ∉ r := by
  rw [splitOn_eq_cons_cons_iff]
  simp only [splitOn_eq_pair_iff]
  constructor
  · rintro ⟨ys, hxs, hp, rfl, hq, hr⟩
    exact ⟨hxs, hp, hq, hr⟩
  · rintro ⟨hxs, hp, hq, hr⟩
    exact ⟨_, hxs, hp, rfl, hq, hr⟩

/-- A text with one separator is cut there in one way only. -/
theorem append_cons_inj_of_pair {p q ys : List α} (h : xs ++ a :: ys = p ++ a :: q)
    (hp : a ∉ p) (hq : a ∉ q) : xs = p ∧ ys = q := by
  have hparts : xs.splitOn a ++ ys.splitOn a = [p, q] := by
    rw [← List.splitOn_append_cons_self, h]
    exact splitOn_eq_pair_iff.mpr ⟨rfl, hp, hq⟩
  rcases hxs : xs.splitOn a with _ | ⟨u, _ | ⟨v, rest⟩⟩
  · exact absurd hxs (List.splitOn_ne_nil a xs)
  · rw [hxs, List.singleton_append, List.cons.injEq] at hparts
    obtain ⟨rfl, hys⟩ := hparts
    exact ⟨(splitOn_eq_singleton_iff.mp hxs).1, (splitOn_eq_singleton_iff.mp hys).1⟩
  · -- Nothing would be left for the second part.
    simp [hxs] at hparts

end Collections
end CyfsNdn
