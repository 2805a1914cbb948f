import Mathlib.Data.Nat.Basic
import Mathlib.Tactic

/-!
# The order of packed numbers

A number with a base and a rest below the base is compared as the pair of its two digits is.
Numbers packed from several fields compare field by field, by one use of the rule for each.
-/

namespace CyfsNdn
namespace Collections

/-- A common summand plays no part in a comparison. -/
theorem compare_add_right (a b c : Int) : compare (a + c) (b + c) = compare a b := by
  rcases lt_trichotomy a b with h | h | h
  · rw [Int.compare_eq_lt.mpr h, Int.compare_eq_lt]
    omega
  · rw [h, Int.compare_eq_eq.mpr rfl, Int.compare_eq_eq.mpr rfl]
  · rw [Int.compare_eq_gt.mpr h, Int.compare_eq_gt]
    omega

theorem compare_natCast (a b : Nat) : compare (a : Int) (b : Int) = compare a b := by
  rcases lt_trichotomy a b with h | h | h
  · rw [Nat.compare_eq_lt.mpr h, Int.compare_eq_lt]
    omega
  · rw [h, Int.compare_eq_eq.mpr rfl, Nat.compare_eq_eq.mpr rfl]
  · rw [Nat.compare_eq_gt.mpr h, Int.compare_eq_gt]
    omega

/-- The high digits decide, and where they are equal the low ones. -/
theorem compare_packed {base x y : Nat} (a b : Int) (hx : x < base) (hy : y < base) :
    compare (a * base + x) (b * base + y) = (compare a b).then (compare x y) := by
  have hstep : ∀ {c d : Int} {z t : Nat}, z < base → t < base → c < d →
      c * base + z < d * base + t := by
    intro c d z t hz _ hcd
    have hbase : (c + 1) * (base : Int) ≤ d * base :=
      mul_le_mul_of_nonneg_right (by omega) (by omega)
    rw [add_mul, one_mul] at hbase
    omega
  rcases lt_trichotomy a b with h | h | h
  · rw [Int.compare_eq_lt.mpr h, Int.compare_eq_lt.mpr (hstep hx hy h)]
    rfl
  · subst h
    rw [Int.compare_eq_eq.mpr rfl, add_comm _ (x : Int), add_comm _ (y : Int),
      compare_add_right, compare_natCast]
    rfl
  · rw [Int.compare_eq_gt.mpr h, Int.compare_eq_gt.mpr (hstep hy hx h)]
    rfl

end Collections
end CyfsNdn
