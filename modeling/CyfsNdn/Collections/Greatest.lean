import Mathlib.Data.List.MinMax
import Mathlib.Tactic

/-!
# The item with the greatest key

A loop that keeps one item until it meets another with a greater key, where the order of the
keys is a comparison function.  The kept item has a greatest key.  In a total order, where no
two items have the same key, it is told by the members of the list alone.  In a total preorder
it is told up to a comparison as equal, whatever the order of the items.
-/

namespace CyfsNdn
namespace Collections

variable {κ α : Type} (cmp : κ → κ → Ordering)

/-- The item that is kept after all others were met. -/
def greatest (items : List (κ × α)) : Option (κ × α) :=
  items.foldl (List.argAux fun x y => cmp x.1 y.1 = .gt) none

/-- An item of the list, and none of the list has a greater key. -/
def IsGreatest (items : List (κ × α)) (g : κ × α) : Prop :=
  g ∈ items ∧ ∀ x ∈ items, cmp x.1 g.1 ≠ .gt

variable {cmp}

@[simp] theorem greatest_eq_none {items : List (κ × α)} :
    greatest cmp items = none ↔ items = [] := by
  simp [greatest]

theorem greatest_concat (items : List (κ × α)) (x : κ × α) :
    greatest cmp (items ++ [x]) =
      List.argAux (fun x y => cmp x.1 y.1 = .gt) (greatest cmp items) x := by
  simp [greatest]

theorem mem_of_greatest {items : List (κ × α)} {g : κ × α}
    (hg : greatest cmp items = some g) : g ∈ items := by
  induction items using List.reverseRecOn with
  | nil => exact absurd hg (by simp [greatest])
  | append_singleton items x ih =>
      rw [greatest_concat] at hg
      cases hbest : greatest cmp items with
      | none =>
          rw [hbest] at hg
          cases hg
          simp
      | some b =>
          rw [hbest] at hg
          simp only [List.argAux] at hg
          split_ifs at hg
          · cases hg
            simp
          · cases hg
            exact List.mem_append_left _ (ih hbest)

/-- On a set of keys the comparison is a total preorder. -/
structure PreorderOn (cmp : κ → κ → Ordering) (U : Set κ) : Prop where
  refl : ∀ x ∈ U, cmp x x = .eq
  swap : ∀ x ∈ U, ∀ y ∈ U, cmp x y = (cmp y x).swap
  trans : ∀ x ∈ U, ∀ y ∈ U, ∀ z ∈ U, cmp x y ≠ .gt → cmp y z ≠ .gt → cmp x z ≠ .gt

theorem preorderOn_of_transCmp [Std.TransCmp cmp] (U : Set κ) : PreorderOn cmp U where
  refl := fun _ _ => Std.ReflCmp.compare_self
  swap := fun _ _ _ _ => Std.OrientedCmp.eq_swap
  trans := fun _ _ _ _ _ _ hxy hyz => Ordering.isLE_iff_ne_gt.mp <|
    Std.TransCmp.isLE_trans (Ordering.ne_gt_iff_isLE.mp hxy) (Ordering.ne_gt_iff_isLE.mp hyz)

namespace PreorderOn

variable {U : Set κ}

theorem isGreatest (h : PreorderOn cmp U) {items : List (κ × α)} {g : κ × α}
    (hU : ∀ x ∈ items, x.1 ∈ U) (hg : greatest cmp items = some g) : IsGreatest cmp items g := by
  refine ⟨mem_of_greatest hg, ?_⟩
  induction items using List.reverseRecOn generalizing g with
  | nil => exact fun _ hx => nomatch hx
  | append_singleton items x ih =>
      have hitems : ∀ y ∈ items, y.1 ∈ U := fun y hy => hU y (List.mem_append_left _ hy)
      have hx : x.1 ∈ U := hU x (by simp)
      rw [greatest_concat] at hg
      cases hbest : greatest cmp items with
      | none =>
          rw [hbest] at hg
          cases hg
          rw [greatest_eq_none.mp hbest]
          simp [h.refl _ hx]
      | some b =>
          have hb : b.1 ∈ U := hitems b (mem_of_greatest hbest)
          have htop := ih hitems hbest
          rw [hbest] at hg
          simp only [List.argAux] at hg
          intro y hy
          rw [List.mem_append, List.mem_singleton] at hy
          split_ifs at hg with hgt
          · -- The new item is above the one that was kept, and so above all others.
            cases hg
            rcases hy with hy | rfl
            · have hle : cmp b.1 x.1 ≠ .gt := by
                rw [h.swap _ hb _ hx, hgt]
                decide
              exact h.trans _ (hitems y hy) _ hb _ hx (htop y hy) hle
            · simp [h.refl _ hx]
          · cases hg
            rcases hy with hy | rfl
            · exact htop y hy
            · exact hgt

/-- Whatever the order of the items, the kept one compares as equal. -/
theorem greatest_perm (h : PreorderOn cmp U) {items items' : List (κ × α)} {g g' : κ × α}
    (hU : ∀ x ∈ items, x.1 ∈ U) (hperm : items.Perm items')
    (hg : greatest cmp items = some g) (hg' : greatest cmp items' = some g') :
    cmp g.1 g'.1 = .eq := by
  have hU' : ∀ x ∈ items', x.1 ∈ U := fun x hx => hU x (hperm.mem_iff.mpr hx)
  obtain ⟨hmem, htop⟩ := h.isGreatest hU hg
  obtain ⟨hmem', htop'⟩ := h.isGreatest hU' hg'
  have hle : cmp g'.1 g.1 ≠ .gt := htop g' (hperm.mem_iff.mpr hmem')
  have hle' : cmp g.1 g'.1 ≠ .gt := htop' g (hperm.mem_iff.mp hmem)
  rw [h.swap _ (hU g hmem) _ (hU' g' hmem')] at hle' ⊢
  revert hle hle'
  cases cmp g'.1 g.1 <;> decide

end PreorderOn

theorem isGreatest_of_greatest [Std.TransCmp cmp] {items : List (κ × α)} {g : κ × α}
    (hg : greatest cmp items = some g) : IsGreatest cmp items g :=
  (preorderOn_of_transCmp Set.univ).isGreatest (fun _ _ => Set.mem_univ _) hg

/-- In a total order two greatest items have one key. -/
theorem IsGreatest.key_eq [Std.TransCmp cmp] [Std.LawfulEqCmp cmp] {items : List (κ × α)}
    {g h : κ × α} (hg : IsGreatest cmp items g) (hh : IsGreatest cmp items h) : g.1 = h.1 := by
  cases hcmp : cmp g.1 h.1 with
  | eq => exact Std.LawfulEqCmp.eq_of_compare hcmp
  | gt => exact absurd hcmp (hh.2 g hg.1)
  | lt => exact absurd (Std.OrientedCmp.gt_of_lt hcmp) (hg.2 h hh.1)

theorem greatest_eq_some_iff [Std.TransCmp cmp] [Std.LawfulEqCmp cmp] {items : List (κ × α)}
    (hkeys : ∀ x ∈ items, ∀ y ∈ items, x.1 = y.1 → x = y) {g : κ × α} :
    greatest cmp items = some g ↔ IsGreatest cmp items g := by
  constructor
  · exact isGreatest_of_greatest
  · intro hg
    cases hbest : greatest cmp items with
    | none =>
        rw [greatest_eq_none.mp hbest] at hg
        exact absurd hg.1 (by simp)
    | some b =>
        have hb := isGreatest_of_greatest hbest
        rw [hkeys b hb.1 g hg.1 (hb.key_eq hg)]

end Collections
end CyfsNdn
