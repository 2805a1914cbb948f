import CyfsNdn.Collections.Greatest

/-!
# A comparison mixed from several orders

Any two items are compared in the order that is chosen for the pair.  Each order is a total
preorder.  The mixture is one on a set exactly if it is on any three items of it, and
`Compatible` says what this asks of three items whose pairs are not all compared in one order.
-/

namespace CyfsNdn
namespace Collections

/-! ## Three comparisons -/

/-- The third item lies above or below both others, or these compare as they do through it. -/
def FitTogether (xy xz zy : Ordering) : Prop :=
  (xz ≠ .eq ∧ zy = xz.swap) ∨ xy = xz.then zy

instance (xy xz zy : Ordering) : Decidable (FitTogether xy xz zy) :=
  inferInstanceAs (Decidable (_ ∨ _))

/-- The last two items change places. -/
theorem FitTogether.exchange {xy xz zy : Ordering} (h : FitTogether xz xy zy.swap) :
    FitTogether xy xz zy := by
  revert h
  cases xy <;> cases xz <;> cases zy <;> decide

/-- The first item becomes the last one. -/
theorem FitTogether.rotate {xy xz zy : Ordering} (h : FitTogether zy.swap xy.swap xz) :
    FitTogether xy xz zy := by
  revert h
  cases xy <;> cases xz <;> cases zy <;> decide

variable {κ : Type}

/-- The third item lies above both others, or below both. -/
def Outside (cmp : κ → κ → Ordering) (x y z : κ) : Prop :=
  cmp x z ≠ .eq ∧ cmp y z = cmp x z

instance (cmp : κ → κ → Ordering) (x y z : κ) : Decidable (Outside cmp x y z) :=
  inferInstanceAs (Decidable (_ ∧ _))

namespace PreorderOn

variable {cmp : κ → κ → Ordering} {U : Set κ}

theorem fitTogether (h : PreorderOn cmp U) {x y z : κ} (hx : x ∈ U) (hy : y ∈ U) (hz : z ∈ U) :
    FitTogether (cmp x y) (cmp x z) (cmp z y) := by
  have hxyz := h.trans x hx z hz y hy
  have hyzx := h.trans y hy z hz x hx
  have hxzy := h.trans x hx y hy z hz
  have hzyx := h.trans z hz y hy x hx
  have hyxz := h.trans y hy x hx z hz
  have hzxy := h.trans z hz x hx y hy
  rw [h.swap y hy z hz, h.swap z hz x hx, h.swap y hy x hx] at *
  revert hxyz hyzx hxzy hzyx hyxz hzxy
  unfold FitTogether
  cases cmp x y <;> cases cmp x z <;> cases cmp z y <;> simp

/-- Three items at a time are enough. -/
theorem iff_fitTogether (hrefl : ∀ x ∈ U, cmp x x = .eq)
    (hswap : ∀ x ∈ U, ∀ y ∈ U, cmp x y = (cmp y x).swap) :
    PreorderOn cmp U ↔ ∀ x ∈ U, ∀ y ∈ U, ∀ z ∈ U,
      FitTogether (cmp x y) (cmp x z) (cmp z y) := by
  constructor
  · exact fun h x hx y hy z hz => h.fitTogether hx hy hz
  · intro hfit
    refine ⟨hrefl, hswap, ?_⟩
    intro x hx y hy z hz hxy hyz
    have hthree := hfit x hx z hz y hy
    revert hthree hxy hyz
    cases cmp x z <;> cases cmp x y <;> cases cmp y z <;> decide

end PreorderOn

/-! ## The mixture -/

variable {ι : Type} (order : ι → κ → κ → Ordering) (choose : κ → κ → ι)

/-- The comparison in the order of the pair. -/
def mixed (x y : κ) : Ordering := order (choose x y) x y

/-- Where the third item is compared with both others in one order, it lies outside of them, or
they have the same comparison in that order and in their own.  Where all three pairs have
orders of their own, the comparisons fit together. -/
def Compatible [DecidableEq ι] (x y z : κ) : Prop :=
  if choose x z = choose y z then
    Outside (order (choose x z)) x y z ∨ order (choose x z) x y = order (choose x y) x y
  else if choose x y ≠ choose x z ∧ choose x y ≠ choose y z then
    FitTogether (order (choose x y) x y) (order (choose x z) x z) (order (choose y z) z y)
  else True

instance [DecidableEq ι] (x y z : κ) : Decidable (Compatible order choose x y z) :=
  inferInstanceAs <| Decidable <|
    if choose x z = choose y z then
      Outside (order (choose x z)) x y z ∨ order (choose x z) x y = order (choose x y) x y
    else if choose x y ≠ choose x z ∧ choose x y ≠ choose y z then
      FitTogether (order (choose x y) x y) (order (choose x z) x z) (order (choose y z) z y)
    else True

variable {order choose}

/-- Three items whose pairs are all compared in one order are compatible. -/
theorem Compatible.of_one_order [DecidableEq ι] {x y z : κ} (hxy : choose x y = choose x z)
    (hyz : choose y z = choose x z) : Compatible order choose x y z := by
  unfold Compatible
  rw [if_pos hyz.symm, hxy]
  exact Or.inr rfl

variable [∀ i, Std.TransCmp (order i)]

theorem mixed_self (x : κ) : mixed order choose x x = .eq := by
  show order (choose x x) x x = .eq
  exact Std.ReflCmp.compare_self

variable (hsymm : ∀ x y, choose x y = choose y x)
include hsymm

theorem mixed_swap (x y : κ) : mixed order choose x y = (mixed order choose y x).swap := by
  unfold mixed
  rw [hsymm y x]
  exact Std.OrientedCmp.eq_swap

theorem fitTogether_iff_of_eq {x y z : κ} (hz : choose x z = choose y z) :
    FitTogether (mixed order choose x y) (mixed order choose x z) (mixed order choose z y) ↔
      Outside (order (choose x z)) x y z ∨
        order (choose x z) x y = order (choose x y) x y := by
  have hown : FitTogether (order (choose x z) x y) (order (choose x z) x z)
      (order (choose x z) z y) :=
    (preorderOn_of_transCmp Set.univ).fitTogether (Set.mem_univ x) (Set.mem_univ y)
      (Set.mem_univ z)
  have hyz : order (choose x z) y z = (order (choose x z) z y).swap := Std.OrientedCmp.eq_swap
  unfold mixed Outside
  rw [hsymm z y, ← hz, hyz]
  revert hown
  generalize order (choose x y) x y = xy
  generalize order (choose x z) x y = xy'
  cases order (choose x z) x z <;> cases order (choose x z) z y <;> revert xy xy' <;> decide

theorem compatible_of_fitTogether [DecidableEq ι] {x y z : κ}
    (hfit : FitTogether (mixed order choose x y) (mixed order choose x z)
      (mixed order choose z y)) :
    Compatible order choose x y z := by
  unfold Compatible
  split_ifs with hz hxy
  · exact (fitTogether_iff_of_eq hsymm hz).mp hfit
  · rw [hsymm y z]
    exact hfit

/-- The mixture is a total preorder on a set exactly if any three items of it are
compatible. -/
theorem mixed_preorderOn_iff [DecidableEq ι] (U : Set κ) :
    PreorderOn (mixed order choose) U ↔
      ∀ x ∈ U, ∀ y ∈ U, ∀ z ∈ U, Compatible order choose x y z := by
  rw [PreorderOn.iff_fitTogether (fun x _ => mixed_self x) fun x _ y _ => mixed_swap hsymm x y]
  constructor
  · intro hfit x hx y hy z hz
    exact compatible_of_fitTogether hsymm (hfit x hx y hy z hz)
  · intro hcompatible x hx y hy z hz
    by_cases hxz : choose x z = choose y z
    · have h := hcompatible x hx y hy z hz
      rw [Compatible, if_pos hxz] at h
      exact (fitTogether_iff_of_eq hsymm hxz).mpr h
    by_cases hxy : choose x y = choose x z
    · -- The first item has one order with both others.
      have hpair : choose y x = choose z x := by rw [hsymm y x, hsymm z x, hxy]
      have h := hcompatible y hy z hz x hx
      rw [Compatible, if_pos hpair] at h
      have hfit := (fitTogether_iff_of_eq hsymm hpair).mpr h
      rw [mixed_swap hsymm y z, mixed_swap hsymm y x] at hfit
      exact hfit.rotate
    by_cases hyz : choose x y = choose y z
    · -- The second item has.
      have hpair : choose x y = choose z y := by rw [hsymm z y, hyz]
      have h := hcompatible x hx z hz y hy
      rw [Compatible, if_pos hpair] at h
      have hfit := (fitTogether_iff_of_eq hsymm hpair).mpr h
      rw [mixed_swap hsymm y z] at hfit
      exact hfit.exchange
    · have h := hcompatible x hx y hy z hz
      rw [Compatible, if_neg hxz, if_pos ⟨hxy, hyz⟩, hsymm y z] at h
      exact h

end Collections
end CyfsNdn
