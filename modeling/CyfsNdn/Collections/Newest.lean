import Mathlib.Data.List.Basic
import Mathlib.Data.List.InsertIdx
import Mathlib.Tactic

/-!
# A bounded list of the newest items

Items with a numeric key, newest (largest key) first, at most one for each key.
`insertDesc` puts an item at its place or in the place of the item with the same key;
keeping the first `n` items then keeps the newest ones, and what falls off is older than
everything that stays.
-/

namespace CyfsNdn
namespace Collections

variable {α : Type} (key : α → Nat)

/-- Keys in strictly descending order. -/
def Descending (items : List α) : Prop := items.Pairwise fun newer older => key older < key newer

/-- Put an item at its place in a descending list. -/
def insertDesc (x : α) : List α → List α
  | [] => [x]
  | y :: rest =>
      if key y < key x then x :: y :: rest
      else if key y = key x then x :: rest
      else y :: insertDesc x rest

variable {key}

theorem mem_insertDesc {x z : α} {items : List α} (h : Descending key items) :
    z ∈ insertDesc key x items ↔ z = x ∨ z ∈ items ∧ key z ≠ key x := by
  induction items with
  | nil => simp [insertDesc]
  | cons y rest ih =>
      obtain ⟨hy, hrest⟩ := List.pairwise_cons.mp h
      unfold insertDesc
      split_ifs with hlt heq
      · have hne : ∀ w ∈ y :: rest, key w ≠ key x := by
          intro w hw
          rcases List.mem_cons.mp hw with rfl | hw
          · omega
          · have hwy := hy w hw
            omega
        rw [List.mem_cons]
        exact or_congr Iff.rfl ⟨fun hz => ⟨hz, hne z hz⟩, And.left⟩
      · have hne : ∀ w ∈ rest, key w ≠ key x := by
          intro w hw
          have hwy := hy w hw
          omega
        rw [List.mem_cons, List.mem_cons]
        constructor
        · rintro (rfl | hz)
          · exact Or.inl rfl
          · exact Or.inr ⟨Or.inr hz, hne z hz⟩
        · rintro (rfl | ⟨rfl | hz, hzx⟩)
          · exact Or.inl rfl
          · exact absurd heq hzx
          · exact Or.inr hz
      · rw [List.mem_cons, ih hrest, List.mem_cons]
        constructor
        · rintro (rfl | rfl | ⟨hz, hzx⟩)
          · exact Or.inr ⟨Or.inl rfl, heq⟩
          · exact Or.inl rfl
          · exact Or.inr ⟨Or.inr hz, hzx⟩
        · rintro (rfl | ⟨rfl | hz, hzx⟩)
          · exact Or.inr (Or.inl rfl)
          · exact Or.inl rfl
          · exact Or.inr (Or.inr ⟨hz, hzx⟩)

theorem descending_insertDesc (x : α) {items : List α} (h : Descending key items) :
    Descending key (insertDesc key x items) := by
  induction items with
  | nil => exact List.pairwise_singleton _ x
  | cons y rest ih =>
      obtain ⟨hy, hrest⟩ := List.pairwise_cons.mp h
      unfold insertDesc
      split_ifs with hlt heq
      · refine List.pairwise_cons.mpr ⟨?_, h⟩
        intro w hw
        rcases List.mem_cons.mp hw with rfl | hw
        · exact hlt
        · have hwy := hy w hw
          omega
      · refine List.pairwise_cons.mpr ⟨?_, hrest⟩
        intro w hw
        have hwy := hy w hw
        omega
      · refine List.pairwise_cons.mpr ⟨?_, ih hrest⟩
        intro w hw
        rcases (mem_insertDesc hrest).mp hw with rfl | ⟨hw, -⟩
        · omega
        · exact hy w hw

theorem length_insertDesc_ge (x : α) (items : List α) :
    items.length ≤ (insertDesc key x items).length := by
  induction items with
  | nil => exact Nat.zero_le _
  | cons y rest ih =>
      unfold insertDesc
      split_ifs
      · simp only [List.length_cons]
        omega
      · exact Nat.le_refl _
      · simp only [List.length_cons]
        omega

/-- An item older than all others goes to the end. -/
theorem insertDesc_of_forall_newer {x : α} {items : List α}
    (h : ∀ y ∈ items, key x < key y) : insertDesc key x items = items ++ [x] := by
  induction items with
  | nil => rfl
  | cons y rest ih =>
      have hy := h y List.mem_cons_self
      unfold insertDesc
      rw [if_neg (by omega), if_neg (by omega), ih fun w hw => h w (List.mem_cons_of_mem y hw)]
      rfl

/-- Looking for the key, and otherwise for the first older item, finds the same place. -/
theorem set_or_insertIdx_eq_insertDesc (x : α) {items : List α} (h : Descending key items) :
    (if items.any (fun y => key y = key x) then
        items.set (items.findIdx fun y => key y = key x) x
      else items.insertIdx (items.findIdx fun y => key y < key x) x) =
      insertDesc key x items := by
  induction items with
  | nil => rfl
  | cons y rest ih =>
      obtain ⟨hy, hrest⟩ := List.pairwise_cons.mp h
      have ih' := ih hrest
      unfold insertDesc
      by_cases hlt : key y < key x
      · have hnone : ((y :: rest).any fun w => key w = key x) = false := by
          rw [List.any_eq_false]
          intro w hw
          rcases List.mem_cons.mp hw with rfl | hw
          · simpa using hlt.ne
          · have hwy := hy w hw
            simp
            omega
        rw [if_pos hlt, hnone]
        simp [List.findIdx_cons, hlt]
      · rw [if_neg hlt]
        by_cases heq : key y = key x
        · rw [if_pos heq]
          simp [List.findIdx_cons, heq]
        · rw [if_neg heq, ← ih']
          simp only [List.any_cons, List.findIdx_cons, hlt, heq, decide_false, Bool.false_or,
            cond_false, List.set_cons_succ, List.insertIdx_succ_cons]
          split_ifs
          · rfl
          · rfl

/-- What falls off the end is older than all that stays. -/
theorem mem_take_or_older {items : List α} (h : Descending key items) (n : Nat) {z : α}
    (hz : z ∈ items) :
    z ∈ items.take n ∨ (items.take n).length = n ∧ ∀ w ∈ items.take n, key z < key w := by
  rw [← List.take_append_drop n items, List.mem_append] at hz
  rcases hz with hz | hz
  · exact Or.inl hz
  · right
    constructor
    · have hpos := List.length_pos_of_mem hz
      rw [List.length_drop] at hpos
      rw [List.length_take]
      omega
    · intro w hw
      have hsplit : (items.take n ++ items.drop n).Pairwise
          fun newer older => key older < key newer := by
        rw [List.take_append_drop]
        exact h
      exact (List.pairwise_append.mp hsplit).2.2 w hw z hz

theorem Descending.take {items : List α} (h : Descending key items) (n : Nat) :
    Descending key (items.take n) :=
  h.sublist (List.take_sublist n items)

end Collections
end CyfsNdn
