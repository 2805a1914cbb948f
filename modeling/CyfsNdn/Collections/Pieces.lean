import CyfsNdn.Collections.SortedMap
import Mathlib.Data.List.Basic
import Mathlib.Data.List.Forall2
import Mathlib.Data.List.SplitLengths
import Mathlib.Tactic

/-!
# A list held in pieces

A long list is held as its pieces, one after the other; pieces may be empty.  A
position in the whole is a position in one piece, and what is written inside a piece is
written into the whole.
-/

namespace CyfsNdn
namespace Collections

variable {α : Type}

/-! ## Writing over a list -/

/-- The list after `data` was written over it from `position`, and beyond its end. -/
def overwrite (position : Nat) (data content : List α) : List α :=
  content.take position ++ data ++ content.drop (position + data.length)

theorem length_overwrite {position : Nat} {data content : List α}
    (h : position ≤ content.length) :
    (overwrite position data content).length =
      max content.length (position + data.length) := by
  unfold overwrite
  rw [List.length_append, List.length_append, List.length_take, List.length_drop,
    Nat.min_eq_left h]
  omega

/-- Writing makes a list no shorter, and it ends behind what was written. -/
theorem le_length_overwrite (position : Nat) (data content : List α) :
    content.length ≤ (overwrite position data content).length := by
  unfold overwrite
  rw [List.length_append, List.length_append, List.length_take, List.length_drop]
  omega

@[simp] theorem overwrite_nil (position : Nat) (content : List α) :
    overwrite position [] content = content := by
  unfold overwrite
  rw [List.append_nil, List.length_nil, Nat.add_zero, List.take_append_drop]

theorem overwrite_at_end (content data : List α) :
    overwrite content.length data content = content ++ data := by
  unfold overwrite
  rw [List.take_length, List.drop_eq_nil_of_le (Nat.le_add_right _ _), List.append_nil]

theorem overwrite_append_right (front content data : List α) (position : Nat) :
    overwrite (front.length + position) data (front ++ content) =
      front ++ overwrite position data content := by
  unfold overwrite
  rw [List.take_length_add_append, Nat.add_assoc, List.drop_length_add_append]
  simp only [List.append_assoc]

theorem overwrite_append_left {position : Nat} {data content : List α} (rest : List α)
    (h : position + data.length ≤ content.length) :
    overwrite position data (content ++ rest) = overwrite position data content ++ rest := by
  unfold overwrite
  rw [List.take_append_of_le_length (by omega), List.drop_append_of_le_length h]
  simp only [List.append_assoc]

/-- Two writes, one right after the other, are one write. -/
theorem overwrite_overwrite {position : Nat} {first second content : List α}
    (h : position ≤ content.length) :
    overwrite (position + first.length) second (overwrite position first content) =
      overwrite position (first ++ second) content := by
  have hfront : (content.take position ++ first).length = position + first.length := by
    rw [List.length_append, List.length_take, Nat.min_eq_left h]
  unfold overwrite
  rw [← hfront, List.take_left, List.drop_length_add_append, List.drop_drop, hfront,
    List.length_append]
  simp only [List.append_assoc, Nat.add_assoc]

/-! ## Where the pieces start -/

/-- Where a piece starts, from the sizes of the pieces. -/
def startOf (sizes : List Nat) (index : Nat) : Nat :=
  (sizes.take index).sum

@[simp] theorem startOf_zero (sizes : List Nat) : startOf sizes 0 = 0 := rfl

theorem startOf_succ {sizes : List Nat} {index : Nat} (h : index < sizes.length) :
    startOf sizes (index + 1) = startOf sizes index + sizes[index] := by
  unfold startOf
  rw [List.take_succ_eq_append_getElem h, List.sum_append, List.sum_singleton]

@[simp] theorem startOf_length (sizes : List Nat) :
    startOf sizes sizes.length = sizes.sum := by
  unfold startOf
  rw [List.take_length]

theorem startOf_mono (sizes : List Nat) {i j : Nat} (h : i ≤ j) :
    startOf sizes i ≤ startOf sizes j := by
  unfold startOf
  exact ((List.take_sublist_take_left h).sum_le_sum fun _ _ => Nat.zero_le _)

theorem startOf_le_sum (sizes : List Nat) (index : Nat) : startOf sizes index ≤ sizes.sum := by
  unfold startOf
  exact ((List.take_sublist index sizes).sum_le_sum fun _ _ => Nat.zero_le _)

/-- The position lies in this piece, at this offset. -/
structure Locates (sizes : List Nat) (position index offset : Nat) : Prop where
  lt : index < sizes.length
  position_eq : startOf sizes index + offset = position
  offset_lt : offset < sizes[index]

namespace Locates

variable {sizes : List Nat} {position index offset : Nat}

theorem position_lt_sum (h : Locates sizes position index offset) : position < sizes.sum := by
  have hend := startOf_succ h.lt
  have hle := startOf_le_sum sizes (index + 1)
  have hposition := h.position_eq
  have hoffset := h.offset_lt
  omega

/-- Every position inside lies in one piece only. -/
theorem unique (h : Locates sizes position index offset) {index' offset' : Nat}
    (h' : Locates sizes position index' offset') : index = index' ∧ offset = offset' := by
  have hindex : ∀ {i o i' o' : Nat}, Locates sizes position i o →
      Locates sizes position i' o' → i' ≤ i := by
    intro i o i' o' hl hl'
    by_contra hlt
    have hmono := startOf_mono sizes (show i + 1 ≤ i' by omega)
    have hend := startOf_succ hl.lt
    have hposition := hl.position_eq
    have hposition' := hl'.position_eq
    have hoffset := hl.offset_lt
    omega
  obtain rfl : index = index' := Nat.le_antisymm (hindex h' h) (hindex h h')
  have hposition := h.position_eq
  have hposition' := h'.position_eq
  exact ⟨rfl, by omega⟩

end Locates

/-- The first piece that ends after the position holds it. -/
theorem locates_of_first_end {sizes : List Nat} {position index : Nat}
    (hlt : index < sizes.length) (hbefore : startOf sizes index ≤ position)
    (hafter : position < startOf sizes (index + 1)) :
    Locates sizes position index (position - startOf sizes index) := by
  rw [startOf_succ hlt] at hafter
  exact ⟨hlt, by omega, by omega⟩

/-- Every position inside lies in a piece. -/
theorem exists_locates {sizes : List Nat} {position : Nat} (h : position < sizes.sum) :
    ∃ index offset, Locates sizes position index offset := by
  have hex : ∃ n, position < startOf sizes (n + 1) := by
    refine ⟨sizes.length, ?_⟩
    unfold startOf
    rw [List.take_of_length_le (Nat.le_succ _)]
    exact h
  classical
  have hfirst := Nat.find_spec hex
  have hmin : ∀ k < Nat.find hex, startOf sizes (k + 1) ≤ position :=
    fun k hk => Nat.le_of_not_lt (Nat.find_min hex hk)
  generalize Nat.find hex = n at hfirst hmin
  have hstart : startOf sizes n ≤ position := by
    cases n with
    | zero => exact Nat.zero_le _
    | succ k => exact hmin k (Nat.lt_succ_self k)
  have hlt : n < sizes.length := by
    by_contra hge
    have hall : startOf sizes n = startOf sizes (n + 1) := by
      unfold startOf
      rw [List.take_of_length_le (by omega), List.take_of_length_le (by omega)]
    omega
  exact ⟨n, _, locates_of_first_end hlt hstart hfirst⟩

theorem length_flatten_take (pieces : List (List α)) (index : Nat) :
    (pieces.take index).flatten.length = startOf (pieces.map List.length) index := by
  unfold startOf
  rw [List.length_flatten, List.map_take]

theorem flatten_split (pieces : List (List α)) (index : Nat) :
    pieces.flatten = (pieces.take index).flatten ++ (pieces.drop index).flatten := by
  rw [← List.flatten_append, List.take_append_drop]

/-- What follows the start of a piece is this piece and all later ones. -/
theorem drop_startOf (pieces : List (List α)) (index : Nat) :
    pieces.flatten.drop (startOf (pieces.map List.length) index) =
      (pieces.drop index).flatten := by
  rw [flatten_split pieces index, ← length_flatten_take, List.drop_left]

/-- What follows a position is the rest of its piece and all later pieces. -/
theorem drop_startOf_add {pieces : List (List α)} {index offset : Nat}
    (h : index < pieces.length) (hoffset : offset ≤ pieces[index].length) :
    pieces.flatten.drop (startOf (pieces.map List.length) index + offset) =
      pieces[index].drop offset ++ (pieces.drop (index + 1)).flatten := by
  rw [← List.drop_drop, drop_startOf, List.drop_eq_getElem_cons h, List.flatten_cons,
    List.drop_append_of_le_length hoffset]

/-- What is written inside a piece is written into the whole. -/
theorem overwrite_flatten {pieces : List (List α)} {index offset : Nat} {data : List α}
    (h : index < pieces.length) (hfits : offset + data.length ≤ pieces[index].length) :
    overwrite (startOf (pieces.map List.length) index + offset) data pieces.flatten =
      (pieces.set index (overwrite offset data pieces[index])).flatten := by
  rw [List.set_eq_take_append_cons_drop, if_pos h, List.flatten_append, List.flatten_cons,
    flatten_split pieces index, ← length_flatten_take, overwrite_append_right,
    List.drop_eq_getElem_cons h, List.flatten_cons, overwrite_append_left _ hfits]

/-! ## Cutting the whole -/

end Collections
end CyfsNdn
