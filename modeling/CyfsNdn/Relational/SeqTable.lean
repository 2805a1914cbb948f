import Mathlib.Data.List.Basic
import Mathlib.Tactic

/-!
# Tables with an auto-incremented key

`INTEGER PRIMARY KEY AUTOINCREMENT` hands out keys that only grow, also past
deleted rows.  A `SeqTable` keeps its rows in key order and carries the proof
of it, so the order of the list is the order of the keys.
-/

namespace CyfsNdn
namespace Relational

/-- Rows in ascending key order, every key below the next one to hand out. -/
structure SeqTable (R : Type) (seq : R → Nat) where
  rows : List R
  next : Nat
  sorted : rows.Pairwise fun r s => seq r < seq s
  below : ∀ r ∈ rows, seq r < next

namespace SeqTable

variable {R : Type} {seq : R → Nat}

/-- SQLite hands out 1 first. -/
def empty : SeqTable R seq where
  rows := []
  next := 1
  sorted := List.Pairwise.nil
  below := by simp

@[simp] theorem empty_rows : (empty : SeqTable R seq).rows = [] := rfl

/-- `INSERT` without a key: the row is built from the key handed out. -/
def insert (t : SeqTable R seq) (mk : Nat → R) (hmk : ∀ n, seq (mk n) = n) :
    SeqTable R seq where
  rows := t.rows ++ [mk t.next]
  next := t.next + 1
  sorted := by
    rw [List.pairwise_append]
    refine ⟨t.sorted, List.pairwise_singleton _ _, ?_⟩
    intro r hr s hs
    rw [List.mem_singleton] at hs
    rw [hs, hmk]
    exact t.below r hr
  below := by
    intro r hr
    rw [List.mem_append, List.mem_singleton] at hr
    rcases hr with hr | hr
    · exact Nat.lt_succ_of_lt (t.below r hr)
    · rw [hr, hmk]
      exact Nat.lt_succ_self _

@[simp] theorem insert_rows (t : SeqTable R seq) (mk : Nat → R)
    (hmk : ∀ n, seq (mk n) = n) :
    (t.insert mk hmk).rows = t.rows ++ [mk t.next] := rfl

/-- `DELETE FROM t WHERE seq = n`. -/
def deleteSeq (t : SeqTable R seq) (n : Nat) : SeqTable R seq where
  rows := t.rows.filter fun r => seq r ≠ n
  next := t.next
  sorted := t.sorted.filter _
  below := by
    intro r hr
    exact t.below r (List.mem_filter.mp hr).1

@[simp] theorem deleteSeq_rows (t : SeqTable R seq) (n : Nat) :
    (t.deleteSeq n).rows = t.rows.filter fun r => seq r ≠ n := rfl

/-- `UPDATE t SET f WHERE seq = n`, for an `f` that leaves the key alone. -/
def updateSeq (t : SeqTable R seq) (n : Nat) (f : R → R)
    (hf : ∀ r, seq (f r) = seq r) : SeqTable R seq where
  rows := t.rows.map fun r => if seq r = n then f r else r
  next := t.next
  sorted := by
    rw [List.pairwise_map]
    refine t.sorted.imp ?_
    intro r s hrs
    split_ifs <;> simpa [hf] using hrs
  below := by
    intro r hr
    obtain ⟨s, hs, hsr⟩ := List.mem_map.mp hr
    have hlt := t.below s hs
    rw [← hsr]
    split_ifs <;> simpa [hf] using hlt

@[simp] theorem updateSeq_rows (t : SeqTable R seq) (n : Nat) (f : R → R)
    (hf : ∀ r, seq (f r) = seq r) :
    (t.updateSeq n f hf).rows =
      t.rows.map fun r => if seq r = n then f r else r := rfl

/-- The rows around a given row are the ones with smaller and larger keys, so
deleting its key removes that row and no other. -/
theorem deleteSeq_rows_of_split (t : SeqTable R seq) {before after : List R} {r : R}
    (h : t.rows = before ++ r :: after) :
    (t.deleteSeq (seq r)).rows = before ++ after := by
  have hsorted := t.sorted
  rw [h, List.pairwise_append, List.pairwise_cons] at hsorted
  obtain ⟨-, ⟨hafter, -⟩, hbefore⟩ := hsorted
  have hkeepBefore : before.filter (fun s => seq s ≠ seq r) = before := by
    rw [List.filter_eq_self]
    intro s hs
    have hlt := hbefore s hs r (by simp)
    simp [Nat.ne_of_lt hlt]
  have hkeepAfter : after.filter (fun s => seq s ≠ seq r) = after := by
    rw [List.filter_eq_self]
    intro s hs
    have hlt := hafter s hs
    simp [Nat.ne_of_gt hlt]
  rw [deleteSeq_rows, h, List.filter_append, List.filter_cons, hkeepBefore, hkeepAfter]
  simp

end SeqTable

end Relational
end CyfsNdn
