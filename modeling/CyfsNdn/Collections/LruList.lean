import CyfsNdn.Transition.Run

/-!
# A bounded cache as a list

What a cache of a given size is for: it remembers the pairs that were used last.  The list
has them in the order of their last use, the oldest first.
-/

namespace CyfsNdn
namespace Collections

open Transition

variable {κ α : Type} [DecidableEq κ]

/-- A use of a cache: a look-up, or a value for a key. -/
inductive CacheCall (κ α : Type) where
  | get (key : κ)
  | put (key : κ) (value : α)

/-- The key that a call is about. -/
def CacheCall.key {κ α : Type} : CacheCall κ α → κ
  | .get key => key
  | .put key _ => key

namespace LruList

/-- The value of a key. -/
def find (xs : List (κ × α)) (key : κ) : Option α :=
  (xs.find? fun e => e.1 = key).map Prod.snd

/-- The pair is the one that was used last. -/
def use (xs : List (κ × α)) (key : κ) (value : α) : List (κ × α) :=
  xs.filter (fun e => e.1 ≠ key) ++ [(key, value)]

/-- The last so many of a list. -/
def last (size : Nat) (xs : List α) : List α := xs.drop (xs.length - size)

/-- The cache after a call. -/
def step (size : Nat) (xs : List (κ × α)) : CacheCall κ α → List (κ × α)
  | .get key =>
      match find xs key with
      | none => xs
      | some value => use xs key value
  | .put key value => last size (use xs key value)

theorem length_last_le (size : Nat) (xs : List α) : (last size xs).length ≤ size := by
  simp only [last, List.length_drop]
  omega

theorem last_of_length_le {size : Nat} {xs : List α} (h : xs.length ≤ size) : last size xs = xs := by
  have hzero : xs.length - size = 0 := by omega
  simp [last, hzero]

theorem last_cons_of_lt {size : Nat} {x : α} {xs : List α} (h : size < (x :: xs).length) :
    last size (x :: xs) = last size xs := by
  have hlen : (x :: xs).length - size = xs.length - size + 1 := by
    simp only [List.length_cons] at h ⊢
    omega
  simp only [last, hlen, List.drop_succ_cons]

theorem map_last {β : Type} (f : α → β) (size : Nat) (xs : List α) :
    (last size xs).map f = last size (xs.map f) := by
  simp [last, List.map_drop]

theorem mem_of_mem_last {size : Nat} {xs : List α} {x : α} (h : x ∈ last size xs) : x ∈ xs :=
  List.mem_of_mem_drop h

/-- A look-up that finds the key makes the list no longer. -/
theorem length_use_le {xs : List (κ × α)} {key : κ} {value value' : α}
    (h : find xs key = some value) : (use xs key value').length ≤ xs.length := by
  obtain ⟨e, he, -⟩ := Option.map_eq_some_iff.mp h
  have hmem := List.mem_of_find?_eq_some he
  have hkey : e.1 = key := by simpa using List.find?_some he
  have hlt : (xs.filter fun e => e.1 ≠ key).length < xs.length := by
    apply List.length_filter_lt_length_iff_exists.mpr
    exact ⟨e, hmem, by simp [hkey]⟩
  simp only [use, List.length_append, List.length_singleton]
  omega

/-- The cache never holds more than its size. -/
theorem length_step_le {size : Nat} {xs : List (κ × α)} (h : xs.length ≤ size)
    (call : CacheCall κ α) : (step size xs call).length ≤ size := by
  cases call with
  | get key =>
      simp only [step]
      split
      · exact h
      · rename_i value hfind
        exact (length_use_le hfind).trans h
  | put key value => exact length_last_le size _

/-! ## The order of the last uses -/

/-- When a key was used last: the number of calls up to the last one about it. -/
def lastCall (calls : List (CacheCall κ α)) (key : κ) : Nat :=
  (calls.reverse.dropWhile fun call => call.key ≠ key).length

theorem lastCall_le (calls : List (CacheCall κ α)) (key : κ) :
    lastCall calls key ≤ calls.length := by
  have hle := (List.dropWhile_suffix (l := calls.reverse)
    fun call => decide (call.key ≠ key)).length_le
  simpa [lastCall] using hle

theorem lastCall_append (calls : List (CacheCall κ α)) (call : CacheCall κ α) (key : κ) :
    lastCall (calls ++ [call]) key =
      if call.key = key then calls.length + 1 else lastCall calls key := by
  unfold lastCall
  rw [List.reverse_append, List.reverse_singleton, List.singleton_append, List.dropWhile_cons]
  split_ifs with hne heq heq <;> simp_all

/-- The pairs stand in the order in which their keys were used last. -/
def InOrder (calls : List (CacheCall κ α)) (xs : List (κ × α)) : Prop :=
  xs.Pairwise fun e e' => lastCall calls e.1 < lastCall calls e'.1

variable {calls : List (CacheCall κ α)} {xs : List (κ × α)}

/-- Calls about other keys change no order. -/
theorem InOrder.other (h : InOrder calls xs) {call : CacheCall κ α}
    (hother : ∀ e ∈ xs, call.key ≠ e.1) : InOrder (calls ++ [call]) xs := by
  apply List.Pairwise.imp_of_mem _ h
  intro e e' he he' hlt
  rwa [lastCall_append, lastCall_append, if_neg (hother e he), if_neg (hother e' he')]

/-- The pair that is used stands last. -/
theorem InOrder.use (h : InOrder calls xs) (call : CacheCall κ α) (value : α) :
    InOrder (calls ++ [call]) (use xs call.key value) := by
  have hothers : ∀ e ∈ xs.filter fun e => e.1 ≠ call.key, call.key ≠ e.1 := by
    intro e he
    have hne := (List.mem_filter.mp he).2
    exact fun hkey => of_decide_eq_true hne hkey.symm
  have hkept : InOrder calls (xs.filter fun e => e.1 ≠ call.key) :=
    List.Pairwise.sublist List.filter_sublist h
  unfold InOrder LruList.use
  rw [List.pairwise_append]
  refine ⟨hkept.other hothers, List.pairwise_singleton _ _, ?_⟩
  intro e he e' he'
  obtain rfl := List.mem_singleton.mp he'
  rw [lastCall_append, lastCall_append, if_neg (hothers e he), if_pos rfl]
  exact Nat.lt_succ_of_le (lastCall_le calls e.1)

theorem InOrder.last (h : InOrder calls xs) (size : Nat) : InOrder calls (last size xs) :=
  List.Pairwise.sublist (List.drop_sublist _ _) h

theorem InOrder.step (h : InOrder calls xs) (size : Nat) (call : CacheCall κ α) :
    InOrder (calls ++ [call]) (step size xs call) := by
  cases call with
  | get key =>
      simp only [LruList.step]
      split
      · rename_i hmiss
        -- a look-up that misses is about none of the keys
        apply h.other
        intro e he hkey
        have hnone := List.find?_eq_none.mp (Option.map_eq_none_iff.mp hmiss) e he
        exact hnone (decide_eq_true hkey.symm)
      · exact h.use (.get key) _
  | put key value => exact (h.use (.put key value) value).last size

end LruList

end Collections
end CyfsNdn
