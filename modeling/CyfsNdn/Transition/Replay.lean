import Mathlib.Data.List.Basic
import Mathlib.Tactic

/-!
# Replaying a log of keyed writes

A log entry overwrites the value of one key.  `replay` applies a log in order;
what a key ends up with is the last entry for it, or the starting value when
the log does not mention it.

The facts that message queues need are stated here once: an entry of the log may
be applied ahead of time, and an entry that has been applied may be dropped from
the log when no older entry disagrees with it.
-/

namespace CyfsNdn
namespace Transition

variable {K V : Type} [DecidableEq K]

/-- Apply the writes of a log, oldest first. -/
def replay (base : K → V) (log : List (K × V)) : K → V :=
  log.foldl (fun store entry => Function.update store entry.1 entry.2) base

@[simp] theorem replay_nil (base : K → V) : replay base [] = base := rfl

@[simp] theorem replay_cons (base : K → V) (entry : K × V) (log : List (K × V)) :
    replay base (entry :: log) =
      replay (Function.update base entry.1 entry.2) log := rfl

theorem replay_append (base : K → V) (xs ys : List (K × V)) :
    replay base (xs ++ ys) = replay (replay base xs) ys :=
  List.foldl_append

/-- A key that the log never writes keeps its value. -/
theorem replay_of_forall_ne {base : K → V} {log : List (K × V)} {k : K}
    (h : ∀ entry ∈ log, entry.1 ≠ k) : replay base log k = base k := by
  induction log generalizing base with
  | nil => rfl
  | cons entry rest ih =>
      rw [replay_cons, ih fun e he => h e (by simp [he])]
      exact Function.update_of_ne (h entry (by simp)).symm _ _

/-- Two starting values that agree at a key end up agreeing there. -/
theorem replay_congr {f g : K → V} {log : List (K × V)} {k : K} (h : f k = g k) :
    replay f log k = replay g log k := by
  induction log generalizing f g with
  | nil => exact h
  | cons entry rest ih =>
      rw [replay_cons, replay_cons]
      apply ih
      by_cases hkey : entry.1 = k
      · rw [hkey, Function.update_self, Function.update_self]
      · rw [Function.update_of_ne (Ne.symm hkey), Function.update_of_ne (Ne.symm hkey)]
        exact h

/-- Replaying past a write to another key. -/
theorem replay_update_of_ne {base : K → V} {log : List (K × V)} {k k' : K} {v : V}
    (h : k' ≠ k) : replay (Function.update base k v) log k' = replay base log k' :=
  replay_congr (Function.update_of_ne h _ _)

/-- Entries that all write one value: a key they mention has that value. -/
theorem replay_of_forall_val {base : K → V} {log : List (K × V)} {k : K} {v : V}
    (hval : ∀ entry ∈ log, entry.2 = v) (hmem : ∃ entry ∈ log, entry.1 = k) :
    replay base log k = v := by
  induction log using List.reverseRecOn with
  | nil => simp at hmem
  | append_singleton rest entry ih =>
      rw [replay_append, replay_cons, replay_nil]
      by_cases hkey : entry.1 = k
      · rw [hkey, Function.update_self]
        exact hval entry (by simp)
      · rw [Function.update_of_ne (Ne.symm hkey)]
        apply ih
        · intro e he
          exact hval e (by simp [he])
        · obtain ⟨e, he, hek⟩ := hmem
          rw [List.mem_append, List.mem_singleton] at he
          rcases he with he | he
          · exact ⟨e, he, hek⟩
          · exact absurd (he ▸ hek) hkey

/-- A key that the log writes does not depend on its starting value. -/
theorem replay_update_of_mem {base : K → V} {log : List (K × V)} {k : K} {v : V}
    (hmem : ∃ entry ∈ log, entry.1 = k) :
    replay (Function.update base k v) log = replay base log := by
  funext k'
  by_cases hk : k' = k
  · subst hk
    obtain ⟨entry, hentry, hkey⟩ := hmem
    obtain ⟨before, after, rfl⟩ := List.append_of_mem hentry
    rw [replay_append, replay_append, replay_cons, replay_cons]
    apply replay_congr
    rw [hkey, Function.update_self, Function.update_self]
  · exact replay_update_of_ne hk

/-- A key keeps a value that every entry for it writes again. -/
theorem replay_of_agreeing {base : K → V} {log : List (K × V)} {k : K} {v : V}
    (hlog : ∀ entry ∈ log, entry.1 = k → entry.2 = v) (hbase : base k = v) :
    replay base log k = v := by
  induction log generalizing base with
  | nil => exact hbase
  | cons entry rest ih =>
      rw [replay_cons]
      apply ih
      · intro e he
        exact hlog e (by simp [he])
      · by_cases hkey : entry.1 = k
        · rw [hkey, Function.update_self]
          exact hlog entry (by simp) hkey
        · rw [Function.update_of_ne (Ne.symm hkey)]
          exact hbase

/-- An entry that has been applied already may be taken out of the log when no
older entry for its key writes another value. -/
theorem replay_drop_applied {base : K → V} {before after : List (K × V)} {k : K} {v : V}
    (hbefore : ∀ entry ∈ before, entry.1 = k → entry.2 = v) (hbase : base k = v) :
    replay base (before ++ after) = replay base (before ++ (k, v) :: after) := by
  funext k'
  rw [replay_append, replay_append, replay_cons]
  apply replay_congr
  by_cases hk : k' = k
  · subst hk
    rw [Function.update_self]
    exact replay_of_agreeing hbefore hbase
  · rw [Function.update_of_ne hk]

/-- The last entry for a key decides it. -/
theorem replay_of_last {base : K → V} {before after : List (K × V)} {k : K} {v : V}
    (hafter : ∀ entry ∈ after, entry.1 ≠ k) :
    replay base (before ++ (k, v) :: after) k = v := by
  rw [replay_append, replay_cons, replay_of_forall_ne hafter, Function.update_self]

end Transition
end CyfsNdn
