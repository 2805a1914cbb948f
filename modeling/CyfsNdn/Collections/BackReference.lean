import Mathlib.Tactic

/-!
# Back references

Entries that refer to items, and items that refer back to their entry.  The two partial
functions are inverse to each other when each reference is answered.  An entry is given
another item by taking the reference back from its old item and setting that of the new
one; this keeps the two inverse as long as the new item belonged to no other entry.
-/

namespace CyfsNdn
namespace Collections

variable {D I : Type}

/-- Every reference is answered, in both directions. -/
def Inverse (target : D → Option I) (ref : I → Option D) : Prop :=
  ∀ d i, target d = some i ↔ ref i = some d

namespace Inverse

variable {target : D → Option I} {ref : I → Option D}

/-- No two entries have the same item. -/
theorem entry_unique (h : Inverse target ref) {d d' : D} {i : I} (hd : target d = some i)
    (hd' : target d' = some i) : d = d' := by
  have href := (h d i).mp hd
  have href' := (h d' i).mp hd'
  exact Option.some.inj (href.symm.trans href')

theorem congr {target' : D → Option I} {ref' : I → Option D} (h : Inverse target ref)
    (htarget : ∀ d, target' d = target d) (href : ∀ i, ref' i = ref i) :
    Inverse target' ref' := by
  intro d i
  rw [htarget, href]
  exact h d i

variable [DecidableEq D] [DecidableEq I]

/-- An entry takes an item that belongs to no other entry, or none. -/
theorem retarget {target' : D → Option I} {ref' : I → Option D} (h : Inverse target ref) {d : D}
    {new : Option I} (htarget : ∀ d', target' d' = if d' = d then new else target d')
    (href : ∀ i, ref' i =
      if new = some i then some d else if target d = some i then none else ref i)
    (hfree : ∀ i, new = some i → ref i = none ∨ ref i = some d) :
    Inverse target' ref' := by
  intro d' i
  rw [htarget, href]
  by_cases hd : d' = d
  · -- the entry itself: its new item refers to it, and no other item does
    subst hd
    rw [if_pos rfl]
    by_cases hnew : new = some i
    · rw [if_pos hnew]
      exact ⟨fun _ => rfl, fun _ => hnew⟩
    · rw [if_neg hnew]
      split_ifs with hold
      · exact ⟨fun hi => absurd hi hnew, fun hi => by cases hi⟩
      · exact ⟨fun hi => absurd hi hnew, fun hi => absurd ((h d' i).mpr hi) hold⟩
  · -- another entry keeps its item, which is neither the old nor the new one
    rw [if_neg hd]
    constructor
    · intro hi
      have href := (h d' i).mp hi
      have hnew : new ≠ some i := by
        intro hnew
        rcases hfree i hnew with hnone | hsame
        · rw [hnone] at href
          cases href
        · exact hd (Option.some.inj (href.symm.trans hsame))
      have hold : target d ≠ some i := fun hold => hd (h.entry_unique hi hold)
      rw [if_neg hnew, if_neg hold]
      exact href
    · intro hi
      split_ifs at hi with hnew hold
      · exact absurd (Option.some.inj hi).symm hd
      · exact (h d' i).mpr hi

end Inverse

end Collections
end CyfsNdn
