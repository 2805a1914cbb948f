import Mathlib.Logic.Relation
import Mathlib.Order.WellFounded
import Mathlib.Data.Set.Finite.List
import Mathlib.Tactic

/-!
# Ancestors in a finite acyclic relation

A property that is handed down from a parent to a child has an origin: when it
can only come from finitely many parents and no element is its own ancestor,
walking up ends at a root.
-/

namespace CyfsNdn
namespace Transition

open Relation

variable {α : Type} {R : α → α → Prop}

/-- Among finitely many elements, walking up an acyclic relation ends. -/
theorem wellFounded_ancestor (S : List α) (hacyclic : ∀ x, ¬ TransGen R x x) :
    WellFounded fun y x : { x // x ∈ S } => TransGen R y.1 x.1 := by
  have hfinite : Finite { x // x ∈ S } := (List.finite_toSet S).to_subtype
  have htrans : IsTrans { x // x ∈ S } fun y x => TransGen R y.1 x.1 :=
    ⟨fun _ _ _ hab hbc => TransGen.trans hab hbc⟩
  have hirrefl : Std.Irrefl fun y x : { x // x ∈ S } => TransGen R y.1 x.1 :=
    ⟨fun x hx => hacyclic x.1 hx⟩
  exact Finite.wellFounded_of_trans_of_irrefl _

/-- An element that got the property from a listed parent descends from a
root. -/
theorem exists_root_of_acyclic (S : List α) (hacyclic : ∀ x, ¬ TransGen R x x)
    {P root : α → Prop} (hparent : ∀ c, P c → ∃ x ∈ S, R x c ∧ (root x ∨ P x)) {c : α}
    (hc : P c) : ∃ x, root x ∧ TransGen R x c := by
  have hlisted : ∀ x : { x // x ∈ S }, P x.1 → ∃ r, root r ∧ TransGen R r x.1 := by
    intro x
    induction x using (wellFounded_ancestor S hacyclic).induction with
    | _ x ih =>
        intro hx
        obtain ⟨y, hyS, hyx, hroot | hy⟩ := hparent x.1 hx
        · exact ⟨y, hroot, TransGen.single hyx⟩
        · obtain ⟨r, hr, hpath⟩ := ih ⟨y, hyS⟩ (TransGen.single hyx) hy
          exact ⟨r, hr, hpath.tail hyx⟩
  obtain ⟨x, hxS, hxc, hroot | hx⟩ := hparent c hc
  · exact ⟨x, hroot, TransGen.single hxc⟩
  · obtain ⟨r, hr, hpath⟩ := hlisted ⟨x, hxS⟩ hx
    exact ⟨r, hr, hpath.tail hxc⟩

/-- A property that a root hands to its children, and every child to its own,
reaches all descendants of the root. -/
theorem holds_of_root (P root : α → Prop) (hroot : ∀ x c, root x → R x c → P c)
    (hchild : ∀ x c, P x → R x c → P c) {x c : α} (hx : root x) (hpath : TransGen R x c) :
    P c := by
  induction hpath with
  | single hxc => exact hroot x _ hx hxc
  | tail _ hyc ih => exact hchild _ _ ih hyc

end Transition
end CyfsNdn
