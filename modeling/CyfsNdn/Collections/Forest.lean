import Mathlib.Logic.Relation
import Mathlib.Order.WellFounded
import Mathlib.Tactic

/-!
# Forests given by a parent function

Every node has at most one parent.  The nodes form a forest when the relation of parent to
child is well founded: climbing from any node ends at a node without a parent, and no node
is above itself.  Nodes that lose their parent keep a forest a forest, and so does a node
that gets a new parent, as long as the new parent is neither the node nor below it.
-/

namespace CyfsNdn
namespace Collections

open Relation

variable {I : Type}

/-- The parent of the second node is the first. -/
def ParentOf (up : I → Option I) (p c : I) : Prop := up c = some p

/-- The second node is the first or below it. -/
def AtOrBelow (up : I → Option I) (m c : I) : Prop := ReflTransGen (ParentOf up) m c

/-- Climbing ends from every node. -/
def Forest (up : I → Option I) : Prop := WellFounded (ParentOf up)

section

variable {up up' : I → Option I}

/-- With fewer parents less is below a node. -/
theorem AtOrBelow.of_le (hle : ∀ c p, up' c = some p → up c = some p) {m c : I}
    (h : AtOrBelow up' m c) : AtOrBelow up m c := by
  induction h with
  | refl => exact ReflTransGen.refl
  | tail _ hp ih => exact ih.tail (hle _ _ hp)

namespace Forest

/-- No node is above itself. -/
theorem not_above_self (h : Forest up) (i : I) : ¬ TransGen (ParentOf up) i i := by
  intro hcycle
  exact h.transGen.irrefl.irrefl i hcycle

/-- Climbing from a node ends at one without a parent. -/
theorem exists_top (h : Forest up) (i : I) :
    ∃ top, AtOrBelow up top i ∧ up top = none := by
  induction i using h.induction with
  | _ i ih =>
      cases hup : up i with
      | none => exact ⟨i, ReflTransGen.refl, hup⟩
      | some p =>
          obtain ⟨top, htop, hnone⟩ := ih p hup
          exact ⟨top, htop.tail hup, hnone⟩

/-- Losing parents keeps a forest. -/
theorem of_le (h : Forest up) (hle : ∀ c p, up' c = some p → up c = some p) : Forest up' :=
  Subrelation.wf (fun {p c} hp => hle c p hp) h

/-- A node that gets a parent outside of its own tree. -/
theorem attach (h : Forest up) {m p : I} (hnot : ¬ AtOrBelow up m p)
    (hstep : ∀ c q, up' c = some q → c = m ∧ q = p ∨ up c = some q) : Forest up' := by
  -- a node that is not below the moved one climbs as before
  have houtside : ∀ c, ¬ AtOrBelow up m c → Acc (ParentOf up') c := by
    intro c
    induction c using h.induction with
    | _ c ih =>
        intro hc
        constructor
        intro q hq
        rcases hstep c q hq with ⟨rfl, -⟩ | hold
        · exact absurd ReflTransGen.refl hc
        · exact ih q hold fun hbelow => hc (hbelow.tail hold)
  constructor
  intro c
  induction c using h.induction with
  | _ c ih =>
      constructor
      intro q hq
      rcases hstep c q hq with ⟨-, rfl⟩ | hold
      · exact houtside q hnot
      · exact ih q hold

end Forest

end

end Collections
end CyfsNdn
