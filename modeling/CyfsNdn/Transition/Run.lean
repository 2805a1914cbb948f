import Mathlib.Data.List.Basic
import Mathlib.Tactic

/-!
# Runs of a step function

A run is a finite list of actions folded over a state.  The induction principles
below are the only inductions over runs in the development: for invariants that
need a side condition on the state before each step, for invariants that every
allowed action preserves in every state, and for what the steps themselves do.
-/

namespace CyfsNdn
namespace Transition

variable {S A : Type}

/-- The state after the actions of a run, in order. -/
def run (step : S → A → S) (s : S) (actions : List A) : S :=
  actions.foldl step s

@[simp] theorem run_nil (step : S → A → S) (s : S) : run step s [] = s := rfl

@[simp] theorem run_cons (step : S → A → S) (s : S) (a : A) (rest : List A) :
    run step s (a :: rest) = run step (step s a) rest := rfl

theorem run_append (step : S → A → S) (s : S) (xs ys : List A) :
    run step s (xs ++ ys) = run step (run step s xs) ys :=
  List.foldl_append

/-- The states of a run that goes on without end. -/
def trace (step : S → A → S) (s : S) (actions : Nat → A) : Nat → S
  | 0 => s
  | n + 1 => step (trace step s actions n) (actions n)

/-- An invariant of every step holds at every time of an endless run. -/
theorem trace_invariant {step : S → A → S} {inv : S → Prop} {s : S} {actions : Nat → A}
    (hstart : inv s) (hstep : ∀ s a, inv s → inv (step s a)) (n : Nat) :
    inv (trace step s actions n) := by
  induction n with
  | zero => exact hstart
  | succ n ih => exact hstep _ _ ih

/-- Every action of the run is taken in a state that allows it. -/
def Along (step : S → A → S) (allowed : S → A → Prop) : S → List A → Prop
  | _, [] => True
  | s, a :: rest => allowed s a ∧ Along step allowed (step s a) rest

@[simp] theorem along_nil (step : S → A → S) (allowed : S → A → Prop) (s : S) :
    Along step allowed s [] := trivial

@[simp] theorem along_cons (step : S → A → S) (allowed : S → A → Prop) (s : S)
    (a : A) (rest : List A) :
    Along step allowed s (a :: rest) ↔
      allowed s a ∧ Along step allowed (step s a) rest := Iff.rfl

instance decidableAlong (step : S → A → S) (allowed : S → A → Prop)
    [∀ s a, Decidable (allowed s a)] :
    ∀ (s : S) (actions : List A), Decidable (Along step allowed s actions)
  | _, [] => isTrue trivial
  | s, a :: rest =>
      @instDecidableAnd _ _ _ (decidableAlong step allowed (step s a) rest)

theorem along_append {step : S → A → S} {allowed : S → A → Prop} {s : S} {xs ys : List A} :
    Along step allowed s (xs ++ ys) ↔
      Along step allowed s xs ∧ Along step allowed (run step s xs) ys := by
  induction xs generalizing s with
  | nil => simp
  | cons a rest ih => simp only [List.cons_append, along_cons, run_cons, ih, and_assoc]

/-- An invariant of every allowed step is an invariant of every run whose
steps are allowed. -/
theorem run_invariant {step : S → A → S} {allowed : S → A → Prop} {inv : S → Prop}
    (hstep : ∀ s a, allowed s a → inv s → inv (step s a))
    {s : S} {actions : List A} (hallowed : Along step allowed s actions)
    (hinv : inv s) : inv (run step s actions) := by
  induction actions generalizing s with
  | nil => exact hinv
  | cons a rest ih => exact ih hallowed.2 (hstep s a hallowed.1 hinv)

/-- The same for a condition on the actions alone. -/
theorem run_invariant_of_forall {step : S → A → S} {allowed : A → Prop} {inv : S → Prop}
    (hstep : ∀ s a, allowed a → inv s → inv (step s a))
    {s : S} {actions : List A} (hallowed : ∀ a ∈ actions, allowed a) (hinv : inv s) :
    inv (run step s actions) := by
  induction actions generalizing s with
  | nil => exact hinv
  | cons a rest ih =>
      apply ih
      · intro b hb
        exact hallowed b (by simp [hb])
      · exact hstep s a (hallowed a (by simp)) hinv

/-- Side conditions weaken along a run. -/
theorem Along.mono {step : S → A → S} {allowed allowed' : S → A → Prop} {s : S}
    {actions : List A} (h : Along step allowed s actions)
    (himp : ∀ s a, allowed s a → allowed' s a) : Along step allowed' s actions := by
  induction actions generalizing s with
  | nil => trivial
  | cons a rest ih => exact ⟨himp s a h.1, ih h.2⟩

/-- What an allowed step does in every state that has the invariant, every step of a run
does. -/
theorem Along.of_invariant {step : S → A → S} {allowed good : S → A → Prop} {inv : S → Prop}
    (hstep : ∀ s a, allowed s a → inv s → inv (step s a) ∧ good s a)
    {s : S} {actions : List A} (hallowed : Along step allowed s actions) (hinv : inv s) :
    Along step good s actions := by
  induction actions generalizing s with
  | nil => trivial
  | cons a rest ih =>
      obtain ⟨hnext, hgood⟩ := hstep s a hallowed.1 hinv
      exact ⟨hgood, ih hallowed.2 hnext⟩

end Transition
end CyfsNdn
