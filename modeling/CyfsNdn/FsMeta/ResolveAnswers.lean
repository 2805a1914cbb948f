import CyfsNdn.FsMeta.ResolvePath

/-!
# Every resolver answers

The outer loop of `handle_resolve_path_ex` has no bound of its own: each link starts another
round.  What other resolvers put into the cache and what transactions commit may change
what a round finds, but a round that follows a link has used up a part of the budget.  So
no resolver runs out of the rounds that its budget allows, and one that keeps getting turns
answers.
-/

namespace CyfsNdn
namespace FsMeta
namespace ResolveSystem

open Transition

variable {env : ServiceEnv}

/-- Whatever the calls of the resolvers answer, each of them ends with an answer. -/
def AllAnswer (s : ResolveSystem) : Prop :=
  ∀ prog ∈ s.calls, prog.Returns fun answer => answer.isSome = true

theorem allAnswer_init (now : UInt64) (maxEntries : Nat) : AllAnswer (init now maxEntries) :=
  fun _ hprog => absurd hprog List.not_mem_nil

/-- What one action preserves. -/
theorem AllAnswer.step {s : ResolveSystem} (h : AllAnswer s) (action : ResolveAction) :
    AllAnswer (step env s action) := by
  cases action with
  | resolve path symCount =>
      intro prog hprog
      rcases List.mem_append.mp hprog with hbefore | hnew
      · exact h prog hbefore
      · obtain rfl := List.mem_singleton.mp hnew
        exact Resolver.returns_rounds (Nat.lt_succ_self symCount) _
  | turn i order =>
      unfold ResolveSystem.step
      dsimp only
      split
      · next c next hcall =>
        intro prog hprog
        rcases List.mem_or_eq_of_mem_set hprog with hbefore | rfl
        · exact h prog hbefore
        · exact h _ (List.mem_of_getElem? hcall) _
      · exact h
  | commit requests =>
      unfold ResolveSystem.step
      dsimp only
      split <;> exact h
  | invalidate order edge =>
      unfold ResolveSystem.step
      dsimp only
      split_ifs <;> exact h

/-- What is no turn of a resolver leaves it as it is. -/
theorem getElem?_calls_step {s : ResolveSystem} {i : Nat}
    {prog : ResolveProg (Option ResolveAnswer)} (hcall : s.calls[i]? = some prog)
    {action : ResolveAction} (hother : ∀ order, action ≠ .turn i order) :
    (step env s action).calls[i]? = some prog := by
  cases action with
  | resolve path symCount =>
      have hlt := (List.getElem?_eq_some_iff.mp hcall).1
      show (s.calls ++ _)[i]? = some prog
      rw [List.getElem?_append_left hlt, hcall]
  | turn j order =>
      have hne : j ≠ i := by
        rintro rfl
        exact hother order rfl
      unfold ResolveSystem.step
      dsimp only
      split
      · show (s.calls.set j _)[i]? = some prog
        rw [List.getElem?_set_ne hne, hcall]
      · exact hcall
  | commit requests =>
      unfold ResolveSystem.step
      dsimp only
      split <;> exact hcall
  | invalidate order edge =>
      unfold ResolveSystem.step
      dsimp only
      split_ifs <;> exact hcall

/-- The turn of a resolver is its next call. -/
theorem getElem?_calls_turn {s : ResolveSystem} {i : Nat} {c : ResolveCall}
    {next : c.Reply → ResolveProg (Option ResolveAnswer)}
    (hcall : s.calls[i]? = some (.call c next)) (order : HashOrder) :
    (step env s (.turn i order)).calls[i]? = some (next (s.db.resolveReply env s.cache c)) := by
  have hlt := (List.getElem?_eq_some_iff.mp hcall).1
  unfold ResolveSystem.step
  dsimp only
  rw [hcall]
  exact List.getElem?_set_self hlt

/-- A resolver that has answered takes no more turns. -/
theorem getElem?_calls_step_ret {s : ResolveSystem} {i : Nat} {answer : Option ResolveAnswer}
    (hcall : s.calls[i]? = some (.ret answer)) (action : ResolveAction) :
    (step env s action).calls[i]? = some (.ret answer) := by
  by_cases hturn : ∃ order, action = .turn i order
  · obtain ⟨order, rfl⟩ := hturn
    unfold ResolveSystem.step
    dsimp only
    rw [hcall]
    exact hcall
  · exact getElem?_calls_step hcall fun order heq => hturn ⟨order, heq⟩

section Trace

variable {start : ResolveSystem} {actions : Nat → ResolveAction} {i : Nat}

/-- Between two turns of a resolver it waits with the same call. -/
theorem getElem?_calls_trace {t : Nat} {prog : ResolveProg (Option ResolveAnswer)}
    (hcall : (trace (step env) start actions t).calls[i]? = some prog) {n : Nat} (hle : t ≤ n)
    (hother : ∀ m, t ≤ m → m < n → ∀ order, actions m ≠ .turn i order) :
    (trace (step env) start actions n).calls[i]? = some prog := by
  induction n, hle using Nat.le_induction with
  | base => exact hcall
  | succ n hle ih =>
      have hbefore := ih fun m hm hlt => hother m hm (by omega)
      exact getElem?_calls_step hbefore (hother n hle (Nat.lt_succ_self n))

theorem getElem?_calls_trace_ret {t : Nat} {answer : Option ResolveAnswer}
    (hcall : (trace (step env) start actions t).calls[i]? = some (.ret answer)) {n : Nat}
    (hle : t ≤ n) : (trace (step env) start actions n).calls[i]? = some (.ret answer) := by
  induction n, hle using Nat.le_induction with
  | base => exact hcall
  | succ n hle ih => exact getElem?_calls_step_ret ih (actions n)

/-- A resolver that keeps getting turns comes to its end, whatever its calls answer.  The
induction is on its program. -/
theorem eventually_ret (hfair : ∀ n, ∃ m, n ≤ m ∧ ∃ order, actions m = .turn i order)
    (prog : ResolveProg (Option ResolveAnswer)) {t : Nat}
    (hcall : (trace (step env) start actions t).calls[i]? = some prog) :
    ∃ n answer, t ≤ n ∧
      (trace (step env) start actions n).calls[i]? = some (.ret answer) := by
  induction prog generalizing t with
  | ret answer => exact ⟨t, answer, Nat.le_refl t, hcall⟩
  | call c next ih =>
      -- The first turn from now on makes the call that the program waits with.
      classical
      have hturn := hfair t
      obtain ⟨hle, order, hact⟩ := Nat.find_spec hturn
      have hwaiting := getElem?_calls_trace hcall hle fun m hm hlt order' heq =>
        Nat.find_min hturn hlt ⟨hm, order', heq⟩
      generalize Nat.find hturn = first at hle hact hwaiting
      have hnext : (trace (step env) start actions (first + 1)).calls[i]? =
          some (next ((trace (step env) start actions first).db.resolveReply env
            (trace (step env) start actions first).cache c)) := by
        show (step env (trace (step env) start actions first) (actions first)).calls[i]? = _
        rw [hact]
        exact getElem?_calls_turn hwaiting order
      obtain ⟨n, answer, hn, hret⟩ := ih _ hnext
      exact ⟨n, answer, by omega, hret⟩

/-- From a fresh service on, a resolver that keeps getting turns has an answer from some time
on, whatever other resolvers, transactions and invalidations come between its calls. -/
theorem fair_resolver_answers {now : UInt64} {maxEntries t : Nat}
    (hstarted : i < (trace (step env) (init now maxEntries) actions t).calls.length)
    (hfair : ∀ n, ∃ m, n ≤ m ∧ ∃ order, actions m = .turn i order) :
    ∃ n answer, ∀ m, n ≤ m →
      (trace (step env) (init now maxEntries) actions m).calls[i]? = some (.ret (some answer)) := by
  obtain ⟨n, result, -, hret⟩ := eventually_ret hfair _ (List.getElem?_eq_getElem hstarted)
  have hall : AllAnswer (trace (step env) (init now maxEntries) actions n) :=
    trace_invariant (allAnswer_init now maxEntries) (fun _ action h => h.step action) n
  obtain ⟨answer, rfl⟩ := Option.isSome_iff_exists.mp (hall _ (List.mem_of_getElem? hret))
  exact ⟨n, answer, fun m hm => getElem?_calls_trace_ret hret hm⟩

end Trace

/-- The answer of a resolver that has returned. -/
def answered : ResolveProg (Option ResolveAnswer) → Option ResolveAnswer
  | .ret answer => answer
  | .call _ _ => none

/-- A link that leads to itself is made, two resolvers of it take turns, with a budget of two
links and of none, and its edge is invalidated in between. -/
def selfLinkActions : Nat → ResolveAction
  | 0 => .commit [.createDentry 0 1 "a" (.symLink "/a") 0]
  | 1 => .resolve "/a" 2
  | 2 => .resolve "/a" 0
  | n + 3 =>
      if n % 3 = 0 then .turn 0 .insertion
      else if n % 3 = 1 then .turn 1 .insertion
      else .invalidate .insertion (1, "a")

/-- The first one answers, with the link that is left when the budget is used up. -/
theorem selfLink_answered :
    let traced := trace (step (.standalone 0)) (init 0 8) selfLinkActions
    (∃ n answer, ∀ m, n ≤ m → (traced m).calls[0]? = some (.ret (some answer))) ∧
      (traced 30).calls[0]?.bind answered = some (.ok (some ⟨.symLink "/a", none⟩)) := by
  intro traced
  have hturns : ∀ n, ∃ m, n ≤ m ∧ ∃ order, selfLinkActions m = .turn 0 order := by
    intro n
    refine ⟨3 * n + 3, by omega, .insertion, ?_⟩
    show (if 3 * n % 3 = 0 then ResolveAction.turn 0 .insertion else _) = _
    rw [if_pos (by omega)]
  exact ⟨@fair_resolver_answers _ _ _ 0 8 2 (by decide) hturns, by decide +kernel⟩

end ResolveSystem
end FsMeta
end CyfsNdn
