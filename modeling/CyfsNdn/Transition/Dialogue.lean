import Mathlib.Tactic

/-!
# Programs that ask a server

A dialogue asks a server one question after the other, and what it asks next depends on the
answers.  Other dialogues have their turns in between, so at each question the server is in
any state that they can lead to.

`Runs` lists the turns of a dialogue, and `Guarantees` is the rule to say something of all
of them: it goes through the dialogue once, question by question.
-/

namespace CyfsNdn
namespace Transition

/-- A program: its result, or a question and what follows each answer to it. -/
inductive Dialogue (Q : Type) (R : Q → Type) (α : Type) where
  | ret (result : α)
  | ask (q : Q) (next : R q → Dialogue Q R α)

/-- One turn: the server that is asked, what surrounds the question, and the question. -/
structure Turn (S E Q : Type) where
  server : S
  env : E
  question : Q

namespace Dialogue

variable {Q : Type} {R : Q → Type} {α β S E : Type}

/-- One question. -/
def once (q : Q) : Dialogue Q R (R q) := .ask q .ret

/-- One dialogue after another. -/
def bind : Dialogue Q R α → (α → Dialogue Q R β) → Dialogue Q R β
  | .ret a, f => f a
  | .ask q next, f => .ask q fun reply => bind (next reply) f

instance : Monad (Dialogue Q R) where
  pure := .ret
  bind := bind

theorem bind_eq (d : Dialogue Q R α) (f : α → Dialogue Q R β) : d >>= f = d.bind f := rfl

instance : LawfulMonad (Dialogue Q R) := by
  refine LawfulMonad.mk' _ ?_ ?_ ?_
  · intro α d
    induction d with
    | ret a => rfl
    | ask q next ih => exact congrArg (Dialogue.ask q) (funext ih)
  · intro α β a f
    rfl
  · intro α β γ d f g
    induction d with
    | ret a => rfl
    | ask q next ih => exact congrArg (Dialogue.ask q) (funext ih)

/-- Every question that it can come to is of this kind. -/
def Asks (kind : Q → Prop) : Dialogue Q R α → Prop
  | .ret _ => True
  | .ask q next => kind q ∧ ∀ reply, Asks kind (next reply)

theorem asks_bind {kind : Q → Prop} {d : Dialogue Q R α} {f : α → Dialogue Q R β}
    (hd : d.Asks kind) (hf : ∀ a, (f a).Asks kind) : (d >>= f).Asks kind := by
  induction d with
  | ret a => exact hf a
  | ask q next ih => exact ⟨hd.1, fun reply => ih reply (hd.2 reply)⟩

section Runs

variable (exec : S → E → (q : Q) → S × R q) (others : S → S → Prop)

/-- The turns of a dialogue that began at a server, with its result if it has ended. -/
inductive Runs : S → Dialogue Q R α → List (Turn S E Q) → Option α → Prop where
  | waiting (s : S) (d : Dialogue Q R α) : Runs s d [] none
  | done (s : S) (a : α) : Runs s (.ret a) [] (some a)
  | turn {s s' : S} {q : Q} {next : R q → Dialogue Q R α} {turns : List (Turn S E Q)}
      {result : Option α} (env : E) (hothers : others s s')
      (hrest : Runs (exec s' env q).1 (next (exec s' env q).2) turns result) :
      Runs s (.ask q next) (⟨s', env, q⟩ :: turns) result

/-- The turns of a dialogue that no other interrupts, and its result. -/
def alone (env : E) : S → Dialogue Q R α → List (Turn S E Q) × α
  | _, .ret a => ([], a)
  | s, .ask q next =>
      let rest := alone env (exec s env q).1 (next (exec s env q).2)
      (⟨s, env, q⟩ :: rest.1, rest.2)

/-- A dialogue where others change the server before a question so: its turns, each with the
server that the one before left, and its result. -/
def among (meddle : Q → S → S) (env : E) : S → Dialogue Q R α → List (S × Turn S E Q) × α
  | _, .ret a => ([], a)
  | s, .ask q next =>
      let s' := meddle q s
      let rest := among meddle env (exec s' env q).1 (next (exec s' env q).2)
      ((s, ⟨s', env, q⟩) :: rest.1, rest.2)

/-- Every turn that is allowed is good, and so is the result. -/
def Guarantees (allowed good : Turn S E Q → Prop) (post : S → α → Prop) :
    S → Dialogue Q R α → Prop
  | s, .ret a => post s a
  | s, .ask q next => ∀ s' env, others s s' → allowed ⟨s', env, q⟩ →
      good ⟨s', env, q⟩ ∧
        Guarantees allowed good post (exec s' env q).1 (next (exec s' env q).2)

/-- The turns of every ended run, and its result, are related so. -/
def Satisfies : (List (Turn S E Q) → α → Prop) → S → Dialogue Q R α → Prop
  | p, _, .ret a => p [] a
  | p, s, .ask q next => ∀ s' env, others s s' →
      Satisfies (fun turns a => p (⟨s', env, q⟩ :: turns) a) (exec s' env q).1
        (next (exec s' env q).2)

variable {exec others} {allowed good : Turn S E Q → Prop} {post : S → α → Prop}

theorem Runs.of_satisfies {s : S} {d : Dialogue Q R α} {turns : List (Turn S E Q)} {a : α}
    (h : Runs exec others s d turns (some a)) {p : List (Turn S E Q) → α → Prop}
    (hd : Satisfies exec others p s d) : p turns a := by
  generalize hresult : some a = result at h
  induction h generalizing p with
  | waiting s d => cases hresult
  | done s b =>
      cases hresult
      exact hd
  | turn env hothers hrest ih => exact ih (hd _ env hothers) hresult

theorem Satisfies.mono {p p' : List (Turn S E Q) → α → Prop} {s : S} {d : Dialogue Q R α}
    (h : Satisfies exec others p s d) (himp : ∀ turns a, p turns a → p' turns a) :
    Satisfies exec others p' s d := by
  induction d generalizing s p p' with
  | ret a => exact himp [] a h
  | ask q next ih => exact fun s' env hothers => ih _ (h s' env hothers) fun _ _ => himp _ _

theorem satisfies_of_forall {p : List (Turn S E Q) → α → Prop} (hp : ∀ turns a, p turns a)
    {s : S} (d : Dialogue Q R α) : Satisfies exec others p s d := by
  induction d generalizing s p with
  | ret a => exact hp [] a
  | ask q next ih => exact fun s' env _ => ih _ fun turns a => hp _ a

theorem runs_alone {inv : S → Prop} (hstep : ∀ s env q, inv s → inv (exec s env q).1)
    (hothers : ∀ s, inv s → others s s) (env : E) (d : Dialogue Q R α) {s : S} (hinv : inv s) :
    Runs exec others s d (alone exec env s d).1 (some (alone exec env s d).2) := by
  induction d generalizing s with
  | ret a => exact .done s a
  | ask q next ih => exact .turn env (hothers s hinv) (ih _ (hstep s env q hinv))

theorem runs_among {meddle : Q → S → S} {env : E} {s : S} (d : Dialogue Q R α)
    (h : ∀ step ∈ (among exec meddle env s d).1, others step.1 step.2.server) :
    Runs exec others s d ((among exec meddle env s d).1.map Prod.snd)
      (some (among exec meddle env s d).2) := by
  induction d generalizing s with
  | ret a => exact .done s a
  | ask q next ih =>
      obtain ⟨hfirst, hrest⟩ := List.forall_mem_cons.mp h
      exact .turn env hfirst (ih _ hrest)

/-- Others that keep an invariant, which the questions keep as well, may come before any
question. -/
theorem runs_among_of_inv {inv : S → Prop} (hstep : ∀ s env q, inv s → inv (exec s env q).1)
    {meddle : Q → S → S} (hmeddle : ∀ s q, inv s → others s (meddle q s) ∧ inv (meddle q s))
    (env : E) (d : Dialogue Q R α) {s : S} (hinv : inv s) :
    Runs exec others s d ((among exec meddle env s d).1.map Prod.snd)
      (some (among exec meddle env s d).2) := by
  induction d generalizing s with
  | ret a => exact .done s a
  | ask q next ih =>
      obtain ⟨hothers, hmeddled⟩ := hmeddle s q hinv
      exact .turn env hothers (ih _ (hstep _ env q hmeddled))

theorem env_of_among {meddle : Q → S → S} {env : E} {s : S} (d : Dialogue Q R α) :
    ∀ step ∈ (among exec meddle env s d).1, step.2.env = env := by
  induction d generalizing s with
  | ret a => exact fun _ hstep => absurd hstep List.not_mem_nil
  | ask q next ih => exact List.forall_mem_cons.mpr ⟨rfl, ih _⟩

/-- The turns of a run are good if they are all allowed. -/
theorem Runs.good_of_guarantees {s : S} {d : Dialogue Q R α} {turns : List (Turn S E Q)} {result : Option α}
    (h : Runs exec others s d turns result) (hd : Guarantees exec others allowed good post s d)
    (hallowed : ∀ t ∈ turns, allowed t) :
    (∀ t ∈ turns, good t) ∧ ∀ a ∈ result, ∃ s', post s' a := by
  induction h with
  | waiting s d => exact ⟨by simp, by simp⟩
  | done s a =>
      refine ⟨by simp, fun a' ha => ?_⟩
      obtain rfl := Option.mem_some_iff.mp ha
      exact ⟨s, hd⟩
  | turn env hothers hrest ih =>
      obtain ⟨hgood, hnext⟩ := hd _ env hothers (hallowed _ List.mem_cons_self)
      obtain ⟨hturns, hresult⟩ := ih hnext fun t ht => hallowed t (List.mem_cons_of_mem _ ht)
      refine ⟨fun t ht => ?_, hresult⟩
      rcases List.mem_cons.mp ht with rfl | ht
      · exact hgood
      · exact hturns t ht

/-- A dialogue whose turns do not matter for what is to be shown. -/
theorem satisfies_bind {kind : Q → Prop} {p : List (Turn S E Q) → β → Prop} {s : S}
    {d : Dialogue Q R α} {f : α → Dialogue Q R β} (hd : d.Asks kind)
    (hcons : ∀ (t : Turn S E Q) turns b, kind t.question → p turns b → p (t :: turns) b)
    (hf : ∀ s a, Satisfies exec others p s (f a)) : Satisfies exec others p s (d >>= f) := by
  induction d generalizing s with
  | ret a => exact hf s a
  | ask q next ih =>
      intro s' env _
      have hrest : Satisfies exec others p (exec s' env q).1
          (next (exec s' env q).2 >>= f) := ih _ (hd.2 _)
      exact hrest.mono fun turns b hturns => hcons ⟨s', env, q⟩ turns b hd.1 hturns

theorem guarantees_bind {mid : S → α → Prop} {post : S → β → Prop} {s : S}
    {d : Dialogue Q R α} {f : α → Dialogue Q R β}
    (hd : Guarantees exec others allowed good mid s d)
    (hf : ∀ s a, mid s a → Guarantees exec others allowed good post s (f a)) :
    Guarantees exec others allowed good post s (d >>= f) := by
  rw [bind_eq]
  induction d generalizing s with
  | ret a => exact hf s a hd
  | ask q next ih =>
      intro s' env hothers hallowed
      obtain ⟨hgood, hnext⟩ := hd s' env hothers hallowed
      exact ⟨hgood, ih _ hnext⟩

/-- A dialogue that no other interrupts keeps an invariant that its good turns keep, and its
result is the one that it guarantees. -/
theorem alone_of_guarantees {inv : S → Prop} {env : E} (hothers : ∀ s, inv s → others s s)
    (hallowed : ∀ s q, allowed ⟨s, env, q⟩)
    (hturn : ∀ s q, inv s → good ⟨s, env, q⟩ → inv (exec s env q).1) {s : S} (hinv : inv s)
    {d : Dialogue Q R α} (h : Guarantees exec others allowed good post s d) :
    ∃ s', inv s' ∧ post s' (alone exec env s d).2 := by
  induction d generalizing s with
  | ret a => exact ⟨s, hinv, h⟩
  | ask q next ih =>
      obtain ⟨hgood, hnext⟩ := h s env (hothers s hinv) (hallowed s q)
      exact ih _ (hturn s q hinv hgood) hnext

end Runs

end Dialogue
end Transition
end CyfsNdn
