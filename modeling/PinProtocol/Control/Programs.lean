/-!
# Programs — callers of an interface

A caller makes one call after the other, and may choose each of them in view of the answers so far.
`Program.run` lets such a caller work with an interface that answers every call, and
`Program.eval` with one that may fail.

`Simulates` says that an interface that may fail answers like one that does not, as long as it
gets the calls that it supports; `Program.eval_eq` lifts this from calls to programs.
-/

namespace PinProtocol
namespace Control

variable {Q A S T α : Type}

/-- A caller; `Q` are the calls and `A` the answers. -/
inductive Program (Q A α : Type)
  | done (a : α)
  | call (q : Q) (resume : A → Program Q A α)

namespace Program

/-- The program with an interface that answers every call. -/
def run (serve : Q → S → A × S) : Program Q A α → S → α × S
  | done a, s => (a, s)
  | call q resume, s => (resume (serve q s).1).run serve (serve q s).2

/-- The program with an interface that may fail. -/
def eval (handle : Q → T → Option (A × T)) : Program Q A α → T → Option (α × T)
  | done a, t => some (a, t)
  | call q resume, t => (handle q t).bind fun r => (resume r.1).eval handle r.2

/-- Every call of the program is supported in the state in which it is made. -/
def Supported (supports : S → Q → Prop) (serve : Q → S → A × S) : Program Q A α → S → Prop
  | done _, _ => True
  | call q resume, s =>
      supports s q ∧ (resume (serve q s).1).Supported supports serve (serve q s).2

/-- Every call that the program may make, whatever the answers. -/
def Calls (P : Q → Prop) : Program Q A α → Prop
  | done _ => True
  | call q resume => P q ∧ ∀ answer, (resume answer).Calls P

end Program

/-- Calls that are supported in `s` get in the states of `T` that are related to `s` the answer that
they get in `s`. -/
def Simulates (related : T → S → Prop) (handle : Q → T → Option (A × T)) (serve : Q → S → A × S)
    (supports : S → Q → Prop) : Prop :=
  ∀ t s q, related t s → supports s q →
    ∃ t', handle q t = some ((serve q s).1, t') ∧ related t' (serve q s).2

theorem Program.eval_eq {related : T → S → Prop} {handle : Q → T → Option (A × T)}
    {serve : Q → S → A × S} {supports : S → Q → Prop}
    (hsim : Simulates related handle serve supports) (program : Program Q A α) {t : T} {s : S}
    (hrelated : related t s) (hsupported : program.Supported supports serve s) :
    ∃ t', program.eval handle t = some ((program.run serve s).1, t') ∧
      related t' (program.run serve s).2 := by
  induction program generalizing t s with
  | done a => exact ⟨t, rfl, hrelated⟩
  | call q resume ih =>
      obtain ⟨hq, hrest⟩ := hsupported
      obtain ⟨t₁, hhandle, hrelated₁⟩ := hsim t s q hrelated hq
      obtain ⟨t₂, heval, hrelated₂⟩ := ih _ hrelated₁ hrest
      refine ⟨t₂, ?_, hrelated₂⟩
      rw [eval, hhandle, Option.bind_some]
      exact heval

end Control
end PinProtocol
