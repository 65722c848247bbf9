import PinProtocol.Control.Transitions
import PinProtocol.System.DeviceLink

/-!
# Client — programs that use the driver

Every operation of the driver sends one packet and then waits for one reply, so that a program that
calls it is a tree: at each node it either has finished, or it asks with a packet and goes on with
what comes back.  What it asks next may depend on all replies so far.

`Client.run` is such a program over a `Link`, one exchange after the other; `run_operation` says
that calling an operation of the driver is an exchange of this kind.
-/

namespace PinProtocol

open Bits Control Relation

variable {α β W : Type}

/-- A program that uses the driver; `fault` is one that has left its arrays. -/
inductive Client (α : Type)
  | done (a : α)
  | fault
  | ask (p : Packet) (resume : Packet → Client α)

namespace Client

/-- The program over a link: its result, and the other end afterwards. -/
def run (link : Link W) : Client α → W → Option (α × W)
  | done a, w => some (a, w)
  | fault, _ => none
  | ask p resume, w => (exchange link p w).bind fun r => (resume r.1).run link r.2

/-- Every packet that the program may ever send, whatever the replies. -/
def Asks (P : Packet → Prop) : Client α → Prop
  | done _ => True
  | fault => True
  | ask p resume => P p ∧ ∀ reply, (resume reply).Asks P

/-- One read of the other end takes the frame of every packet that the program may ever send. -/
def FitsBuild (b : Build) (client : Client α) : Prop :=
  client.Asks fun p => p.FitsBuild b

/-- A call of an operation, and the program that goes on with what it returns. -/
def operation (request : Option Packet) (apply : Packet → Option (Int × β × Connection))
    (next : Int → β → Connection → Client α) : Client α :=
  match request with
  | none => fault
  | some p =>
      ask p fun reply =>
        match apply reply with
        | none => fault
        | some (ret, out, c) => next ret out c

theorem run_operation (link : Link W) (request : Option Packet)
    (apply : Packet → Option (Int × β × Connection)) (next : Int → β → Connection → Client α)
    (w : W) :
    (operation request apply next).run link w =
      (PinProtocol.operation link w request apply).bind fun r =>
        (next r.ret r.out r.conn).run link r.world := by
  cases request with
  | none => rfl
  | some p =>
      simp only [operation, run, PinProtocol.operation, Option.bind_eq_bind, Option.bind_some,
        Option.bind_assoc]
      refine Option.bind_congr fun r _ => ?_
      cases happly : apply r.1 with
      | none => rfl
      | some s => rfl

theorem asks_operation {P : Packet → Prop} {request : Option Packet}
    {apply : Packet → Option (Int × β × Connection)} {next : Int → β → Connection → Client α}
    (hrequest : ∀ p, request = some p → P p) (hnext : ∀ ret out c, (next ret out c).Asks P) :
    (operation request apply next).Asks P := by
  cases request with
  | none => trivial
  | some p =>
      refine ⟨hrequest p rfl, fun reply => ?_⟩
      dsimp only
      split
      · trivial
      · exact hnext _ _ _

/-! ## Exchange after exchange -/

/-- The program asks, and goes on with the reply. -/
inductive Exchanges (link : Link W) : Client α × W → Client α × W → Prop where
  | ask {p : Packet} {resume : Packet → Client α} {w w' : W} {reply : Packet} :
      exchange link p w = some (reply, w') →
        Exchanges link (.ask p resume, w) (resume reply, w')

/-- The program has got from `x` to `y`. -/
def Advances (link : Link W) (x y : Client α × W) : Prop :=
  ReflTransGen (Exchanges link) x y

theorem asks_of_advances {P : Packet → Prop} {link : Link W} {x y : Client α × W}
    (h : Advances link x y) (hx : x.1.Asks P) : y.1.Asks P := by
  induction h with
  | refl => exact hx
  | tail _ hlast ih =>
      cases hlast with
      | ask => exact ih.2 _

/-- A program that comes to its end has been led there by its exchanges. -/
theorem advances_of_run {link : Link W} {a : α} {w' : W} {client : Client α} :
    ∀ {w : W}, client.run link w = some (a, w') →
      Advances link (client, w) (.done a, w') := by
  induction client with
  | done a =>
      intro w hrun
      cases hrun
      exact .refl
  | fault =>
      intro w hrun
      cases hrun
  | ask p resume ih =>
      intro w hrun
      obtain ⟨⟨reply, w₁⟩, hexchange, hrest⟩ := Option.bind_eq_some_iff.mp hrun
      exact .head (.ask hexchange) (ih reply hrest)

end Client

end PinProtocol
