import PinProtocol.Control.Assign
import PinProtocol.Control.Programs
import PinProtocol.System.Client
import PinProtocol.System.Errors

/-!
# Board — what the driver is for

A caller of `driver.h` has a board in mind: pins with a type, a value and a fallback, and calls that
read and write them.  Nothing of that mentions packets, masks of bits or tables on two sides.
`Board.serve` says what each call does to a board and answers; `Board.Supports` says which calls
the driver can be trusted with.

`ApiCall.client` is the same call as the driver makes it, packet by packet.  The remaining function
of the library, `reset`, is none that a board could serve: it waits for a reply that no device sends
(`LibraryCall`).
-/

namespace PinProtocol

open Bits Control

variable {W α : Type}

/-! ## Boards -/

structure Board where
  version : BitVec 8
  type : Nat → BitVec 3
  val : Nat → BitVec 16
  fallback : Nat → PinFailsafe
  timeout : BitVec 16

/-- What a caller may call; the operations of `DriverCall`, and the two that return nothing. -/
inductive ApiCall
  | getCaps
  | ping
  | driver (call : DriverCall)

/-- What a call hands to its caller through a pointer. -/
inductive Output
  | nothing
  | byte (v : BitVec 8)
  | bit (v : Bool)
  | word (v : BitVec 16)
  | words (vs : List (BitVec 16))
  | entry (e : PinFailsafe)
  | table (f : Failsafe)
  deriving DecidableEq, Repr

structure Answer where
  ret : Int
  out : Output
  deriving DecidableEq, Repr

/-- The value that is left of `v` in a field of `width` bits. -/
def lowBits (v : BitVec 16) (width : Nat) : BitVec 16 :=
  BitVec.ofNat 16 (v.toNat % 2 ^ width)

namespace Board

variable (nbPins : Nat)

/-- One pin gets a type and a value. -/
def write (board : Board) (pinId mode : BitVec 8) (v : BitVec 16) : Board :=
  { board with
    type := assign [pinId.toNat] (fun _ => mode.setWidth 3) board.type
    val := assign [pinId.toNat] (fun _ => v) board.val }

/-- The answer to a call, and the board after it. -/
def serveDriver (board : Board) : DriverCall → Answer × Board
  | .genericRead pinId pinMode =>
      (⟨0, .word (lowBits (board.val pinId.toNat) (getTypeBitsNb pinMode))⟩, board)
  | .digitalRead pinId => (⟨0, .bit (lowBits (board.val pinId.toNat) 1 != 0)⟩, board)
  | .analogicRead pinId | .pwm16Read pinId => (⟨0, .word (board.val pinId.toNat)⟩, board)
  | .pwm8Read pinId => (⟨0, .byte ((board.val pinId.toNat).setWidth 8)⟩, board)
  | .readValueMask mask type =>
      (⟨0, .words ((usedPins mask nbPins).map fun pin =>
        lowBits (board.val pin) (getTypeBitsNb type))⟩, board)
  | .genericWrite pinId pinMode val _ =>
      (⟨0, .nothing⟩, board.write pinId pinMode (lowBits val (getTypeBitsNb pinMode)))
  | .digitalWrite pinId val =>
      (⟨0, .nothing⟩, board.write pinId pinTypeDigital ((BitVec.ofBool val).setWidth 16))
  | .analogicWrite pinId val => (⟨0, .nothing⟩, board.write pinId pinTypeAnalog16 val)
  | .pwm8Write pinId val => (⟨0, .nothing⟩, board.write pinId pinTypePwm8 (lowBits val 8))
  | .pwm16Write pinId val => (⟨0, .nothing⟩, board.write pinId pinTypePwm16 val)
  | .writeValueMask mask _ values =>
      (⟨0, .nothing⟩,
        { board with val := assign (usedPins mask nbPins) (values.getD · 0) board.val })
  | .getType pinId => (⟨0, .byte ((board.type pinId.toNat).setWidth 8)⟩, board)
  | .getTypeMask mask =>
      (⟨1, .words ((usedPins mask nbPins).map fun pin => (board.type pin).setWidth 16)⟩, board)
  | .setType pinId type =>
      (⟨1, .nothing⟩,
        { board with type := assign [pinId.toNat] (fun _ => type.setWidth 3) board.type })
  | .setTypeMask mask types =>
      (⟨0, .nothing⟩,
        { board with
          type := assign (usedPins mask nbPins) (fun i => (types.getD i 0).setWidth 3)
            board.type })
  | .getFailsafe pinId => (⟨1, .entry (board.fallback pinId.toNat)⟩, board)
  | .getFailsafeMask mask table =>
      (⟨1, .table
        { timeout := board.timeout
          pinsFailsafe := (usedPins mask nbPins).map board.fallback ++
            table.pinsFailsafe.drop (usedPins mask nbPins).length }⟩, board)
  | .setFailsafe pinNo timeout entry =>
      (⟨1, .nothing⟩,
        { board with
          timeout := timeout
          fallback := assign [pinNo.toNat] (fun _ => entry) board.fallback })
  | .setFailsafeMask mask type timeout values =>
      (⟨0, .nothing⟩,
        { board with
          timeout := timeout
          fallback := assign (usedPins mask nbPins)
            (fun i => { pinState := type, pinValue := values.getD i 0 }) board.fallback })

def serve : ApiCall → Board → Answer × Board
  | .getCaps, board => (⟨0, .nothing⟩, board)
  | .ping, board => (⟨0, .byte board.version⟩, board)
  | .driver call, board => board.serveDriver nbPins call

/-- The calls that the driver serves as a board does.  Each of the restrictions is one of the
protocol or of its implementation. -/
def SupportsDriver (board : Board) : DriverCall → Prop
  | .genericRead pinId pinMode => pinId.toNat < nbPins ∧ pinMode.toNat ≤ 4
  | .digitalRead pinId | .analogicRead pinId | .pwm8Read pinId | .pwm16Read pinId
  | .digitalWrite pinId _ | .analogicWrite pinId _ | .pwm8Write pinId _ | .pwm16Write pinId _
  | .getType pinId => pinId.toNat < nbPins
  -- digital fields are written with their whole value, and run into each other
  | .readValueMask mask type =>
      nbPins ≤ mask.length ∧ type.toNat ≤ 4 ∧
        (type = pinTypeDigital → ∀ pin ∈ usedPins mask nbPins, (board.val pin).toNat < 2)
  | .genericWrite pinId pinMode _ valSize =>
      pinId.toNat < nbPins ∧ pinMode.toNat ≤ 4 ∧ valSize = getTypeBitsNb pinMode
  -- the device takes the values through a `uint8_t`
  | .writeValueMask mask type values =>
      nbPins ≤ mask.length ∧ type.toNat ≤ 4 ∧ values.length = (usedPins mask nbPins).length ∧
        ∀ v ∈ values, v.toNat < 2 ^ getTypeBitsNb type ∧ v.toNat < 2 ^ 8
  -- the request leaves the last pin out, and is a byte short when that pin has one to itself
  | .getTypeMask mask =>
      nbPins ≤ mask.length ∧ nbPins % 8 ≠ 1 ∧ pinUsed mask (nbPins - 1) = false
  | .setType pinId type => pinId.toNat < nbPins ∧ type.toNat < 8
  | .setTypeMask mask types =>
      nbPins ≤ mask.length ∧ types.length = (usedPins mask nbPins).length ∧
        ∀ t ∈ types, t.toNat < 8
  | .getFailsafe pinId =>
      pinId.toNat < nbPins ∧ (board.fallback pinId.toNat).Valid ∧
        EntryReadable 24 (board.fallback pinId.toNat)
  -- the request has the size of the types of the pins used, and not of the mask
  | .getFailsafeMask mask table =>
      nbPins ≤ 16 ∧ nbPins ≤ mask.length ∧
        (usedPins mask nbPins).length ≤ table.pinsFailsafe.length ∧ usedPins mask nbPins ≠ [] ∧
        (3 * (usedPins mask nbPins).length - 1) / 8 = (nbPins - 1) / 8 ∧
        (∀ pin ∈ usedPins mask nbPins, (board.fallback pin).Valid) ∧
        Readable 24 ((usedPins mask nbPins).map board.fallback)
  -- the request has no room for a digital value
  | .setFailsafe pinNo _ entry =>
      pinNo.toNat < nbPins ∧ entry.pinState.toNat ≤ 4 ∧ entry.pinState ≠ pinTypeDigital ∧
        entry.pinValue.toNat < 2 ^ getTypeBitsNb entry.pinState
  | .setFailsafeMask mask type _ values =>
      nbPins ≤ mask.length ∧ nbPins % 8 = 0 ∧ type.toNat ≤ 4 ∧
        (usedPins mask nbPins).length ≤ values.length ∧
        ∀ v ∈ values, v.toNat < 2 ^ getTypeBitsNb type

def Supports (board : Board) : ApiCall → Prop
  | .getCaps | .ping => True
  | .driver call => board.SupportsDriver nbPins call

end Board

/-! ## Calls, packet by packet -/

namespace DriverCall

/-- The answer of a call of the driver, and both ends afterwards. -/
def answer (link : Link W) (c : Connection) (w : W) :
    DriverCall → Option (Answer × Connection × W)
  | genericRead pinId pinMode =>
      (PinProtocol.genericRead link c w pinId pinMode).map fun r =>
        (⟨r.ret, .word r.out⟩, r.conn, r.world)
  | digitalRead pinId =>
      (PinProtocol.digitalRead link c w pinId).map fun r => (⟨r.ret, .bit r.out⟩, r.conn, r.world)
  | analogicRead pinId =>
      (PinProtocol.analogicRead link c w pinId).map fun r =>
        (⟨r.ret, .word r.out⟩, r.conn, r.world)
  | pwm8Read pinId =>
      (PinProtocol.pwm8Read link c w pinId).map fun r => (⟨r.ret, .byte r.out⟩, r.conn, r.world)
  | pwm16Read pinId =>
      (PinProtocol.pwm16Read link c w pinId).map fun r => (⟨r.ret, .word r.out⟩, r.conn, r.world)
  | readValueMask mask type =>
      (PinProtocol.readValueMask link c w mask type).map fun r =>
        (⟨r.ret, .words r.out⟩, r.conn, r.world)
  | genericWrite pinId pinMode val valSize =>
      (PinProtocol.genericWrite link c w pinId pinMode val valSize).map fun r =>
        (⟨r.ret, .nothing⟩, r.conn, r.world)
  | digitalWrite pinId val =>
      (PinProtocol.digitalWrite link c w pinId val).map fun r =>
        (⟨r.ret, .nothing⟩, r.conn, r.world)
  | analogicWrite pinId val =>
      (PinProtocol.analogicWrite link c w pinId val).map fun r =>
        (⟨r.ret, .nothing⟩, r.conn, r.world)
  | pwm8Write pinId val =>
      (PinProtocol.pwm8Write link c w pinId val).map fun r => (⟨r.ret, .nothing⟩, r.conn, r.world)
  | pwm16Write pinId val =>
      (PinProtocol.pwm16Write link c w pinId val).map fun r =>
        (⟨r.ret, .nothing⟩, r.conn, r.world)
  | writeValueMask mask type values =>
      (PinProtocol.writeValueMask link c w mask type values).map fun r =>
        (⟨r.ret, .nothing⟩, r.conn, r.world)
  | getType pinId =>
      (PinProtocol.getType link c w pinId).map fun r => (⟨r.ret, .byte r.out⟩, r.conn, r.world)
  | getTypeMask mask =>
      (PinProtocol.getTypeMask link c w mask).map fun r => (⟨r.ret, .words r.out⟩, r.conn, r.world)
  | setType pinId type =>
      (PinProtocol.setType link c w pinId type).map fun r => (⟨r.ret, .nothing⟩, r.conn, r.world)
  | setTypeMask mask types =>
      (PinProtocol.setTypeMask link c w mask types).map fun r =>
        (⟨r.ret, .nothing⟩, r.conn, r.world)
  | getFailsafe pinId =>
      (PinProtocol.getFailsafe link c w pinId).map fun r =>
        (⟨r.ret, .entry r.out⟩, r.conn, r.world)
  | getFailsafeMask mask table =>
      (PinProtocol.getFailsafeMask link c w mask table).map fun r =>
        (⟨r.ret, .table r.out⟩, r.conn, r.world)
  | setFailsafe pinId timeout entry =>
      (PinProtocol.setFailsafe link c w pinId timeout entry).map fun r =>
        (⟨r.ret, .nothing⟩, r.conn, r.world)
  | setFailsafeMask mask type timeout values =>
      (PinProtocol.setFailsafeMask link c w mask type timeout values).map fun r =>
        (⟨r.ret, .nothing⟩, r.conn, r.world)

/-- What the call makes of its reply. -/
def applyAnswer (c : Connection) (reply : Packet) : DriverCall → Option (Answer × Connection)
  | genericRead pinId pinMode =>
      (genericReadApply c pinId pinMode reply).map fun s => (⟨s.1, .word s.2.1⟩, s.2.2)
  | digitalRead pinId =>
      (genericReadApply c pinId pinTypeDigital reply).map fun s => (⟨0, .bit (s.2.1 != 0)⟩, s.2.2)
  | analogicRead pinId =>
      (genericReadApply c pinId pinTypeAnalog16 reply).map fun s => (⟨0, .word s.2.1⟩, s.2.2)
  | pwm8Read pinId =>
      (genericReadApply c pinId pinTypePwm8 reply).map fun s =>
        (⟨0, .byte (s.2.1.setWidth 8)⟩, s.2.2)
  | pwm16Read pinId =>
      (genericReadApply c pinId pinTypePwm16 reply).map fun s => (⟨0, .word s.2.1⟩, s.2.2)
  | readValueMask mask type =>
      (readValueMaskApply c mask type reply).map fun s => (⟨s.1, .words s.2.1⟩, s.2.2)
  | genericWrite pinId _ val _ =>
      (genericWriteApply c pinId val).map fun s => (⟨s.1, .nothing⟩, s.2.2)
  | digitalWrite pinId val =>
      (genericWriteApply c pinId ((BitVec.ofBool val).setWidth 16)).map fun s =>
        (⟨s.1, .nothing⟩, s.2.2)
  | analogicWrite pinId val | pwm8Write pinId val | pwm16Write pinId val =>
      (genericWriteApply c pinId val).map fun s => (⟨s.1, .nothing⟩, s.2.2)
  | writeValueMask mask _ values =>
      (writeValueMaskApply c mask values).map fun s => (⟨s.1, .nothing⟩, s.2.2)
  | getType pinId => (getTypeApply c pinId reply).map fun s => (⟨s.1, .byte s.2.1⟩, s.2.2)
  | getTypeMask mask => (getTypeMaskApply c mask reply).map fun s => (⟨s.1, .words s.2.1⟩, s.2.2)
  | setType pinId type => (setTypeApply c pinId type).map fun s => (⟨s.1, .nothing⟩, s.2.2)
  | setTypeMask mask types =>
      (setTypeMaskApply c mask types).map fun s => (⟨s.1, .nothing⟩, s.2.2)
  | getFailsafe _ => (getFailsafeApply c reply).map fun s => (⟨s.1, .entry s.2.1⟩, s.2.2)
  | getFailsafeMask mask table =>
      (getFailsafeMaskApply c mask table reply).map fun s => (⟨s.1, .table s.2.1⟩, s.2.2)
  | setFailsafe pinId timeout entry =>
      (setFailsafeApply c pinId timeout entry).map fun s => (⟨s.1, .nothing⟩, s.2.2)
  | setFailsafeMask mask type timeout values =>
      (setFailsafeMaskApply c mask type timeout values).map fun s => (⟨s.1, .nothing⟩, s.2.2)

end DriverCall

namespace ApiCall

/-- The answer of a call, and both ends afterwards; a call that returns nothing is taken to
return 0. -/
def answer (link : Link W) (c : Connection) (w : W) : ApiCall → Option (Answer × Connection × W)
  | getCaps => (PinProtocol.getCaps link c w).map fun r => (⟨r.ret, .nothing⟩, r.conn, r.world)
  | ping => (PinProtocol.ping link c w).map fun r => (⟨r.ret, .byte r.out⟩, r.conn, r.world)
  | driver call => call.answer link c w

def request (c : Connection) : ApiCall → Option Packet
  | getCaps => some getCapsRequest
  | ping => pingRequest c
  | driver call => call.request c

def applyAnswer (c : Connection) (reply : Packet) : ApiCall → Option (Answer × Connection)
  | getCaps => (getCapsApply c reply).map fun s => (⟨s.1, .nothing⟩, s.2.2)
  | ping => (pingApply c reply).map fun s => (⟨s.1, .byte s.2.1⟩, s.2.2)
  | driver call => call.applyAnswer c reply

/-- The call as a program that asks with one packet, and goes on with the answer. -/
def client (c : Connection) (call : ApiCall) (next : Answer → Connection → Client α) : Client α :=
  Client.operation (call.request c)
    (fun reply => (call.applyAnswer c reply).map fun s => (s.1.ret, s.1.out, s.2))
    fun ret out c' => next ⟨ret, out⟩ c'

end ApiCall

/-- A caller of `driver.h` as a program that sends packets. -/
def clientOf (c : Connection) : Program ApiCall Answer α → Client α
  | .done a => .done a
  | .call call resume => call.client c fun answer c' => clientOf c' (resume answer)

/-- All functions of `driver.h`. -/
inductive LibraryCall
  | reset
  | api (call : ApiCall)

namespace LibraryCall

def answer (link : Link W) (c : Connection) (w : W) :
    LibraryCall → Option (Answer × Connection × W)
  | reset => (PinProtocol.reset link c w).map fun r => (⟨r.ret, .nothing⟩, r.conn, r.world)
  | api call => call.answer link c w

def request (c : Connection) : LibraryCall → Option Packet
  | reset => some resetRequest
  | api call => call.request c

def applyAnswer (c : Connection) (reply : Packet) : LibraryCall → Option (Answer × Connection)
  | reset => some (⟨0, .nothing⟩, c)
  | api call => call.applyAnswer c reply

def client (c : Connection) (call : LibraryCall) (next : Answer → Connection → Client α) :
    Client α :=
  Client.operation (call.request c)
    (fun reply => (call.applyAnswer c reply).map fun s => (s.1.ret, s.1.out, s.2))
    fun ret out c' => next ⟨ret, out⟩ c'

end LibraryCall

/-- A caller of the whole library. -/
def libraryClient (c : Connection) : Program LibraryCall Answer α → Client α
  | .done a => .done a
  | .call call resume => call.client c fun answer c' => libraryClient c' (resume answer)

section Packets

variable (link : Link W)

/-- An operation, with its result and its output as an answer. -/
theorem operation_answer {β : Type} (request : Option Packet)
    (apply : Packet → Option (Int × β × Connection)) (f : β → Output) (w : W) :
    (operation link w request apply).map
        (fun r => ((⟨r.ret, f r.out⟩ : Answer), r.conn, r.world)) =
      request.bind fun p => (exchange link p w).bind fun r =>
        ((apply r.1).map fun s => ((⟨s.1, f s.2.1⟩ : Answer), s.2.2)).map
          fun s => (s.1, s.2, r.2) := by
  cases request with
  | none => rfl
  | some p =>
      simp only [operation, Option.bind_eq_bind, Option.bind_some]
      cases exchange link p w with
      | none => rfl
      | some r =>
          rw [Option.bind_some, Option.bind_some]
          cases apply r.1 <;> rfl

/-- The readers of one type return 0, and convert the value. -/
theorem readOf_answer (c : Connection) (pinId mode : BitVec 8) {γ : Type} (g : BitVec 16 → γ)
    (f : γ → Output) (w : W) :
    ((genericRead link c w pinId mode).bind fun r =>
        some ({ ret := 0, out := g r.out, conn := r.conn, world := r.world } : Done W γ)).map
          (fun r => ((⟨r.ret, f r.out⟩ : Answer), r.conn, r.world)) =
      (genericReadRequest pinId mode).bind fun p => (exchange link p w).bind fun r =>
        ((genericReadApply c pinId mode r.1).map fun s =>
          ((⟨0, f (g s.2.1)⟩ : Answer), s.2.2)).map fun s => (s.1, s.2, r.2) := by
  cases hrequest : genericReadRequest pinId mode with
  | none =>
      rw [genericRead, hrequest]
      rfl
  | some p =>
      simp only [genericRead, operation, hrequest, Option.bind_eq_bind, Option.bind_some]
      cases exchange link p w with
      | none => rfl
      | some r =>
          rw [Option.bind_some, Option.bind_some]
          cases genericReadApply c pinId mode r.1 <;> rfl

/-- A call of the driver is its request, one exchange, and what it makes of the reply. -/
theorem DriverCall.answer_eq (c : Connection) (w : W) (call : DriverCall) :
    call.answer link c w =
      (call.request c).bind fun p => (exchange link p w).bind fun r =>
        (call.applyAnswer c r.1).map fun s => (s.1, s.2, r.2) := by
  have hmap : ∀ {β : Type} (apply : Packet → Option (Int × β × Connection)) (f : β → Output), _ :=
    fun apply f => operation_answer link (call.request c) apply f w
  cases call with
  | digitalRead pinId =>
      exact readOf_answer link c pinId pinTypeDigital (fun v => v != 0) Output.bit w
  | analogicRead pinId =>
      exact readOf_answer link c pinId pinTypeAnalog16 (fun v => v) Output.word w
  | pwm8Read pinId =>
      exact readOf_answer link c pinId pinTypePwm8 (fun v => v.setWidth 8) Output.byte w
  | pwm16Read pinId => exact readOf_answer link c pinId pinTypePwm16 (fun v => v) Output.word w
  | genericRead pinId pinMode =>
      exact hmap (genericReadApply c pinId pinMode) Output.word
  | readValueMask mask type =>
      exact hmap (readValueMaskApply c mask type) Output.words
  | getType pinId => exact hmap (getTypeApply c pinId) Output.byte
  | getTypeMask mask => exact hmap (getTypeMaskApply c mask) Output.words
  | getFailsafe pinId => exact hmap (getFailsafeApply c) Output.entry
  | getFailsafeMask mask table =>
      exact hmap (getFailsafeMaskApply c mask table) Output.table
  | genericWrite pinId pinMode val valSize =>
      exact hmap (fun _ => genericWriteApply c pinId val) fun _ => .nothing
  | digitalWrite pinId val =>
      exact hmap (fun _ => genericWriteApply c pinId ((BitVec.ofBool val).setWidth 16))
        fun _ => .nothing
  | analogicWrite pinId val => exact hmap (fun _ => genericWriteApply c pinId val) fun _ => .nothing
  | pwm8Write pinId val => exact hmap (fun _ => genericWriteApply c pinId val) fun _ => .nothing
  | pwm16Write pinId val => exact hmap (fun _ => genericWriteApply c pinId val) fun _ => .nothing
  | writeValueMask mask type values =>
      exact hmap (fun _ => writeValueMaskApply c mask values) fun _ => .nothing
  | setType pinId type => exact hmap (fun _ => setTypeApply c pinId type) fun _ => .nothing
  | setTypeMask mask types => exact hmap (fun _ => setTypeMaskApply c mask types) fun _ => .nothing
  | setFailsafe pinId timeout entry =>
      exact hmap (fun _ => setFailsafeApply c pinId timeout entry) fun _ => .nothing
  | setFailsafeMask mask type timeout values =>
      exact hmap (fun _ => setFailsafeMaskApply c mask type timeout values) fun _ => .nothing

theorem ApiCall.answer_eq (c : Connection) (w : W) (call : ApiCall) :
    call.answer link c w =
      (call.request c).bind fun p => (exchange link p w).bind fun r =>
        (call.applyAnswer c r.1).map fun s => (s.1, s.2, r.2) := by
  cases call with
  | getCaps => exact operation_answer link _ (getCapsApply c) (fun _ => Output.nothing) w
  | ping => exact operation_answer link _ (pingApply c) Output.byte w
  | driver call => exact call.answer_eq link c w

theorem LibraryCall.answer_eq (c : Connection) (w : W) (call : LibraryCall) :
    call.answer link c w =
      (call.request c).bind fun p => (exchange link p w).bind fun r =>
        (call.applyAnswer c r.1).map fun s => (s.1, s.2, r.2) := by
  cases call with
  | reset => exact operation_answer link _ (fun _ => some (0, (), c)) (fun _ => Output.nothing) w
  | api call => exact call.answer_eq link c w

/-- A call as a program: the request, the answer, and then the rest. -/
theorem run_call (request : Option Packet) (apply : Packet → Option (Answer × Connection))
    (next : Answer → Connection → Client α) (w : W) :
    (Client.operation request (fun reply => (apply reply).map fun s => (s.1.ret, s.1.out, s.2))
        fun ret out c' => next ⟨ret, out⟩ c').run link w =
      (request.bind fun p => (exchange link p w).bind fun r =>
        (apply r.1).map fun s => (s.1, s.2, r.2)).bind
          fun r => (next r.1 r.2.1).run link r.2.2 := by
  rw [Client.run_operation, operation]
  simp only [Option.bind_eq_bind, Option.bind_assoc]
  refine Option.bind_congr fun p _ => Option.bind_congr fun r _ => ?_
  cases apply r.1 <;> rfl

theorem ApiCall.run_client (c : Connection) (w : W) (call : ApiCall)
    (next : Answer → Connection → Client α) :
    (call.client c next).run link w =
      (call.answer link c w).bind fun r => (next r.1 r.2.1).run link r.2.2 := by
  rw [ApiCall.client, run_call, ApiCall.answer_eq]

theorem LibraryCall.run_client (c : Connection) (w : W) (call : LibraryCall)
    (next : Answer → Connection → Client α) :
    (call.client c next).run link w =
      (call.answer link c w).bind fun r => (next r.1 r.2.1).run link r.2.2 := by
  rw [LibraryCall.client, run_call, LibraryCall.answer_eq]

/-- A caller of `driver.h` gets the answers of the driver, call after call. -/
theorem run_clientOf (program : Program ApiCall Answer α) (c : Connection) (w : W) :
    (clientOf c program).run link w =
      (program.eval (fun call (t : Connection × W) => call.answer link t.1 t.2) (c, w)).map
        fun r => (r.1, r.2.2) := by
  induction program generalizing c w with
  | done a => rfl
  | call call resume ih =>
      rw [clientOf, ApiCall.run_client, Program.eval, Option.map_bind]
      exact Option.bind_congr fun r _ => ih r.1 r.2.1 r.2.2

theorem run_libraryClient (program : Program LibraryCall Answer α) (c : Connection) (w : W) :
    (libraryClient c program).run link w =
      (program.eval (fun call (t : Connection × W) => call.answer link t.1 t.2) (c, w)).map
        fun r => (r.1, r.2.2) := by
  induction program generalizing c w with
  | done a => rfl
  | call call resume ih =>
      rw [libraryClient, LibraryCall.run_client, Program.eval, Option.map_bind]
      exact Option.bind_congr fun r _ => ih r.1 r.2.1 r.2.2

end Packets

end PinProtocol
