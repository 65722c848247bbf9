import PinProtocol.System.BoardCalls
import PinProtocol.System.Session

/-!
# BoardSession — whole sessions against the board

A caller opens a connection, asks for the capabilities and goes on as it likes.  Driver and device
run as two processes; `session_serves_board` says that in the end, whatever the interleaving, the
caller has got what it would have got from a board, and that the device shows the board that such a
board would have become.
-/

namespace PinProtocol

open Bits Control

variable {α : Type}

/-- The board that a device shows. -/
def Board.ofDevice (d : Device) : Board :=
  { version := d.conn.protocolVersion
    type := fun q => (d.conn.pinAt q).pinsType.setWidth 3
    val := fun q => (d.conn.pinAt q).pinsVal
    fallback := fun q => (d.conn.failsafe.getD { timeout := 0, pinsFailsafe := [] }).entryAt q
    timeout := (d.conn.failsafe.getD { timeout := 0, pinsFailsafe := [] }).timeout }

theorem shownBy_ofDevice {nbPins : BitVec 8} {d : Device} (hd : Reachable hostBuild nbPins d) :
    (Board.ofDevice d).ShownBy nbPins.toNat d := by
  have hinv := hd.invariant
  obtain ⟨f, hf⟩ := hinv.failsafe rfl
  refine
    { version := rfl
      type := fun q hq => ?_
      val := fun q _ => rfl
      table := ⟨f, hf, ?_, fun q _ => ?_⟩ }
  · have hlt : q < d.conn.pinsState.length := by
      rw [hinv.pinsState]
      exact hq
    have hpin : d.conn.pinAt q = d.conn.pinsState[q] := List.getD_eq_getElem _ _ hlt
    have htype := hinv.pinsType _ (List.getElem_mem hlt)
    rw [← hpin] at htype
    exact (setWidth_type htype).symm
  · rw [Board.ofDevice, hf]
    rfl
  · rw [Board.ofDevice, hf]
    rfl

/-- A caller that opens a connection, calls `get_caps`, and is then `program`. -/
def sessionOf (program : Program ApiCall Answer α) : Client α :=
  clientOf openedConnection (.call .getCaps fun _ => program)

/-- One exchange after the other, the caller gets the answers of a board. -/
theorem run_sessionOf {nbPins : BitVec 8} (hpos : 0 < nbPins.toNat) {d : Device}
    (hd : Reachable hostBuild nbPins d) (program : Program ApiCall Answer α)
    (hsupported : program.Supported (Board.Supports nbPins.toNat) (Board.serve nbPins.toNat)
      (Board.ofDevice d)) :
    ∃ d', (sessionOf program).run (deviceLink hostBuild) d =
        some ((program.run (Board.serve nbPins.toNat) (Board.ofDevice d)).1, d') ∧
      (program.run (Board.serve nbPins.toNat) (Board.ofDevice d)).2.ShownBy nbPins.toNat d' := by
  have hinv := hd.invariant
  have hnb : d.conn.nbPins = nbPins.toNat := congrArg BitVec.toNat hinv.capsNbPins
  obtain ⟨c, hget, hlinked⟩ := getCaps_board (shownBy_ofDevice hd) hinv.ready.wellFormed hnb hpos
    openedConnection
  obtain ⟨⟨c', d'⟩, heval, hlinked'⟩ := program.eval_eq simulates_board
    (t := (c, d.next)) hlinked hsupported
  refine ⟨d', ?_, hlinked'.toShownBy⟩
  have hanswer : ApiCall.answer (deviceLink hostBuild) openedConnection d .getCaps =
      some (⟨0, .nothing⟩, c, d.next) := by
    simp only [ApiCall.answer, hget]
    rfl
  rw [sessionOf, run_clientOf, Program.eval]
  dsimp only
  rw [hanswer, Option.bind_some, heval]
  rfl

/-- A caller that makes calls which a board supports gets the answers of a board, in every
interleaving of driver and device, and leaves a device that shows the board. -/
theorem session_serves_board {nbPins : BitVec 8} (hpos : 0 < nbPins.toNat) {d : Device}
    (hd : Reachable hostBuild nbPins d) (program : Program ApiCall Answer α)
    (hsupported : program.Supported (Board.Supports nbPins.toNat) (Board.serve nbPins.toNat)
      (Board.ofDevice d)) :
    ∃ d', (program.run (Board.serve nbPins.toNat) (Board.ofDevice d)).2.ShownBy nbPins.toNat d' ∧
      Stuck (Session.Step hostBuild) (Session.start
        (.done (program.run (Board.serve nbPins.toNat) (Board.ofDevice d)).1) d') ∧
      Inevitable (Session.Step hostBuild)
        (· = .start (.done (program.run (Board.serve nbPins.toNat) (Board.ofDevice d)).1) d')
        (.start (sessionOf program) d) := by
  obtain ⟨d', hrun, hshown⟩ := run_sessionOf hpos hd program hsupported
  refine ⟨d', hshown, ?_, session_completes_from rfl hd hrun _ (.inl rfl)⟩
  exact Session.stuck_of_none (Session.driverStep_done _)
    (Session.deviceStep_empty (fun h => nomatch h))

/-- A caller that writes pin 3, and gives its failsafe entry the value that it reads back. -/
def mirrorPwm : Program ApiCall Answer Output :=
  .call (.driver (.pwm8Write 3 200)) fun _ => .call (.driver (.pwm8Read 3)) fun answer =>
    match answer.out with
    | .byte v =>
        .call (.driver (.setFailsafe 3 500 { pinState := pinTypePwm8, pinValue := v.setWidth 16 }))
          fun _ => .call (.driver (.getFailsafe 3)) fun answer => .done answer.out
    | out => .done out

theorem session_serves_board_pwm :
    ∃ d', Inevitable (Session.Step hostBuild)
      (· = .start (.done (.entry { pinState := pinTypePwm8, pinValue := 200 })) d')
      (.start (sessionOf mirrorPwm) (initialDevice hostBuild firmwareNbPins)) := by
  have hvalid : PinFailsafe.Valid { pinState := pinTypePwm8, pinValue := 200#16 } :=
    ⟨.inl (by decide), by decide⟩
  have hreadable : EntryReadable 24 { pinState := pinTypePwm8, pinValue := 200#16 } := by decide
  have hpin : (3#8).toNat < firmwareNbPins.toNat := by decide
  have hd : Reachable hostBuild firmwareNbPins (initialDevice hostBuild firmwareNbPins) :=
    .init (initDeviceContent_eq _ _)
  obtain ⟨d', -, -, hrun⟩ := session_serves_board (by decide) hd mirrorPwm
    ⟨hpin, hpin, ⟨hpin, by decide, by decide, by decide⟩, ⟨hpin, hvalid, hreadable⟩, trivial⟩
  exact ⟨d', hrun⟩

end PinProtocol
