import PinProtocol.Firmware.Invariant
import PinProtocol.System.Capabilities

/-!
# Discipline — which requests get the reply that the driver waits for

After each request the driver reads one packet and takes it for the reply.  `Answered` says that
one turn of `mainloop` sends exactly one frame, and that this frame is a proper reply to the
request.  Only four commands are answered in this way: RESET gets no reply, and the replies to PING,
GET_TYPE and the failsafe commands carry the number of another command.
-/

namespace PinProtocol

open Bits Control

/-! ## Proper replies -/

/-- A packet, as the driver reads it, that reports success for the command `cmdNo` under `id`. -/
structure Packet.Reports (reply : Packet) (cmdNo id : BitVec 8) : Prop where
  valid : packetValid reply = some true
  command : readCmd [reply.header] = some cmdNo
  param : readParam [reply.header] = some repCodeSuccess
  id : reply.data[0]? = some id

/-- The turn of `mainloop` that reads `p` out of `chunk` sends one frame, and the driver reads the
reply to `p` out of it. -/
def Answered (b : Build) (d : Device) (chunk : Buffer) (p : Packet) : Prop :=
  ∃ d' frame reply, mainloopStep b d chunk = some (.served d' [frame]) ∧
    frame.length ≤ hostBuild.buffSize ∧
    connectionRead hostBuild frame = some (.packet reply) ∧ reply.Reports p.command d.nextId

/-- The header of a reply, decoded. -/
theorem header_reply {cmdNo : BitVec 8} (hcmd : cmdNo.toNat < 16) :
    (cmdNo <<< 4 + repCodeSuccess) >>> 4 = cmdNo ∧
      (cmdNo <<< 4 + repCodeSuccess) &&& 15#8 = repCodeSuccess := by
  have hparam : repCodeSuccess = typeParam 0#8 0#8 := rfl
  have hzero : repCodeSuccess.toNat = 0 ∧ (0#8).toNat = 0 := by decide
  have hheader := toNat_header cmdNo 0#8 0#8
  rw [← hparam] at hheader
  refine ⟨BitVec.eq_of_toNat_eq ?_, BitVec.eq_of_toNat_eq ?_⟩
  · rw [toNat_headerCmd, hheader]
    omega
  · rw [toNat_headerParam, hheader]
    omega

theorem reports_replyPacket {cmdNo : BitVec 8} (id : BitVec 8) {size : Nat} {data : Buffer}
    (hcmd : cmdNo.toNat < 16) (hfits : (replyPacket cmdNo id size data).FitsBuild hostBuild)
    (hpos : 0 < (replyPacket cmdNo id size data).size.toNat) :
    (delivered (replyPacket cmdNo id size data)).Reports cmdNo id := by
  obtain ⟨hheader, hparam⟩ := header_reply hcmd
  have hlen : 0 < data.length := by
    have hle : (replyPacket cmdNo id size data).size.toNat ≤ (data.set 0 id).length :=
      hfits.size_le
    rw [List.length_set] at hle
    omega
  refine ⟨packetValid_delivered hfits.size_le, ?_, ?_, ?_⟩
  · rw [readCmd_eq]
    exact congrArg some hheader
  · rw [readParam_eq]
    exact congrArg some hparam
  · rw [data_delivered, List.getElem?_take_of_lt hpos]
    exact List.getElem?_set_self hlen

/-! ## The replies of the device -/

section Replies

variable {b : Build} {d d' : Device} {p q : Packet}

/-- The command that the device puts into its reply to the command `cmdNo`. -/
def replyCommand (cmdNo : BitVec 8) : BitVec 8 :=
  if cmdNo = cmdPing then cmdGetCaps
  else if cmdNo = cmdGetType ∨ cmdNo = cmdGetFailsafe ∨ cmdNo = cmdSetFailsafe then cmdSetType
  else cmdNo

theorem replyCommand_lt (p : Packet) : (replyCommand p.command).toNat < 16 := by
  have hcommand : p.command.toNat < 16 := by
    rw [Packet.command, toNat_headerCmd]
    omega
  unfold replyCommand
  split
  · decide
  · split
    · decide
    · exact hcommand

theorem length_maskedFields (c : Connection) (hwidth : p.width ≤ 16) (v : Nat → BitVec 16) :
    p.width * ((maskedPins c p 0).map v).length ≤ 16 * 255 := by
  have hcount := length_maskedPins_le c p 0
  have hbound := c.nbPins_lt
  rw [List.length_map]
  exact Nat.mul_le_mul hwidth (by omega)

theorem setPacketHeader_size_le (cmdNo param : BitVec 8) {size : Nat} {data : Buffer}
    (h : size ≤ data.length) :
    (setPacketHeader cmdNo param size data).size.toNat ≤
      (setPacketHeader cmdNo param size data).data.length := by
  have hword : (setPacketHeader cmdNo param size data).size.toNat ≤ size := by
    simp only [setPacketHeader, BitVec.toNat_ofNat]
    exact Nat.mod_le _ _
  exact Nat.le_trans hword h

theorem fieldsReply_size_le (cmdNo id : BitVec 8) (width : Nat) (vals : List (BitVec 16)) :
    (fieldsReply cmdNo id width vals).size.toNat ≤
      (fieldsReply cmdNo id width vals).data.length :=
  setPacketHeader_size_le _ _ (by simp)

theorem failsafeReply_size_le (id : BitVec 8) (timeout : BitVec 16) (size : Nat) (f : Nat → Bool) :
    (failsafeReply id timeout size f).size.toNat ≤ (failsafeReply id timeout size f).data.length :=
  setPacketHeader_size_le _ _ (by simp)

/-- A reply is complete, and its header carries `replyCommand`. -/
theorem serves_reply (hd : d.Ready b) (h : Serves b d p d' (some q)) :
    q.size.toNat ≤ q.data.length ∧
      q.header = replyCommand p.command <<< 4 + repCodeSuccess := by
  cases h with
  | getCaps h => exact ⟨(capsReply_fits hd.wellFormed).size_le, by rw [h]; rfl⟩
  | ping h => exact ⟨show 2 ≤ 2 by decide, by rw [h]; rfl⟩
  | readPin h | readMask h | getTypePin h | getTypeMask h =>
      exact ⟨fieldsReply_size_le _ _ _ _, by rw [h]; rfl⟩
  | writePin h | writeMask h | setTypePin h | setTypeMask h | setFailsafePin h
  | setFailsafeMask h => exact ⟨(idReply_fits _ _).size_le, by rw [h]; rfl⟩
  | getFailsafePin h | getFailsafeMask h =>
      exact ⟨failsafeReply_size_le _ _ _ _, by rw [h]; rfl⟩

/-- The commands whose replies are what the driver waits for. -/
def Packet.ProperlyAnswered (p : Packet) : Prop :=
  p.command = cmdGetCaps ∨ p.command = cmdRead ∨ p.command = cmdWrite ∨ p.command = cmdSetType

theorem properlyAnswered_of_reply (hcmd : replyCommand p.command = p.command)
    (h : Serves b d p d' (some q)) : p.ProperlyAnswered := by
  cases h with
  | getCaps h => exact .inl h
  | readPin h | readMask h => exact .inr (.inl h)
  | writePin h | writeMask h => exact .inr (.inr (.inl h))
  | setTypePin h | setTypeMask h => exact .inr (.inr (.inr h))
  | ping h | getTypePin h | getTypeMask h | getFailsafePin h | getFailsafeMask h
  | setFailsafePin h | setFailsafeMask h =>
      rw [h] at hcmd
      exact absurd hcmd (by decide)

/-- Requests with these commands get a reply that the driver can take. -/
theorem reports_of_serves {r : Option Packet} (hd : d.Ready b) (hp : p.ProperlyAnswered)
    (h : Serves b d p d' r) :
    ∃ q, r = some q ∧ q.FitsBuild hostBuild ∧ (delivered q).Reports p.command d.nextId := by
  have hwidth : p.width ≤ 16 := getTypeBitsNb_le p.type
  cases h with
  | getCaps h =>
      have hfits := capsReply_fits hd.wellFormed
      rw [h]
      exact ⟨_, rfl, hfits, reports_replyPacket _ (by decide) hfits (capsReply_pos d)⟩
  | readPin h =>
      have hbits : p.width * [(d.conn.pinAt (p.pin 0)).pinsVal].length ≤ 16 * 255 := by
        rw [List.length_singleton]
        omega
      have hfits := fieldsReply_fits cmdRead d.nextId hbits
      rw [h]
      exact ⟨_, rfl, hfits,
        reports_replyPacket _ (by decide) hfits (fieldsReply_pos _ _ hbits)⟩
  | readMask h =>
      have hbits := length_maskedFields d.conn hwidth fun pin => (d.conn.pinAt pin).pinsVal
      have hfits := fieldsReply_fits cmdRead d.nextId hbits
      rw [h]
      exact ⟨_, rfl, hfits,
        reports_replyPacket _ (by decide) hfits (fieldsReply_pos _ _ hbits)⟩
  | writePin h | writeMask h =>
      rw [h]
      exact ⟨_, rfl, idReply_fits _ _,
        reports_replyPacket _ (by decide) (idReply_fits _ _) (idReply_pos _ _)⟩
  | setTypePin h | setTypeMask h =>
      rw [h]
      exact ⟨_, rfl, idReply_fits _ _,
        reports_replyPacket _ (by decide) (idReply_fits _ _) (idReply_pos _ _)⟩
  -- no reply, or a reply that carries the command of another request
  | reset h | ping h | getTypePin h | getTypeMask h | getFailsafePin h | getFailsafeMask h
  | setFailsafePin h | setFailsafeMask h =>
      rw [Packet.ProperlyAnswered, h] at hp
      exact absurd hp (by decide)
  | noFailsafe h =>
      rcases h with h | h
      · rw [Packet.ProperlyAnswered, h] at hp
        exact absurd hp (by decide)
      · rw [Packet.ProperlyAnswered, h] at hp
        exact absurd hp (by decide)
  | unknown h =>
      rcases hp with hp | hp | hp | hp
      all_goals
        rw [hp] at h
        exact absurd h (by decide)

end Replies

/-! ## The discipline -/

theorem mainloopStep_valid {b : Build} {d : Device} {chunk : Buffer} {p : Packet}
    (hread : connectionRead b chunk = some (.packet p)) (hp : p.Intact) :
    mainloopStep b d chunk = (dispatch b d p).map fun r => .served r.1 r.2 := by
  simp only [mainloopStep, hread, hp.valid, Option.bind_eq_bind, Option.bind_some, if_true]
  cases dispatch b d p <;> rfl

/-- A request is answered with exactly one proper reply if and only if the device can treat it and
its command is one of GET_CAPS, READ, WRITE and SET_TYPE. -/
theorem answered_iff {b : Build} {nbPins : BitVec 8} {d : Device} (hd : Reachable b nbPins d)
    {chunk : Buffer} {p : Packet} (hread : connectionRead b chunk = some (.packet p))
    (hp : p.Intact) : Answered b d chunk p ↔ Accepts b d p ∧ p.ProperlyAnswered := by
  have hready := hd.ready
  constructor
  · -- what came back was sent by the handler, and its header names the command it was sent under
    rintro ⟨d', frame, reply, hstep, hlen, hreply, hreports⟩
    rw [mainloopStep_valid hread hp] at hstep
    rcases Option.map_eq_some_iff.mp hstep with ⟨⟨e, rs⟩, hrun, heq⟩
    cases heq
    have hacc : Accepts b d p := (dispatch_isSome_iff hready).mp (by rw [hrun]; rfl)
    rcases dispatch_serves hready hrun with ⟨r, hserves, hframes⟩
    cases r with
    | none => cases hframes
    | some q =>
        cases hframes
        obtain ⟨hsize, hheader⟩ := serves_reply hready hserves
        rw [connectionRead_delivered hostBuild hsize] at hreply
        cases hreply
        have hcmd := hreports.command
        rw [readCmd_eq, header_delivered, hheader, (header_reply (replyCommand_lt p)).1] at hcmd
        exact ⟨hacc, properlyAnswered_of_reply (Option.some.inj hcmd) hserves⟩
  · -- an accepted request is served, and the frame of its reply fits the driver
    rintro ⟨hacc, hanswered⟩
    obtain ⟨⟨d', rs⟩, hrun⟩ := Option.isSome_iff_exists.mp ((dispatch_isSome_iff hready).mpr hacc)
    rcases dispatch_serves hready hrun with ⟨r, hserves, rfl⟩
    obtain ⟨q, rfl, hfits, hreports⟩ := reports_of_serves hready hanswered hserves
    refine ⟨d', frameOf (delivered q), delivered q, ?_, ?_,
      connectionRead_delivered hostBuild hfits.size_le, hreports⟩
    · rw [mainloopStep_valid hread hp, hrun]
      rfl
    · rw [length_frameOf_delivered hfits.size_le]
      exact hfits.frame_le

/-- A read of pin 2 of a fresh device is answered. -/
theorem answered_iff_read :
    let d := initialDevice hostBuild firmwareNbPins
    let p : Packet := ⟨0x30#8, 1#16, [2#8], 0xCC#8⟩
    Answered hostBuild d (frameOf p) p := by
  intro d p
  have hp : p.Intact := ⟨rfl, by decide +kernel⟩
  have hcommand : p.command.toNat = 3 := by decide
  have hpin : AcceptsRead d.conn p := by decide +kernel
  have hacc : Accepts hostBuild d p := by simpa only [Accepts, hcommand] using hpin
  exact (answered_iff (.init (initDeviceContent_eq _ _)) (by decide +kernel) hp).mpr
    ⟨hacc, .inr (.inl (by decide))⟩

/-- A reset gets no reply at all, and the type of pin 0 is reported as the outcome of SET_TYPE. -/
theorem not_answered_reset :
    let d := initialDevice hostBuild firmwareNbPins
    let reset : Packet := ⟨0x10#8, 0#16, [], 0xEF#8⟩
    let getType : Packet := ⟨0x50#8, 1#16, [0#8], 0xAE#8⟩
    reset.Intact ∧ mainloopStep hostBuild d (frameOf reset) = some (.served d []) ∧
      getType.Intact ∧
      mainloopStep hostBuild d (frameOf getType) =
        some (.served { d with nextId := 1 } [[0x60#8, 0#8, 2#8, 0#8, 0#8, 0x9D#8]]) := by
  intro d reset getType
  refine ⟨⟨rfl, by decide +kernel⟩, by decide +kernel, ⟨rfl, by decide +kernel⟩, ?_⟩
  decide +kernel

end PinProtocol
