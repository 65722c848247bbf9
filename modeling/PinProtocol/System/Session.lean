import PinProtocol.Common.Framing
import PinProtocol.Common.Sending
import PinProtocol.Firmware.Corruption
import PinProtocol.System.Client
import PinProtocol.System.Discipline
import PinProtocol.System.FailsafeOperations

/-!
# Session — driver and device as two processes

The driver and `mainloop` run at the same time, joined by two pipes.  Each of them reads, computes
and writes at its own pace: the device may still be on its way back to `read` when the driver has
got its reply and sends the next request.  `Session.Step` is one step of either of them, and a run
is any interleaving of such steps.

`session_inevitable` says that the interleaving does not matter: all runs of a program come to the
same end, and it is the one of the program over `deviceLink`, exchange after exchange.
`session_lockstep` says why: in no state is there more than one frame on the line.
-/

namespace PinProtocol

open Bits Control Relation

variable {α : Type}

/-! ## Two processes -/

/-- What a `read` takes out of a pipe, and what it leaves: all that is there, up to `BUFF_SIZE`
bytes.  It waits as long as there is nothing, and the firmware's own `read` until it is full. -/
def pipeRead (b : Build) (pending : Buffer) : Option (Buffer × Buffer) :=
  if (if b.embedded then b.buffSize else 1) ≤ pending.length then
    some (pending.take b.buffSize, pending.drop b.buffSize)
  else none

/-- Where the driver is: in the program that calls it, in `connection_read`, or no longer there
(`exit( 1 )`, or killed because it wrote to a pipe that nobody reads). -/
inductive DriverPhase (α : Type)
  | ready (client : Client α)
  | waiting (resume : Packet → Client α)
  | gone

/-- Where the device is: at the `connection_read` of its loop, in a handler that has still to send
these frames, behind its loop, or outside of its arrays. -/
inductive DevicePhase
  | reading (d : Device)
  | sending (d : Device) (frames : List Buffer)
  | ended
  | faulted

structure Session (α : Type) where
  driver : DriverPhase α
  device : DevicePhase
  toDevice : Buffer
  toDriver : Buffer

namespace Session

/-- The program is about to run, and the device waits for its first packet. -/
def start (client : Client α) (d : Device) : Session α :=
  { driver := .ready client, device := .reading d, toDevice := [], toDriver := [] }

/-- The other end of a pipe has been closed; a serial line has no such end. -/
def deviceClosed (b : Build) (s : Session α) : Bool :=
  match s.device with
  | .ended => !b.embedded
  | _ => false

def driverClosed (b : Build) (s : Session α) : Bool :=
  match s.driver with
  | .gone => !b.embedded
  | _ => false

/-- The driver's next step: `send_packet`, or `read_reply` as soon as its `read` returns. -/
def driverStep (b : Build) (s : Session α) : Option (Session α) :=
  match s.driver with
  | .ready (.ask p resume) =>
      if s.deviceClosed b then some { s with driver := .gone }
      else
        match sendPacket p with
        | none => some { s with driver := .ready .fault }
        | some frame =>
            some { s with driver := .waiting resume, toDevice := s.toDevice ++ frame }
  | .waiting resume =>
      match pipeRead hostBuild s.toDriver with
      | none =>
          -- `read` returns 0 at the end of a pipe, and read_reply exits
          if s.deviceClosed b then some { s with driver := .gone } else none
      | some (chunk, rest) =>
          match connectionRead hostBuild chunk with
          | none => some { s with driver := .ready .fault, toDriver := rest }
          | some .error => some { s with driver := .gone, toDriver := rest }
          | some (.packet reply) =>
              match readReply reply with
              | none => some { s with driver := .ready .fault, toDriver := rest }
              | some () => some { s with driver := .ready (resume reply), toDriver := rest }
  | _ => none

/-- The device's next step: the turn of `mainloop` that its `read` has been waiting for, the
`write` of a reply, or the way back to `read`. -/
def deviceStep (b : Build) (s : Session α) : Option (Session α) :=
  match s.device with
  | .reading d =>
      match pipeRead b s.toDevice with
      | none => if s.driverClosed b then some { s with device := .ended } else none
      | some (chunk, rest) =>
          match mainloopStep b d chunk with
          | none => some { s with device := .faulted, toDevice := rest }
          | some .stopped => some { s with device := .ended, toDevice := rest }
          | some (.served d' frames) =>
              some { s with device := .sending d' frames, toDevice := rest }
  | .sending d [] => some { s with device := .reading d }
  | .sending d (frame :: frames) =>
      if s.driverClosed b then some { s with device := .ended }
      else some { s with device := .sending d frames, toDriver := s.toDriver ++ frame }
  | _ => none

/-- One step of either process. -/
def Step (b : Build) (s t : Session α) : Prop :=
  s.driverStep b = some t ∨ s.deviceStep b = some t

/-- The next step of the driver is to send a request. -/
def Sends (s : Session α) : Prop :=
  ∃ p resume, s.driver = .ready (.ask p resume)

/-- Runs in which something may happen to a request that is sent, and nothing else. -/
def Quiet (b : Build) (R : Session α → Session α → Prop) : Prop :=
  ∀ s, ¬ s.Sends → ∀ t, R s t ↔ Step b s t

end Session

/-! ## How a run of a program ends -/

/-- The end that the exchanges of a program with the device lead to. -/
inductive Ended (b : Build) (client : Client α) (d : Device) : Session α → Prop where
  | completed {a : α} {d' : Device} :
      client.run (deviceLink b) d = some (a, d') → Ended b client d (.start (.done a) d')
  /-- The program has left its arrays. -/
  | driverFault {d' : Device} :
      Client.Advances (deviceLink b) (client, d) (.fault, d') →
        Ended b client d (.start .fault d')
  /-- The device does not answer: both of them wait for ever. -/
  | blocked {p : Packet} {resume : Packet → Client α} {d' : Device} :
      Client.Advances (deviceLink b) (client, d) (.ask p resume, d') → Silent b (delivered p) →
        Ended b client d
          { driver := .waiting resume, device := .reading d', toDevice := [], toDriver := [] }
  /-- The handler has left the arrays of the device. -/
  | deviceFault {p : Packet} {resume : Packet → Client α} {d' : Device} :
      Client.Advances (deviceLink b) (client, d) (.ask p resume, d') →
        ¬ Accepts b d' (delivered p) →
          Ended b client d
            { driver := .waiting resume, device := .faulted, toDevice := [], toDriver := [] }

/-! ## The steps of an exchange -/

/-- Whatever the device answers, one `read` of the driver takes the reply. -/
theorem serves_fits {b : Build} {d d' : Device} {p q : Packet} (hd : d.Ready b)
    (h : Serves b d p d' (some q)) : q.FitsBuild hostBuild ∧ 0 < q.size.toNat := by
  have hwidth : p.width ≤ 16 := getTypeBitsNb_le p.type
  have hpins := length_maskedPins_le d.conn p 0
  have hbound := d.conn.nbPins_lt
  -- At most 255 pins of at most 16 bits each: below 512 bytes of data, and the frame has 612.
  cases h with
  | getCaps => exact ⟨capsReply_fits hd.wellFormed, capsReply_pos d⟩
  | ping => exact ⟨⟨show 2 ≤ 2 by decide, show 2 + 4 ≤ 612 by decide⟩, show 0 < 2 by decide⟩
  | readPin =>
      have hbits : p.width * [(d.conn.pinAt (p.pin 0)).pinsVal].length ≤ 16 * 255 := by
        rw [List.length_singleton]
        omega
      exact ⟨fieldsReply_fits _ _ hbits, fieldsReply_pos _ _ hbits⟩
  | readMask =>
      have hbits := length_maskedFields d.conn hwidth fun pin => (d.conn.pinAt pin).pinsVal
      exact ⟨fieldsReply_fits _ _ hbits, fieldsReply_pos _ _ hbits⟩
  | getTypePin =>
      have hbits : 3 * [(d.conn.pinAt (p.pin 0)).pinsType.setWidth 16].length ≤ 16 * 255 := by
        rw [List.length_singleton]
        omega
      exact ⟨fieldsReply_fits _ _ hbits, fieldsReply_pos _ _ hbits⟩
  | getTypeMask =>
      have hbits : 3 * ((maskedPins d.conn p 0).map fun pin =>
          (d.conn.pinAt pin).pinsType.setWidth 16).length ≤ 16 * 255 := by
        rw [List.length_map]
        omega
      exact ⟨fieldsReply_fits _ _ hbits, fieldsReply_pos _ _ hbits⟩
  | writePin | writeMask | setTypePin | setTypeMask | setFailsafePin | setFailsafeMask =>
      exact ⟨idReply_fits _ _, idReply_pos _ _⟩
  | getFailsafePin h hb hkind hf =>
      rename_i f hacc
      have hle := getTypeBitsNb_le (f.entryAt (p.pin 0)).pinState
      have hsize : 3 + bits2bytes (3 + getTypeBitsNb (f.entryAt (p.pin 0)).pinState) < 2 ^ 8 := by
        rw [bits2bytes_eq]
        omega
      refine ⟨failsafeReply_fits _ _ _ hsize, ?_⟩
      rw [toNat_size_failsafeReply _ _ _ hsize]
      omega
  | getFailsafeMask h hb hkind hf hes hacc =>
      rename_i f es
      -- The acceptance of a failsafe request is that the size of its reply does not wrap.
      have hsize : 3 + bits2bytes (16 + es.length + entriesLength es) < 2 ^ 8 := by
        rw [bits2bytes_eq]
        omega
      refine ⟨failsafeReply_fits _ _ _ hsize, ?_⟩
      rw [toNat_size_failsafeReply _ _ _ hsize]
      omega

/-- What the device does with a request that one `read` takes: it faults, drops the request, or
sends one frame that the driver can take. -/
theorem dispatch_outcome {b : Build} {nbPins : BitVec 8} {d : Device} (hd : Reachable b nbPins d)
    (p : Packet) :
    (dispatch b d p = none ∧ ¬ Accepts b d p) ∨ (dispatch b d p = some (d, []) ∧ Silent b p) ∨
      ∃ d' q, dispatch b d p = some (d', [frameOf (delivered q)]) ∧ q.FitsBuild hostBuild ∧
        0 < q.size.toNat := by
  cases hrun : dispatch b d p with
  | none =>
      refine .inl ⟨rfl, fun hacc => ?_⟩
      have hsome := (dispatch_isSome_iff hd.ready).mpr hacc
      rw [hrun] at hsome
      cases hsome
  | some r =>
      obtain ⟨d', rs⟩ := r
      obtain ⟨q, hserves, rfl⟩ := dispatch_serves hd.ready hrun
      cases q with
      | none =>
          obtain ⟨hsilent, rfl⟩ := silent_of_serves_none hserves
          exact .inr (.inl ⟨rfl, hsilent⟩)
      | some q =>
          obtain ⟨hfits, hpos⟩ := serves_fits hd.ready hserves
          exact .inr (.inr ⟨d', q, rfl, hfits, hpos⟩)


theorem reachable_delivered {b : Build} {nbPins : BitVec 8} {d d' : Device} {p : Packet}
    {rs : List Buffer} (hd : Reachable b nbPins d) (hp : p.FitsBuild b)
    (hrun : dispatch b d (delivered p) = some (d', rs)) : Reachable b nbPins d' := by
  refine hd.serve ⟨?_, packetValid_delivered hp.size_le⟩ hrun
  rw [data_delivered, size_delivered, List.length_take, Nat.min_eq_left hp.size_le]

theorem pipeRead_nil (b : Build) : pipeRead b [] = none := by
  have hbuff := le_buffSize b
  rw [pipeRead, List.length_nil]
  refine if_neg ?_
  split <;> omega

/-- On the host, one `read` takes a frame that fits and leaves nothing. -/
theorem pipeRead_frame {b : Build} (hb : b.embedded = false) {p : Packet} (hp : p.FitsBuild b) :
    pipeRead b (frameOf (delivered p)) = some (frameOf (delivered p), []) := by
  have hlen := length_frameOf_delivered hp.size_le
  have hle : (frameOf (delivered p)).length ≤ b.buffSize := by
    rw [hlen]
    exact hp.frame_le
  rw [pipeRead, hb, if_neg Bool.false_ne_true, if_pos (by omega), List.take_of_length_le hle,
    List.drop_of_length_le hle]

namespace Session

section Steps

variable {b : Build} {d d' : Device} {p q : Packet} {resume : Packet → Client α}
  {driver : DriverPhase α} {device : DevicePhase} {toDevice toDriver : Buffer}

/-- The device has come back to `read` after it last sent something, or is on its way. -/
def Awaits (device : DevicePhase) (d : Device) : Prop :=
  device = .reading d ∨ device = .sending d []

theorem driverStep_ask (hp : p.FitsBuild b) (hdevice : Awaits device d) :
    driverStep b ⟨.ready (.ask p resume), device, toDevice, toDriver⟩ =
      some ⟨.waiting resume, device, toDevice ++ frameOf (delivered p), toDriver⟩ := by
  rcases hdevice with rfl | rfl <;> simp [driverStep, deviceClosed, hp.send]

theorem driverStep_done (a : α) :
    driverStep b ⟨.ready (.done a), device, toDevice, toDriver⟩ = none :=
  rfl

theorem driverStep_fault :
    driverStep b (α := α) ⟨.ready .fault, device, toDevice, toDriver⟩ = none :=
  rfl

/-- The driver waits for its reply. -/
theorem driverStep_empty (hdevice : device ≠ .ended) :
    driverStep b ⟨.waiting resume, device, toDevice, []⟩ = none := by
  cases device with
  | ended => exact absurd rfl hdevice
  | _ => simp [driverStep, pipeRead_nil, deviceClosed]

theorem driverStep_reply (hq : q.FitsBuild hostBuild) (hpos : 0 < q.size.toNat) :
    driverStep b ⟨.waiting resume, device, toDevice, frameOf (delivered q)⟩ =
      some ⟨.ready (resume (delivered q)), device, toDevice, []⟩ := by
  have hdata : (delivered q).data.length = q.size.toNat := by simp [hq.size_le]
  have hreply : readReply (delivered q) = some () :=
    readReply_eq (by omega) (by rw [size_delivered, hdata])
  simp [driverStep, pipeRead_frame rfl hq, connectionRead_delivered hostBuild hq.size_le, hreply]

/-- The device waits for a packet. -/
theorem deviceStep_empty (hdriver : driver ≠ .gone) :
    deviceStep b ⟨driver, .reading d, [], toDriver⟩ = none := by
  cases driver with
  | gone => exact absurd rfl hdriver
  | _ => simp [deviceStep, pipeRead_nil, driverClosed]

theorem deviceStep_turn (hb : b.embedded = false) (hp : p.FitsBuild b) :
    deviceStep b ⟨driver, .reading d, frameOf (delivered p), toDriver⟩ =
      match dispatch b d (delivered p) with
      | none => some ⟨driver, .faulted, [], toDriver⟩
      | some (d', frames) => some ⟨driver, .sending d' frames, [], toDriver⟩ := by
  simp only [deviceStep, pipeRead_frame hb hp, mainloopStep_delivered hp]
  cases dispatch b d (delivered p) <;> rfl

theorem deviceStep_back :
    deviceStep b ⟨driver, .sending d [], toDevice, toDriver⟩ =
      some ⟨driver, .reading d, toDevice, toDriver⟩ :=
  rfl

theorem deviceStep_write (frame : Buffer) (frames : List Buffer) :
    deviceStep b ⟨.waiting resume, .sending d (frame :: frames), toDevice, toDriver⟩ =
      some ⟨.waiting resume, .sending d frames, toDevice, toDriver ++ frame⟩ :=
  rfl

section Moves

-- in the state `s`, the runs `R` go on with a step of one of the two
variable {R : Session α → Session α → Prop} {P : Session α → Prop} {s t u : Session α}
  (hR : ∀ v, R s v ↔ Step b s v)
include hR

/-- Only the driver can move. -/
theorem inevitable_of_driver (hdriver : s.driverStep b = some t) (hdevice : s.deviceStep b = none)
    (h : Inevitable R P t) : Inevitable R P s := by
  refine .of_step ((hR t).mpr (.inl hdriver)) (fun v hv => ?_) h
  rcases (hR v).mp hv with hv | hv
  · exact Option.some.inj (hv.symm.trans hdriver)
  · rw [hdevice] at hv
    cases hv

/-- Only the device can move. -/
theorem inevitable_of_device (hdriver : s.driverStep b = none) (hdevice : s.deviceStep b = some t)
    (h : Inevitable R P t) : Inevitable R P s := by
  refine .of_step ((hR t).mpr (.inr hdevice)) (fun v hv => ?_) h
  rcases (hR v).mp hv with hv | hv
  · rw [hdriver] at hv
    cases hv
  · exact Option.some.inj (hv.symm.trans hdevice)

/-- Either of them can move first. -/
theorem inevitable_of_both (hdriver : s.driverStep b = some t) (hdevice : s.deviceStep b = some u)
    (ht : Inevitable R P t) (hu : Inevitable R P u) : Inevitable R P s := by
  refine .later ⟨t, (hR t).mpr (.inl hdriver)⟩ fun v hv => ?_
  rcases (hR v).mp hv with hv | hv
  · rw [hdriver] at hv
    cases hv
    exact ht
  · rw [hdevice] at hv
    cases hv
    exact hu

end Moves

theorem stuck_of_none {s : Session α} (hdriver : s.driverStep b = none)
    (hdevice : s.deviceStep b = none) : Stuck (Step b) s := by
  rintro t (ht | ht)
  · rw [hdriver] at ht
    cases ht
  · rw [hdevice] at ht
    cases ht

end Steps

end Session

/-! ## All interleavings come to the same end -/

section Outcome

variable {b : Build} {nbPins : BitVec 8} {client : Client α} {d : Device} {t : Session α}

theorem not_sends_waiting {resume : Packet → Client α} {device : DevicePhase}
    {toDevice toDriver : Buffer} :
    ¬ Session.Sends ⟨.waiting resume, device, toDevice, toDriver⟩ := by
  rintro ⟨_, _, h⟩
  cases h

/-- The ends are ends: neither process can move. -/
theorem Ended.stuck (h : Ended b client d t) : Stuck (Session.Step b) t := by
  cases h with
  | completed =>
      exact Session.stuck_of_none (Session.driverStep_done _)
        (Session.deviceStep_empty (fun h => nomatch h))
  | driverFault =>
      exact Session.stuck_of_none Session.driverStep_fault
        (Session.deviceStep_empty (fun h => nomatch h))
  | blocked =>
      exact Session.stuck_of_none (Session.driverStep_empty (fun h => nomatch h))
        (Session.deviceStep_empty (fun h => nomatch h))
  | deviceFault =>
      exact Session.stuck_of_none (Session.driverStep_empty (fun h => nomatch h)) rfl

/-- An end of the rest of a program is an end of the program. -/
theorem Ended.of_exchange {p : Packet} {resume : Packet → Client α} {d' : Device} {reply : Packet}
    (hexchange : exchange (deviceLink b) p d = some (reply, d'))
    (h : Ended b (resume reply) d' t) : Ended b (.ask p resume) d t := by
  have hfirst : Client.Exchanges (deviceLink b) (.ask p resume, d) (resume reply, d') :=
    .ask hexchange
  cases h with
  | completed hrun =>
      refine .completed ?_
      rw [Client.run, hexchange, Option.bind_some]
      exact hrun
  | driverFault hadv => exact .driverFault (.head hfirst hadv)
  | blocked hadv hsilent => exact .blocked (.head hfirst hadv) hsilent
  | deviceFault hadv hacc => exact .deviceFault (.head hfirst hadv) hacc

/-- A device on its way back to `read` does not change how a run ends. -/
theorem inevitable_of_reading {R : Session α → Session α → Prop} (hR : Session.Quiet b R)
    {P : Session α → Prop} {device : DevicePhase} (hdevice : Session.Awaits device d)
    (hdone : ∀ p resume, client ≠ .ask p resume) (h : P (.start client d)) :
    Inevitable R P ⟨.ready client, device, [], []⟩ := by
  have hdriver : ∀ dev, Session.driverStep b ⟨.ready client, dev, [], []⟩ = none := by
    intro dev
    cases client with
    | done a => rfl
    | fault => rfl
    | ask p resume => exact absurd rfl (hdone p resume)
  rcases hdevice with rfl | rfl
  · exact .now h
  · refine Session.inevitable_of_device (hR _ ?_) (hdriver _) Session.deviceStep_back (.now h)
    rintro ⟨p, resume, hask⟩
    cases hask
    exact hdone p resume rfl

/-- Nothing but the device's way back to `read` comes before what is on the line is read. -/
theorem inevitable_of_back {R : Session α → Session α → Prop} (hR : Session.Quiet b R)
    {P : Session α → Prop} {resume : Packet → Client α} {chunk : Buffer} {device : DevicePhase}
    (hdevice : Session.Awaits device d)
    (h : Inevitable R P ⟨.waiting resume, .reading d, chunk, []⟩) :
    Inevitable R P ⟨.waiting resume, device, chunk, []⟩ := by
  rcases hdevice with rfl | rfl
  · exact h
  · exact Session.inevitable_of_device (hR _ not_sends_waiting)
      (Session.driverStep_empty (fun h => nomatch h)) Session.deviceStep_back h

/-- The request is written, and is read when the device is back at `read`. -/
theorem inevitable_of_request {P : Session α → Prop} {p : Packet} {resume : Packet → Client α}
    (hp : p.FitsBuild b)
    (h : Inevitable (Session.Step b) P
      ⟨.waiting resume, .reading d, frameOf (delivered p), []⟩)
    {device : DevicePhase} (hdevice : Session.Awaits device d) :
    Inevitable (Session.Step b) P ⟨.ready (.ask p resume), device, [], []⟩ := by
  have hread : Inevitable (Session.Step b) P ⟨.ready (.ask p resume), .reading d, [], []⟩ :=
    Session.inevitable_of_driver (fun _ => Iff.rfl) (Session.driverStep_ask hp (.inl rfl))
      (Session.deviceStep_empty (fun h => nomatch h)) h
  rcases hdevice with rfl | rfl
  · exact hread
  · -- the driver may write before the device is back
    exact Session.inevitable_of_both (fun _ => Iff.rfl) (Session.driverStep_ask hp (.inr rfl))
      Session.deviceStep_back (inevitable_of_back (fun _ _ _ => Iff.rfl) (.inr rfl) h) hread

/-- The reply is written and read, and the device goes back to `read` before or after that. -/
theorem inevitable_of_reply {R : Session α → Session α → Prop} (hR : Session.Quiet b R)
    {P : Session α → Prop} {q : Packet} {resume : Packet → Client α}
    (hq : q.FitsBuild hostBuild) (hpos : 0 < q.size.toNat)
    (h : ∀ device, Session.Awaits device d →
      Inevitable R P ⟨.ready (resume (delivered q)), device, [], []⟩) :
    Inevitable R P ⟨.waiting resume, .sending d [frameOf (delivered q)], [], []⟩ := by
  refine Session.inevitable_of_device (hR _ not_sends_waiting)
    (Session.driverStep_empty (fun h => nomatch h)) (Session.deviceStep_write _ _) ?_
  refine Session.inevitable_of_both (hR _ not_sends_waiting) (Session.driverStep_reply hq hpos)
    Session.deviceStep_back (h _ (.inr rfl)) ?_
  exact Session.inevitable_of_driver (hR _ not_sends_waiting) (Session.driverStep_reply hq hpos)
    (Session.deviceStep_empty (fun h => nomatch h)) (h _ (.inl rfl))

/-- A request that gets no reply is read, and both of them wait. -/
theorem inevitable_of_silent {R : Session α → Session α → Prop} (hR : Session.Quiet b R)
    (hb : b.embedded = false) {p : Packet} (hp : p.FitsBuild b) (hsilent : Silent b (delivered p))
    (resume : Packet → Client α) :
    Inevitable R (· = ⟨.waiting resume, .reading d, [], []⟩)
      ⟨.waiting resume, .reading d, frameOf (delivered p), []⟩ := by
  have hturn : Session.deviceStep b ⟨.waiting resume, .reading d, frameOf (delivered p), []⟩ =
      some ⟨.waiting resume, .sending d [], [], []⟩ := by
    rw [Session.deviceStep_turn hb hp, dispatch_silent hsilent]
  refine Session.inevitable_of_device (hR _ not_sends_waiting)
    (Session.driverStep_empty (by simp)) hturn ?_
  exact Session.inevitable_of_device (hR _ not_sends_waiting)
    (Session.driverStep_empty (by simp)) Session.deviceStep_back (.now rfl)

/-- What becomes of a request that has arrived, up to the state in which its reply has been
read. -/
theorem inevitable_of_arrival {R : Session α → Session α → Prop} (hR : Session.Quiet b R)
    (hb : b.embedded = false) (hd : Reachable b nbPins d) {p : Packet} (hp : p.FitsBuild b)
    (resume : Packet → Client α) :
    (∃ t, Ended b (.ask p resume) d t ∧
      Inevitable R (· = t) ⟨.waiting resume, .reading d, frameOf (delivered p), []⟩) ∨
    ∃ d' q, dispatch b d (delivered p) = some (d', [frameOf (delivered q)]) ∧
      q.FitsBuild hostBuild ∧ 0 < q.size.toNat ∧
      ∀ P : Session α → Prop, (∀ device, Session.Awaits device d' →
          Inevitable R P ⟨.ready (resume (delivered q)), device, [], []⟩) →
        Inevitable R P ⟨.waiting resume, .reading d, frameOf (delivered p), []⟩ := by
  -- The driver waits for its reply, so the next step can only be the turn of the firmware.
  have hturn : ∀ {P : Session α → Prop} {t : Session α},
      Session.deviceStep b ⟨.waiting resume, .reading d, frameOf (delivered p), []⟩ = some t →
        Inevitable R P t →
          Inevitable R P ⟨.waiting resume, .reading d, frameOf (delivered p), []⟩ :=
    fun hstep h => Session.inevitable_of_device (hR _ not_sends_waiting)
      (Session.driverStep_empty (fun h => nomatch h)) hstep h
  rcases dispatch_outcome hd (delivered p) with ⟨hrun, hacc⟩ | ⟨-, hsilent⟩ |
    ⟨d', q, hrun, hq, hpos⟩
  · refine .inl ⟨_, .deviceFault .refl hacc, hturn ?_ (.now rfl)⟩
    rw [Session.deviceStep_turn hb hp, hrun]
  · exact .inl ⟨_, .blocked .refl hsilent, inevitable_of_silent hR hb hp hsilent resume⟩
  · refine .inr ⟨d', q, hrun, hq, hpos, fun P h => hturn ?_ (inevitable_of_reply hR hq hpos h)⟩
    rw [Session.deviceStep_turn hb hp, hrun]

/-- The induction is over the program; at its start the device may still be on its way back to
`read` from the exchange before. -/
theorem session_inevitable_from (hb : b.embedded = false) (client : Client α) :
    ∀ {d : Device}, Reachable b nbPins d → client.FitsBuild b →
      ∃ t, Ended b client d t ∧ ∀ device, Session.Awaits device d →
        Inevitable (Session.Step b) (· = t) ⟨.ready client, device, [], []⟩ := by
  have hstep : Session.Quiet (α := α) b (Session.Step b) := fun _ _ _ => Iff.rfl
  -- By induction on the rest of the program: a device that served a request is reachable again.
  induction client with
  | done a =>
      intro d _ _
      refine ⟨_, .completed rfl, fun device hdevice => ?_⟩
      exact inevitable_of_reading hstep hdevice (fun _ _ h => nomatch h) rfl
  | fault =>
      intro d _ _
      refine ⟨_, .driverFault .refl, fun device hdevice => ?_⟩
      exact inevitable_of_reading hstep hdevice (fun _ _ h => nomatch h) rfl
  | ask p resume ih =>
      intro d hd hfits
      obtain ⟨hp, hrest⟩ := hfits
      rcases inevitable_of_arrival hstep hb hd hp resume with ⟨t, hend, harrived⟩ |
        ⟨d', q, hrun, hq, hpos, harrived⟩
      · exact ⟨t, hend, fun device hdevice => inevitable_of_request hp harrived hdevice⟩
      · have hd' := reachable_delivered hd hp hrun
        obtain ⟨t, hend, hall⟩ := ih (delivered q) hd' (hrest (delivered q))
        refine ⟨t, hend.of_exchange (exchange_device hp hrun hq hpos), fun device hdevice => ?_⟩
        exact inevitable_of_request hp (harrived _ hall) hdevice

/-- Whatever the interleaving, a program that runs against a device comes to one end, the end of
its exchanges over `deviceLink`; there neither process can move. -/
theorem session_inevitable (hb : b.embedded = false) (hd : Reachable b nbPins d)
    (hfits : client.FitsBuild b) :
    ∃ t, Ended b client d t ∧ Stuck (Session.Step b) t ∧
      Inevitable (Session.Step b) (· = t) (.start client d) := by
  obtain ⟨t, hend, hall⟩ := session_inevitable_from hb client hd hfits
  exact ⟨t, hend, hend.stuck, hall _ (.inl rfl)⟩

/-- A ping with protocol version 0. -/
def pingPacket : Packet :=
  setPacketHeader cmdPing 0 1 [0#8]

theorem pingPacket_fits (b : Build) : pingPacket.FitsBuild b :=
  FitsBuild_of_le_three b _ _ (by decide) rfl

/-- A ping, and then a write of 200 to pin 3. -/
def pingThenWrite : Client Packet :=
  .ask pingPacket fun reply =>
    .ask (setPacketHeader cmdWrite (typeParam pinTypePwm8 usePinId) 2 [3#8, 200#8]) fun _ =>
      .done reply

theorem pingThenWrite_fits (b : Build) : pingThenWrite.FitsBuild b :=
  ⟨pingPacket_fits b, fun _ => ⟨FitsBuild_of_le_three b _ _ (by decide) rfl, fun _ => trivial⟩⟩

/-- A ping and then a reset, which is not answered. -/
theorem session_inevitable_reset :
    ∃ t, Ended hostBuild (.ask pingPacket fun reply => .ask resetRequest fun _ => .done reply)
        (initialDevice hostBuild firmwareNbPins) t ∧
      Stuck (Session.Step hostBuild) t ∧
      Inevitable (Session.Step hostBuild) (· = t)
        (.start (.ask pingPacket fun reply => .ask resetRequest fun _ => .done reply)
          (initialDevice hostBuild firmwareNbPins)) := by
  have hd : Reachable hostBuild firmwareNbPins (initialDevice hostBuild firmwareNbPins) :=
    .init (initDeviceContent_eq _ _)
  have hreset : resetRequest.FitsBuild hostBuild := FitsBuild_of_le_three _ _ _ (by decide) rfl
  exact session_inevitable rfl hd ⟨pingPacket_fits _, fun _ => ⟨hreset, fun _ => trivial⟩⟩

/-! ## Programs that get all their replies -/

/-- An exchange that comes off: one `read` of the device has taken the request, and one `read` of
the driver the reply. -/
theorem exchange_inv {p reply : Packet} {d' : Device} (hd : Reachable b nbPins d)
    (h : exchange (deviceLink b) p d = some (reply, d')) :
    p.FitsBuild b ∧ ∃ q : Packet, dispatch b d (delivered p) = some (d', [frameOf (delivered q)]) ∧
      q.FitsBuild hostBuild ∧ 0 < q.size.toNat ∧ reply = delivered q := by
  have h' := h
  simp only [exchange, Option.bind_eq_bind] at h'
  obtain ⟨frame, hsend, hrest⟩ := Option.bind_eq_some_iff.mp h'
  obtain ⟨⟨r, w⟩, hlink, -⟩ := Option.bind_eq_some_iff.mp hrest
  obtain ⟨hdata, hword⟩ := (sendPacket_isSome_iff p).mp (by rw [hsend]; rfl)
  rw [sendPacket_eq hdata hword] at hsend
  cases hsend
  -- A frame that is longer than the buffer of the firmware has no answer in the link.
  have hp : p.FitsBuild b := by
    refine ⟨hdata, ?_⟩
    have hlen := length_frameOf_delivered hdata
    by_contra hlong
    rw [deviceLink, if_pos (by omega)] at hlink
    cases hlink
  refine ⟨hp, ?_⟩
  -- Of the three outcomes only the one with a reply is left: a fault and silence give no packet.
  rcases dispatch_outcome hd (delivered p) with ⟨hrun, -⟩ | ⟨hrun, -⟩ | ⟨d₁, q, hrun, hq, hpos⟩
  · rw [deviceLink_fault hp hrun] at hlink
    cases hlink
  · have hsilent : deviceLink b (frameOf (delivered p)) d = none := by
      simp only [deviceLink, mainloopStep_delivered hp, hrun, Option.map_some, ite_self]
    rw [hsilent] at hlink
    cases hlink
  · rw [exchange_device hp hrun hq hpos] at h
    cases h
    exact ⟨q, hrun, hq, hpos, rfl⟩

theorem reachable_of_advances {x y : Client α × Device}
    (hadv : Client.Advances (deviceLink b) x y) (hd : Reachable b nbPins x.2) :
    Reachable b nbPins y.2 := by
  induction hadv with
  | refl => exact hd
  | tail _ hlast ih =>
      cases hlast with
      | ask hexchange =>
          obtain ⟨hp, q, hserve, -⟩ := exchange_inv ih hexchange
          exact reachable_delivered ih hp hserve

/-- A session gets as far as the exchanges of its program do. -/
theorem session_advances (hb : b.embedded = false) {x y : Client α × Device}
    (hadv : Client.Advances (deviceLink b) x y) {P : Session α → Prop}
    (h : ∀ device, Session.Awaits device y.2 →
      Inevitable (Session.Step b) P ⟨.ready y.1, device, [], []⟩) :
    Reachable b nbPins x.2 → ∀ device, Session.Awaits device x.2 →
      Inevitable (Session.Step b) P ⟨.ready x.1, device, [], []⟩ := by
  induction hadv using ReflTransGen.head_induction_on with
  | refl => exact fun _ => h
  | head hfirst _ ih =>
      intro hd device hdevice
      cases hfirst with
      | ask hexchange =>
          obtain ⟨hp, q, hserve, hq, hpos, rfl⟩ := exchange_inv hd hexchange
          refine inevitable_of_request hp ?_ hdevice
          exact Session.inevitable_of_device (fun _ => Iff.rfl)
            (Session.driverStep_empty (by simp))
            (by rw [Session.deviceStep_turn hb hp, hserve])
            (inevitable_of_reply (fun _ _ _ => Iff.rfl) hq hpos
              (ih (reachable_delivered hd hp hserve)))

theorem session_completes_from (hb : b.embedded = false) {a : α} {d' : Device}
    (hd : Reachable b nbPins d) (hrun : client.run (deviceLink b) d = some (a, d')) :
    ∀ device, Session.Awaits device d →
      Inevitable (Session.Step b) (· = .start (.done a) d') ⟨.ready client, device, [], []⟩ :=
  session_advances hb (Client.advances_of_run hrun)
    (fun _ hdevice => inevitable_of_reading (fun _ _ _ => Iff.rfl) hdevice (by simp) rfl) hd

end Outcome

/-! ## What can be on the line -/

/-- The states that a session can be in; a frame on its way is the only one. -/
inductive Session.Lockstep (b : Build) (nbPins : BitVec 8) : Session α → Prop where
  | idle {client : Client α} {d : Device} {device : DevicePhase} (hfits : client.FitsBuild b)
      (hd : Reachable b nbPins d) (hdevice : Awaits device d) :
      Lockstep b nbPins ⟨.ready client, device, [], []⟩
  | requested {p : Packet} {resume : Packet → Client α} {d : Device} {device : DevicePhase}
      (hp : p.FitsBuild b) (hrest : ∀ reply, (resume reply).FitsBuild b)
      (hd : Reachable b nbPins d) (hdevice : Awaits device d) :
      Lockstep b nbPins ⟨.waiting resume, device, frameOf (delivered p), []⟩
  | answered {q : Packet} {resume : Packet → Client α} {d : Device} (hq : q.FitsBuild hostBuild)
      (hpos : 0 < q.size.toNat) (hrest : ∀ reply, (resume reply).FitsBuild b)
      (hd : Reachable b nbPins d) :
      Lockstep b nbPins ⟨.waiting resume, .sending d [frameOf (delivered q)], [], []⟩
  | replied {q : Packet} {resume : Packet → Client α} {d : Device} {device : DevicePhase}
      (hq : q.FitsBuild hostBuild) (hpos : 0 < q.size.toNat)
      (hrest : ∀ reply, (resume reply).FitsBuild b) (hd : Reachable b nbPins d)
      (hdevice : Awaits device d) :
      Lockstep b nbPins ⟨.waiting resume, device, [], frameOf (delivered q)⟩
  | dropped {resume : Packet → Client α} {d : Device} {device : DevicePhase}
      (hd : Reachable b nbPins d) (hdevice : Awaits device d) :
      Lockstep b nbPins ⟨.waiting resume, device, [], []⟩
  | crashed {resume : Packet → Client α} : Lockstep b nbPins ⟨.waiting resume, .faulted, [], []⟩

/-- What every such state has in common. -/
structure Session.OneFrame (s : Session α) : Prop where
  frame : (s.toDevice = [] ∧ s.toDriver = []) ∨
    ∃ p : Packet, p.FitsBuild hostBuild ∧ s.toDevice ++ s.toDriver = frameOf (delivered p)
  /-- A program that is not in `read_reply` has nothing on the line. -/
  ready : ∀ client, s.driver = .ready client → s.toDevice = [] ∧ s.toDriver = []
  /-- Nothing arrives while the device has still to write. -/
  sending : ∀ d frame frames, s.device = .sending d (frame :: frames) →
    s.toDevice = [] ∧ s.toDriver = [] ∧ frames = []
  alive : s.device ≠ .ended
  driverAlive : s.driver ≠ .gone

section Lockstep

variable {b : Build} {nbPins : BitVec 8} {s t : Session α} {d : Device}

theorem Session.Lockstep.driver (h : s.Lockstep b nbPins) (hstep : s.driverStep b = some t) :
    t.Lockstep b nbPins := by
  cases h with
  | @idle client d device hfits hd hdevice =>
      cases client with
      | done a => cases hstep
      | fault => cases hstep
      | ask p resume =>
          rw [driverStep_ask hfits.1 hdevice, List.nil_append] at hstep
          cases hstep
          exact .requested hfits.1 hfits.2 hd hdevice
  | requested _ _ _ hdevice | dropped _ hdevice =>
      rw [driverStep_empty (by rcases hdevice with rfl | rfl <;> exact fun h => nomatch h)] at hstep
      cases hstep
  | answered | crashed =>
      rw [driverStep_empty (by simp)] at hstep
      cases hstep
  | replied hq hpos hrest hd hdevice =>
      rw [driverStep_reply hq hpos] at hstep
      cases hstep
      exact .idle (hrest _) hd hdevice

theorem Session.Lockstep.device (hb : b.embedded = false) (h : s.Lockstep b nbPins)
    (hstep : s.deviceStep b = some t) : t.Lockstep b nbPins := by
  cases h with
  | idle hfits hd hdevice =>
      rcases hdevice with rfl | rfl
      · rw [deviceStep_empty (by simp)] at hstep
        cases hstep
      · cases hstep
        exact .idle hfits hd (.inl rfl)
  | @requested p resume d device hp hrest hd hdevice =>
      rcases hdevice with rfl | rfl
      · rw [deviceStep_turn hb hp] at hstep
        rcases dispatch_outcome hd (delivered p) with ⟨hrun, -⟩ | ⟨hrun, -⟩ |
          ⟨d', q, hrun, hq, hpos⟩
        · rw [hrun] at hstep
          cases hstep
          exact .crashed
        · rw [hrun] at hstep
          cases hstep
          exact .dropped hd (.inr rfl)
        · rw [hrun] at hstep
          cases hstep
          exact .answered hq hpos hrest (reachable_delivered hd hp hrun)
      · cases hstep
        exact .requested hp hrest hd (.inl rfl)
  | answered hq hpos hrest hd =>
      rw [deviceStep_write, List.nil_append] at hstep
      cases hstep
      exact .replied hq hpos hrest hd (.inr rfl)
  | replied hq hpos hrest hd hdevice =>
      rcases hdevice with rfl | rfl
      · rw [deviceStep_empty (by simp)] at hstep
        cases hstep
      · cases hstep
        exact .replied hq hpos hrest hd (.inl rfl)
  | dropped hd hdevice =>
      rcases hdevice with rfl | rfl
      · rw [deviceStep_empty (by simp)] at hstep
        cases hstep
      · cases hstep
        exact .dropped hd (.inl rfl)
  | crashed => cases hstep

theorem Session.Lockstep.oneFrame (hb : b.embedded = false) (h : s.Lockstep b nbPins) :
    s.OneFrame := by
  have hawaits : ∀ {device : DevicePhase} {d : Device}, Awaits device d →
      device ≠ .ended ∧ ∀ d' frame frames, device ≠ .sending d' (frame :: frames) := by
    rintro device d (rfl | rfl)
    · exact ⟨(by intro h; cases h), (by intro _ _ _ h; cases h)⟩
    · exact ⟨(by intro h; cases h), (by intro _ _ _ h; cases h)⟩
  have hbuff : b.buffSize = hostBuild.buffSize := by simp [Build.buffSize, hb, hostBuild]
  cases h with
  | idle _ _ hdevice =>
      obtain ⟨halive, hquiet⟩ := hawaits hdevice
      exact ⟨.inl ⟨rfl, rfl⟩, fun _ _ => ⟨rfl, rfl⟩,
        fun _ _ _ h => absurd h (hquiet _ _ _), halive, (by intro h; cases h)⟩
  | requested hp _ _ hdevice =>
      obtain ⟨halive, hquiet⟩ := hawaits hdevice
      refine ⟨.inr ⟨_, ⟨hp.size_le, hbuff ▸ hp.frame_le⟩, List.append_nil _⟩,
        (by intro _ h; cases h), fun _ _ _ h => absurd h (hquiet _ _ _), halive,
        (by intro h; cases h)⟩
  | answered =>
      refine ⟨.inl ⟨rfl, rfl⟩, (by intro _ h; cases h), fun _ _ _ h => ?_, (by intro h; cases h),
        (by intro h; cases h)⟩
      cases h
      exact ⟨rfl, rfl, rfl⟩
  | replied hq _ _ _ hdevice =>
      obtain ⟨halive, hquiet⟩ := hawaits hdevice
      exact ⟨.inr ⟨_, hq, rfl⟩, (by intro _ h; cases h),
        fun _ _ _ h => absurd h (hquiet _ _ _), halive, (by intro h; cases h)⟩
  | dropped _ hdevice =>
      obtain ⟨halive, hquiet⟩ := hawaits hdevice
      exact ⟨.inl ⟨rfl, rfl⟩, (by intro _ h; cases h),
        fun _ _ _ h => absurd h (hquiet _ _ _), halive, (by intro h; cases h)⟩
  | crashed =>
      exact ⟨.inl ⟨rfl, rfl⟩, (by intro _ h; cases h), (by intro _ _ _ h; cases h),
        (by intro h; cases h), (by intro h; cases h)⟩

theorem session_lockstep_run (hb : b.embedded = false) {client : Client α}
    (hd : Reachable b nbPins d) (hfits : client.FitsBuild b)
    (hrun : ReflTransGen (Session.Step b) (.start client d) t) : t.Lockstep b nbPins := by
  refine invariant (P := fun u => u.Lockstep b nbPins) ?_ hrun (.idle hfits hd (.inl rfl))
  rintro u v hu (hstep | hstep)
  · exact hu.driver hstep
  · exact hu.device hb hstep

/-- In every state of every interleaving there is at most one frame on the line, so that a `read`
gets the frame that was written and nothing else, and no `write` finds a full pipe. -/
theorem session_lockstep (hb : b.embedded = false) {client : Client α}
    (hd : Reachable b nbPins d) (hfits : client.FitsBuild b)
    (hrun : ReflTransGen (Session.Step b) (.start client d) t) : t.OneFrame :=
  (session_lockstep_run hb hd hfits hrun).oneFrame hb

/-- The state in which the request has been written and not yet read. -/
theorem session_lockstep_request :
    Session.OneFrame
      { driver := .waiting Client.done
        device := .reading (initialDevice hostBuild firmwareNbPins)
        toDevice := frameOf (delivered pingPacket)
        toDriver := [] } := by
  have hd : Reachable hostBuild firmwareNbPins (initialDevice hostBuild firmwareNbPins) :=
    .init (initDeviceContent_eq _ _)
  have hfits : (Client.ask pingPacket .done).FitsBuild hostBuild :=
    ⟨pingPacket_fits _, fun _ => trivial⟩
  refine session_lockstep rfl hd hfits ?_
  exact .single (.inl (Session.driverStep_ask (pingPacket_fits hostBuild) (.inl rfl)))

end Lockstep

end PinProtocol
