import PinProtocol.Common.Checksum
import PinProtocol.Common.Receiving
import PinProtocol.System.Session

/-!
# Noise — a line that damages requests

A request loses a byte on its way to the device: `Session.NoisyStep` lets this happen to any
request, in any run.  The checksum tells the device, and `mainloop` returns for the first invalid
packet; the driver then finds a closed pipe.  `noisy_session_fail_stop` says that this is all that
can come of it.  A run ends as it would have ended on a clean line, or both processes are gone;
and whatever the device takes from the line is the request that the program has come to, as it was
sent, or makes `mainloop` return (`Session.ActsOnSent`).

The size bytes are the exception.  A frame that declares less than it brings is cut off, and one
that declares more than `BUFF_SIZE` makes the device leave its buffer; `Packet.Damaged` leaves out
the damage that does either.
-/

namespace PinProtocol

open Bits Control Relation

variable {α : Type}

/-- What may arrive in place of the frame of `p`: one byte is another one, and the declared size has
not become smaller, nor larger than the buffer of the device. -/
def Packet.Damaged (b : Build) (p : Packet) (chunk : Buffer) : Prop :=
  ∃ (i : Nat) (v : Byte) (hi : i < (frameOf (delivered p)).length),
    (frameOf (delivered p))[i] ≠ v ∧ chunk = (frameOf (delivered p)).set i v ∧
      p.size.toNat ≤ declaredSize chunk ∧ declaredSize chunk + 4 ≤ b.buffSize

section Damage

variable {b : Build} {p : Packet} {chunk : Buffer}

theorem Packet.Damaged.length (hp : p.FitsBuild b) (h : p.Damaged b chunk) :
    chunk.length = p.size.toNat + 4 := by
  obtain ⟨i, v, hi, -, rfl, -⟩ := h
  rw [List.length_set, length_frameOf_delivered hp.size_le]

/-- Damage to the header, the data or the checksum is of this kind. -/
theorem damaged_of_ne_size (hp : p.FitsBuild b) {i : Nat} {v : Byte}
    (hi : i < (frameOf (delivered p)).length) (hv : (frameOf (delivered p))[i] ≠ v)
    (hne : i ≠ 1 ∧ i ≠ 2) : p.Damaged b ((frameOf (delivered p)).set i v) := by
  have hsize : declaredSize ((frameOf (delivered p)).set i v) = p.size.toNat := by
    rw [declaredSize, List.getD_eq_getElem?_getD, List.getD_eq_getElem?_getD,
      List.getElem?_set_ne hne.1, List.getElem?_set_ne hne.2]
    exact congrArg BitVec.toNat (sizeOfBytes_hiByte_loByte p.size)
  refine ⟨i, v, hi, hv, rfl, ?_, ?_⟩
  · rw [hsize]
  · rw [hsize]
    exact hp.frame_le

/-- One `read` takes what has arrived. -/
theorem pipeRead_damaged (hb : b.embedded = false) (hp : p.FitsBuild b) (h : p.Damaged b chunk) :
    pipeRead b chunk = some (chunk, []) := by
  have hlen := h.length hp
  have hle : chunk.length ≤ b.buffSize := by
    rw [hlen]
    exact hp.frame_le
  rw [pipeRead, hb, if_neg Bool.false_ne_true, if_pos (by omega), List.take_of_length_le hle,
    List.drop_of_length_le hle]

/-- The sum of the bytes gives the damage away, and `mainloop` returns. -/
theorem mainloopStep_damaged (d : Device) (hp : p.FitsBuild b) (h : p.Damaged b chunk) :
    mainloopStep b d chunk = some .stopped := by
  have hlen := h.length hp
  obtain ⟨i, v, hi, hv, hchunk, hmore, hfit⟩ := h
  have hmax : chunk.length ≤ b.buffSize := by
    rw [hlen]
    exact hp.frame_le
  obtain ⟨q, hread, hsize, hdata, hframe⟩ := connectionRead_of_fits (by omega) hmax hfit
  have hsum : (frameOf q).sum ≠ 255#8 := by
    have hsent : (frameOf (delivered p)).sum = 255#8 := by
      have hvalid := packetValid_delivered hp.size_le
      rw [packetValid_eq_sum (by simp [hp.size_le])] at hvalid
      simpa using hvalid
    rw [hframe, sum_padded chunk (by omega) (by omega), hchunk, ← hsent]
    exact sum_set_ne hi hv
  have hvalid : packetValid q = some false := by
    rw [packetValid_eq_sum hdata, Option.some_inj, beq_eq_false_iff_ne]
    exact hsum
  simp only [mainloopStep, hread, hvalid, Option.bind_eq_bind, Option.bind_some]
  rfl

end Damage

/-! ## Runs on a line with noise -/

/-- A step of either process; a request that is sent may arrive damaged. -/
def Session.NoisyStep (b : Build) (s t : Session α) : Prop :=
  Session.Step b s t ∨
    ∃ p resume chunk, s.driver = .ready (.ask p resume) ∧ s.deviceClosed b = false ∧
      p.Damaged b chunk ∧
      t = { s with driver := .waiting resume, toDevice := s.toDevice ++ chunk }

/-- The device has left its loop and the driver has exited. -/
def Session.stopped : Session α :=
  { driver := .gone, device := .ended, toDevice := [], toDriver := [] }

section Runs

variable {b : Build} {nbPins : BitVec 8} {d : Device}

theorem noisyStep_quiet : Session.Quiet (α := α) b (Session.NoisyStep b) := by
  intro s hquiet t
  constructor
  · rintro (hstep | ⟨p, resume, _, hdriver, -⟩)
    · exact hstep
    · exact absurd ⟨p, resume, hdriver⟩ hquiet
  · exact .inl

/-- `mainloop` returns. -/
theorem deviceStep_damaged (hb : b.embedded = false) {p : Packet} {chunk : Buffer}
    (hp : p.FitsBuild b) (h : p.Damaged b chunk) (resume : Packet → Client α) :
    Session.deviceStep b ⟨.waiting resume, .reading d, chunk, []⟩ =
      some ⟨.waiting resume, .ended, [], []⟩ := by
  simp [Session.deviceStep, pipeRead_damaged hb hp h, mainloopStep_damaged d hp h]

/-- The driver's `read` finds the end of the pipe. -/
theorem driverStep_returned (hb : b.embedded = false) (resume : Packet → Client α) :
    Session.driverStep b ⟨.waiting resume, .ended, [], []⟩ =
      some (Session.stopped : Session α) := by
  simp [Session.driverStep, pipeRead_nil, Session.deviceClosed, hb, Session.stopped]

/-- After a damaged request both processes come to their ends. -/
theorem inevitable_of_damaged {P : Session α → Prop} (hP : P .stopped) (hb : b.embedded = false)
    {p : Packet} {chunk : Buffer} (hp : p.FitsBuild b) (h : p.Damaged b chunk)
    (resume : Packet → Client α) :
    Inevitable (Session.NoisyStep b) P ⟨.waiting resume, .reading d, chunk, []⟩ := by
  refine Session.inevitable_of_device (noisyStep_quiet _ not_sends_waiting)
    (Session.driverStep_empty (by simp)) (deviceStep_damaged hb hp h resume) ?_
  exact Session.inevitable_of_driver (noisyStep_quiet _ not_sends_waiting)
    (driverStep_returned hb resume) rfl (.now hP)

/-- From a state in which a request is about to be sent, with nothing on the line. -/
theorem noisyStep_cases {p : Packet} {resume : Packet → Client α} {device : DevicePhase}
    {t : Session α} (hp : p.FitsBuild b) (hdevice : Session.Awaits device d)
    (h : Session.NoisyStep b ⟨.ready (.ask p resume), device, [], []⟩ t) :
    (∃ chunk, (chunk = frameOf (delivered p) ∨ p.Damaged b chunk) ∧
        t = ⟨.waiting resume, device, chunk, []⟩) ∨
      Session.deviceStep b ⟨.ready (.ask p resume), device, [], []⟩ = some t := by
  rcases h with (hdriver | hdev) | ⟨p', resume', chunk, hask, -, hdamaged, rfl⟩
  · rw [Session.driverStep_ask hp hdevice] at hdriver
    cases hdriver
    exact .inl ⟨_, .inl rfl, rfl⟩
  · exact .inr hdev
  · cases hask
    exact .inl ⟨chunk, .inr hdamaged, rfl⟩

/-- The request is sent, damaged or not, and is read when the device is back at `read`. -/
theorem inevitable_of_noisy_request {P : Session α → Prop} (hP : P .stopped)
    (hb : b.embedded = false) {p : Packet} {resume : Packet → Client α} (hp : p.FitsBuild b)
    (h : Inevitable (Session.NoisyStep b) P
      ⟨.waiting resume, .reading d, frameOf (delivered p), []⟩)
    {device : DevicePhase} (hdevice : Session.Awaits device d) :
    Inevitable (Session.NoisyStep b) P ⟨.ready (.ask p resume), device, [], []⟩ := by
  have harrived : ∀ chunk, chunk = frameOf (delivered p) ∨ p.Damaged b chunk →
      Inevitable (Session.NoisyStep b) P ⟨.waiting resume, .reading d, chunk, []⟩ := by
    rintro chunk (rfl | hdamaged)
    · exact h
    · exact inevitable_of_damaged hP hb hp hdamaged resume
  have hreading : Inevitable (Session.NoisyStep b) P
      ⟨.ready (.ask p resume), .reading d, [], []⟩ := by
    refine .later ⟨_, .inl (.inl (Session.driverStep_ask hp (.inl rfl)))⟩ fun t ht => ?_
    rcases noisyStep_cases hp (.inl rfl) ht with ⟨chunk, hchunk, rfl⟩ | hdev
    · exact harrived chunk hchunk
    · rw [Session.deviceStep_empty (by simp)] at hdev
      cases hdev
  rcases hdevice with rfl | rfl
  · exact hreading
  · -- the driver may write before the device is back
    refine .later ⟨_, .inl (.inl (Session.driverStep_ask hp (.inr rfl)))⟩ fun t ht => ?_
    rcases noisyStep_cases hp (.inr rfl) ht with ⟨chunk, hchunk, rfl⟩ | hdev
    · exact inevitable_of_back noisyStep_quiet (.inr rfl) (harrived chunk hchunk)
    · cases hdev
      exact hreading

/-- The induction is over the program; a damaged request ends it. -/
theorem noisy_session_from (hb : b.embedded = false) (client : Client α) :
    ∀ {d : Device}, Reachable b nbPins d → client.FitsBuild b → ∀ device,
      Session.Awaits device d →
        Inevitable (Session.NoisyStep b) (fun t => Ended b client d t ∨ t = .stopped)
          ⟨.ready client, device, [], []⟩ := by
  -- A request that arrives whole goes on as without noise; any other ends in `stopped`.
  induction client with
  | done a =>
      intro d _ _ device hdevice
      exact inevitable_of_reading noisyStep_quiet hdevice (by simp)
        (.inl (.completed rfl))
  | fault =>
      intro d _ _ device hdevice
      exact inevitable_of_reading noisyStep_quiet hdevice (by simp)
        (.inl (.driverFault .refl))
  | ask p resume ih =>
      intro d hd hfits device hdevice
      obtain ⟨hp, hrest⟩ := hfits
      refine inevitable_of_noisy_request (.inr rfl) hb hp ?_ hdevice
      rcases inevitable_of_arrival noisyStep_quiet hb hd hp resume with ⟨t, hend, harrived⟩ |
        ⟨d', q, hrun, hq, hpos, harrived⟩
      · refine harrived.mono ?_
        rintro _ rfl
        exact .inl hend
      · refine harrived _ fun device hdevice => ?_
        refine (ih (delivered q) (reachable_delivered hd hp hrun) (hrest _) device hdevice).mono ?_
        rintro t (hend | hstop)
        · exact .inl (hend.of_exchange (exchange_device hp hrun hq hpos))
        · exact .inr hstop

/-! ## What the device takes from the line -/

/-- What the device's next `read` takes is the request that the program has come to over a clean
line, as it was sent, or makes `mainloop` return. -/
def Session.ActsOnSent (b : Build) (client : Client α) (d : Device) (s : Session α) : Prop :=
  ∀ d' chunk rest, s.device = .reading d' → pipeRead b s.toDevice = some (chunk, rest) →
    (∃ p resume, Client.Advances (deviceLink b) (client, d) (.ask p resume, d') ∧
      chunk = frameOf (delivered p)) ∨ mainloopStep b d' chunk = some .stopped

/-- The states of a session on a line with noise; device and program are where the exchanges over a
clean line have brought them. -/
inductive Session.NoisyLockstep (b : Build) (client : Client α) (d : Device) :
    Session α → Prop where
  | idle {client' : Client α} {d' : Device} {device : DevicePhase}
      (hadv : Client.Advances (deviceLink b) (client, d) (client', d'))
      (hdevice : Awaits device d') :
      NoisyLockstep b client d ⟨.ready client', device, [], []⟩
  | requested {p : Packet} {resume : Packet → Client α} {d' : Device} {device : DevicePhase}
      {chunk : Buffer} (hadv : Client.Advances (deviceLink b) (client, d) (.ask p resume, d'))
      (hdevice : Awaits device d') (hchunk : chunk = frameOf (delivered p) ∨ p.Damaged b chunk) :
      NoisyLockstep b client d ⟨.waiting resume, device, chunk, []⟩
  | answered {q : Packet} {resume : Packet → Client α} {d' : Device} (hq : q.FitsBuild hostBuild)
      (hpos : 0 < q.size.toNat)
      (hadv : Client.Advances (deviceLink b) (client, d) (resume (delivered q), d')) :
      NoisyLockstep b client d ⟨.waiting resume, .sending d' [frameOf (delivered q)], [], []⟩
  | replied {q : Packet} {resume : Packet → Client α} {d' : Device} {device : DevicePhase}
      (hq : q.FitsBuild hostBuild) (hpos : 0 < q.size.toNat)
      (hadv : Client.Advances (deviceLink b) (client, d) (resume (delivered q), d'))
      (hdevice : Awaits device d') :
      NoisyLockstep b client d ⟨.waiting resume, device, [], frameOf (delivered q)⟩
  | dropped {resume : Packet → Client α} {d' : Device} {device : DevicePhase}
      (hdevice : Awaits device d') :
      NoisyLockstep b client d ⟨.waiting resume, device, [], []⟩
  | crashed {resume : Packet → Client α} :
      NoisyLockstep b client d ⟨.waiting resume, .faulted, [], []⟩
  | returned {resume : Packet → Client α} :
      NoisyLockstep b client d ⟨.waiting resume, .ended, [], []⟩
  | stopped : NoisyLockstep b client d .stopped

section Lockstep

variable {client : Client α} {s t : Session α}

theorem Session.NoisyLockstep.driver (hb : b.embedded = false) (hfits : client.FitsBuild b)
    (h : s.NoisyLockstep b client d) (hstep : s.driverStep b = some t) :
    t.NoisyLockstep b client d := by
  cases h with
  | @idle client' d' device hadv hdevice =>
      cases client' with
      | done a => cases hstep
      | fault => cases hstep
      | ask p resume =>
          have hp : p.FitsBuild b := (Client.asks_of_advances hadv hfits).1
          rw [driverStep_ask hp hdevice, List.nil_append] at hstep
          cases hstep
          exact .requested hadv hdevice (.inl rfl)
  | requested _ hdevice | dropped hdevice =>
      rw [driverStep_empty (by rcases hdevice with rfl | rfl <;> simp)] at hstep
      cases hstep
  | answered | crashed =>
      rw [driverStep_empty (by simp)] at hstep
      cases hstep
  | replied hq hpos hadv hdevice =>
      rw [driverStep_reply hq hpos] at hstep
      cases hstep
      exact .idle hadv hdevice
  | returned =>
      rw [driverStep_returned hb] at hstep
      cases hstep
      exact .stopped
  | stopped => cases hstep

/-- The turn that takes a request from the line. -/
theorem Session.NoisyLockstep.turn (hb : b.embedded = false) (hd : Reachable b nbPins d)
    (hfits : client.FitsBuild b) {p : Packet} {resume : Packet → Client α} {d' : Device}
    {chunk : Buffer} (hadv : Client.Advances (deviceLink b) (client, d) (.ask p resume, d'))
    (hchunk : chunk = frameOf (delivered p) ∨ p.Damaged b chunk)
    (hstep : deviceStep b ⟨.waiting resume, .reading d', chunk, []⟩ = some t) :
    t.NoisyLockstep b client d := by
  have hp : p.FitsBuild b := (Client.asks_of_advances hadv hfits).1
  rcases hchunk with rfl | hdamaged
  · have hd' : Reachable b nbPins d' := reachable_of_advances hadv hd
    rw [deviceStep_turn hb hp] at hstep
    rcases dispatch_outcome hd' (delivered p) with ⟨hrun, -⟩ | ⟨hrun, -⟩ |
      ⟨d₁, q, hrun, hq, hpos⟩
    · rw [hrun] at hstep
      cases hstep
      exact .crashed
    · rw [hrun] at hstep
      cases hstep
      exact .dropped (.inr rfl)
    · rw [hrun] at hstep
      cases hstep
      exact .answered hq hpos (hadv.tail (.ask (exchange_device hp hrun hq hpos)))
  · rw [deviceStep_damaged hb hp hdamaged] at hstep
    cases hstep
    exact .returned

theorem Session.NoisyLockstep.device (hb : b.embedded = false) (hd : Reachable b nbPins d)
    (hfits : client.FitsBuild b) (h : s.NoisyLockstep b client d)
    (hstep : s.deviceStep b = some t) : t.NoisyLockstep b client d := by
  cases h with
  | idle hadv hdevice =>
      rcases hdevice with rfl | rfl
      · rw [deviceStep_empty (by simp)] at hstep
        cases hstep
      · cases hstep
        exact .idle hadv (.inl rfl)
  | requested hadv hdevice hchunk =>
      rcases hdevice with rfl | rfl
      · exact .turn hb hd hfits hadv hchunk hstep
      · cases hstep
        exact .requested hadv (.inl rfl) hchunk
  | answered hq hpos hadv =>
      rw [deviceStep_write, List.nil_append] at hstep
      cases hstep
      exact .replied hq hpos hadv (.inr rfl)
  | replied hq hpos hadv hdevice =>
      rcases hdevice with rfl | rfl
      · rw [deviceStep_empty (by simp)] at hstep
        cases hstep
      · cases hstep
        exact .replied hq hpos hadv (.inl rfl)
  | dropped hdevice =>
      rcases hdevice with rfl | rfl
      · rw [deviceStep_empty (by simp)] at hstep
        cases hstep
      · cases hstep
        exact .dropped (.inl rfl)
  | crashed | returned | stopped => cases hstep

theorem Session.NoisyLockstep.step (hb : b.embedded = false) (hd : Reachable b nbPins d)
    (hfits : client.FitsBuild b) (h : s.NoisyLockstep b client d)
    (hstep : Session.NoisyStep b s t) : t.NoisyLockstep b client d := by
  rcases hstep with (hdriver | hdevice) | ⟨p, resume, chunk, hask, -, hdamaged, rfl⟩
  · exact h.driver hb hfits hdriver
  · exact h.device hb hd hfits hdevice
  · -- only a program that is about to send has its request damaged
    cases h with
    | idle hadv hdevice =>
        cases hask
        exact .requested hadv hdevice (.inr hdamaged)
    | _ => cases hask

theorem Session.NoisyLockstep.actsOnSent (hb : b.embedded = false) (hfits : client.FitsBuild b)
    (h : s.NoisyLockstep b client d) : s.ActsOnSent b client d := by
  intro d' chunk rest hreading hread
  cases h with
  | @requested p resume d'' device arrived hadv hdevice hchunk =>
      have hp : p.FitsBuild b := (Client.asks_of_advances hadv hfits).1
      rcases hdevice with rfl | rfl
      · cases hreading
        rcases hchunk with rfl | hdamaged
        · rw [pipeRead_frame hb hp] at hread
          cases hread
          exact .inl ⟨p, resume, hadv, rfl⟩
        · rw [pipeRead_damaged hb hp hdamaged] at hread
          cases hread
          exact .inr (mainloopStep_damaged d' hp hdamaged)
      · cases hreading
  | answered | crashed | returned | stopped => cases hreading
  | idle | replied | dropped =>
      rw [pipeRead_nil] at hread
      cases hread

end Lockstep

/-- Whatever happens to the bytes of whichever requests, and in whatever order the two processes
run: the run ends as on a clean line, or both processes have stopped; and no damaged request is
acted on. -/
theorem noisy_session_fail_stop (hb : b.embedded = false) (hd : Reachable b nbPins d)
    {client : Client α} (hfits : client.FitsBuild b) :
    Inevitable (Session.NoisyStep b) (fun t => Ended b client d t ∨ t = .stopped)
        (.start client d) ∧
      ∀ t, ReflTransGen (Session.NoisyStep b) (.start client d) t → t.ActsOnSent b client d := by
  refine ⟨noisy_session_from hb client hd hfits _ (.inl rfl), fun t hrun => ?_⟩
  have hlock : t.NoisyLockstep b client d :=
    invariant (fun _ _ hs hstep => hs.step hb hd hfits hstep) hrun (.idle .refl (.inl rfl))
  exact hlock.actsOnSent hb hfits

theorem noisy_session_fail_stop_write :
    Inevitable (Session.NoisyStep hostBuild)
        (fun t => Ended hostBuild pingThenWrite (initialDevice hostBuild firmwareNbPins) t ∨
          t = .stopped)
        (.start pingThenWrite (initialDevice hostBuild firmwareNbPins)) ∧
      ∀ t, ReflTransGen (Session.NoisyStep hostBuild)
          (.start pingThenWrite (initialDevice hostBuild firmwareNbPins)) t →
        t.ActsOnSent hostBuild pingThenWrite (initialDevice hostBuild firmwareNbPins) := by
  have hd : Reachable hostBuild firmwareNbPins (initialDevice hostBuild firmwareNbPins) :=
    .init (initDeviceContent_eq _ _)
  exact noisy_session_fail_stop rfl hd (pingThenWrite_fits hostBuild)

end Runs

end PinProtocol
