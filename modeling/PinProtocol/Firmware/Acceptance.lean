import PinProtocol.Firmware.Dispatch

/-!
# Acceptance — which packets the device can treat

`mainloop` checks the checksum of a packet and nothing else.  `Accepts` says what a packet must
hold beyond that, so that the selected handler stays inside the data of the packet, the tables of
the device and the buffer of its reply.  `Serves` says what the handler then does, branch by branch;
everything that is proved about runs of the device is proved by cases on it.
-/

namespace PinProtocol

open Bits Control

/-! ## Requests that the device can treat -/

/-- The command in the header of a request. -/
def Packet.command (p : Packet) : BitVec 8 :=
  p.header >>> 4

/-- A type code without any value bits makes the handler write behind its reply. -/
def AcceptsRead (c : Connection) (p : Packet) : Prop :=
  if usesMask p then HoldsMask c p 0 ∧ (maskedPins c p 0 = [] ∨ 0 < p.width)
  else NamesPin c p 0 ∧ 0 < p.width

def AcceptsWrite (c : Connection) (p : Packet) : Prop :=
  if usesMask p then
    HoldsMask c p 0 ∧ Fits c.nbPins p.width (maskedPins c p 0).length p.data.length
  else NamesPin c p 0 ∧ 8 + max p.width 1 ≤ 8 * p.data.length

def AcceptsGetType (c : Connection) (p : Packet) : Prop :=
  if usesMask p then HoldsMask c p 0 else NamesPin c p 0

def AcceptsSetType (c : Connection) (p : Packet) : Prop :=
  if usesMask p then HoldsMask c p 0 ∧ Fits c.nbPins 3 (maskedPins c p 0).length p.data.length
  else NamesPin c p 0 ∧ 8 + 3 ≤ 8 * p.data.length

/-- The size of the reply to a mask is computed in a `uint8_t`. -/
def AcceptsGetFailsafe (c : Connection) (p : Packet) : Prop :=
  if usesMask p then
    HoldsMask c p 0 ∧
      16 + (maskedPins c p 0).length + failsafeBits c (maskedPins c p 0) ≤ 2016
  else NamesPin c p 0

def AcceptsSetFailsafe (c : Connection) (p : Packet) : Prop :=
  if usesMask p then
    2 ≤ p.data.length ∧ HoldsMask c p 16 ∧
      Fits (16 + c.nbPins) p.width (maskedPins c p 16).length p.data.length
  else NamesPin c p 2 ∧ 24 + max p.width 1 ≤ 8 * p.data.length

/-- The handler that the command of `p` selects can treat `p`. -/
def Accepts (b : Build) (d : Device) (p : Packet) : Prop :=
  match p.command.toNat with
  | 3 => AcceptsRead d.conn p
  | 4 => AcceptsWrite d.conn p
  | 5 => AcceptsGetType d.conn p
  | 6 => AcceptsSetType d.conn p
  | 7 => b.disableFailsafe = true ∨ AcceptsGetFailsafe d.conn p
  | 8 => b.disableFailsafe = true ∨ AcceptsSetFailsafe d.conn p
  | _ => True

instance (c : Connection) (p : Packet) : Decidable (AcceptsRead c p) := by
  delta AcceptsRead
  infer_instance

instance (c : Connection) (p : Packet) : Decidable (AcceptsWrite c p) := by
  delta AcceptsWrite
  infer_instance

instance (c : Connection) (p : Packet) : Decidable (AcceptsGetType c p) := by
  delta AcceptsGetType
  infer_instance

instance (c : Connection) (p : Packet) : Decidable (AcceptsSetType c p) := by
  delta AcceptsSetType
  infer_instance

instance (c : Connection) (p : Packet) : Decidable (AcceptsGetFailsafe c p) := by
  delta AcceptsGetFailsafe
  infer_instance

instance (c : Connection) (p : Packet) : Decidable (AcceptsSetFailsafe c p) := by
  delta AcceptsSetFailsafe
  infer_instance

theorem command_cases (p : Packet) :
    p.command = cmdGetCaps ∨ p.command = cmdReset ∨ p.command = cmdPing ∨ p.command = cmdRead ∨
      p.command = cmdWrite ∨ p.command = cmdGetType ∨ p.command = cmdSetType ∨
      p.command = cmdGetFailsafe ∨ p.command = cmdSetFailsafe ∨ 8 < p.command.toNat := by
  have hcode : cmdGetCaps.toNat = 0 ∧ cmdReset.toNat = 1 ∧ cmdPing.toNat = 2 ∧
      cmdRead.toNat = 3 ∧ cmdWrite.toNat = 4 ∧ cmdGetType.toNat = 5 ∧ cmdSetType.toNat = 6 ∧
      cmdGetFailsafe.toNat = 7 ∧ cmdSetFailsafe.toNat = 8 := by
    decide
  simp only [← BitVec.toNat_inj]
  omega

/-! ## What a request does -/

/-- A device that `mainloop` can run on: its tables are there. -/
structure Device.Ready (b : Build) (d : Device) : Prop where
  wellFormed : d.conn.WellFormed
  failsafe : b.disableFailsafe = false → ∃ f, d.conn.failsafe = some f

/-- What becomes of the device when it treats `p`, and its reply, if it sends one. -/
inductive Serves (b : Build) (d : Device) (p : Packet) : Device → Option Packet → Prop
  | getCaps (h : p.command = cmdGetCaps) : Serves b d p d.next (some (capsReply d))
  | reset (h : p.command = cmdReset) : Serves b d p d none
  | ping (h : p.command = cmdPing) : Serves b d p d.next (some (pingReply d))
  | readPin (h : p.command = cmdRead) (hkind : usesMask p = false)
      (hacc : NamesPin d.conn p 0 ∧ 0 < p.width) :
      Serves b d p d.next
        (some (fieldsReply cmdRead d.nextId p.width [(d.conn.pinAt (p.pin 0)).pinsVal]))
  | readMask (h : p.command = cmdRead) (hkind : usesMask p = true)
      (hacc : HoldsMask d.conn p 0 ∧ (maskedPins d.conn p 0 = [] ∨ 0 < p.width)) :
      Serves b d p d.next
        (some (fieldsReply cmdRead d.nextId p.width
          ((maskedPins d.conn p 0).map fun pin => (d.conn.pinAt pin).pinsVal)))
  | writePin (h : p.command = cmdWrite) (hkind : usesMask p = false)
      (hacc : NamesPin d.conn p 0 ∧ 8 + max p.width 1 ≤ 8 * p.data.length) :
      Serves b d p
        (d.put
          { d.conn with
            pinsState := d.conn.pinsState.modify (p.pin 0) fun _ =>
              { pinsType := p.type, pinsVal := fieldAt (bitAt p.data) 8 p.width 0 } })
        (some (idReply cmdWrite d.nextId))
  | writeMask (h : p.command = cmdWrite) (hkind : usesMask p = true)
      (hacc : HoldsMask d.conn p 0 ∧
        Fits d.conn.nbPins p.width (maskedPins d.conn p 0).length p.data.length) :
      Serves b d p
        (d.put
          { d.conn with
            pinsState := scatter
              (fun i pin =>
                let val := fieldAt (bitAt p.data) d.conn.nbPins p.width i
                { pin with pinsVal := (val.setWidth 8).setWidth 16 })
              (maskedPins d.conn p 0) d.conn.pinsState })
        (some (idReply cmdWrite d.nextId))
  | getTypePin (h : p.command = cmdGetType) (hkind : usesMask p = false)
      (hacc : NamesPin d.conn p 0) :
      Serves b d p d.next
        (some (fieldsReply cmdSetType d.nextId 3
          [(d.conn.pinAt (p.pin 0)).pinsType.setWidth 16]))
  | getTypeMask (h : p.command = cmdGetType) (hkind : usesMask p = true)
      (hacc : HoldsMask d.conn p 0) :
      Serves b d p d.next
        (some (fieldsReply cmdSetType d.nextId 3
          ((maskedPins d.conn p 0).map fun pin => (d.conn.pinAt pin).pinsType.setWidth 16)))
  | setTypePin (h : p.command = cmdSetType) (hkind : usesMask p = false)
      (hacc : NamesPin d.conn p 0 ∧ 8 + 3 ≤ 8 * p.data.length) :
      Serves b d p
        (d.put
          { d.conn with
            pinsState := d.conn.pinsState.modify (p.pin 0) fun x =>
              { x with pinsType := (fieldAt (bitAt p.data) 8 3 0).setWidth 8 } })
        (some (idReply cmdSetType d.nextId))
  | setTypeMask (h : p.command = cmdSetType) (hkind : usesMask p = true)
      (hacc : HoldsMask d.conn p 0 ∧
        Fits d.conn.nbPins 3 (maskedPins d.conn p 0).length p.data.length) :
      Serves b d p
        (d.put
          { d.conn with
            pinsState := scatter
              (fun i pin =>
                { pin with pinsType := (fieldAt (bitAt p.data) d.conn.nbPins 3 i).setWidth 8 })
              (maskedPins d.conn p 0) d.conn.pinsState })
        (some (idReply cmdSetType d.nextId))
  | getFailsafePin (h : p.command = cmdGetFailsafe) (hb : b.disableFailsafe = false)
      (hkind : usesMask p = false) {f : Failsafe} (hf : d.conn.failsafe = some f)
      (hacc : NamesPin d.conn p 0) :
      Serves b d p d.next
        (some (failsafeReply d.nextId f.timeout
          (3 + bits2bytes (3 + getTypeBitsNb (f.entryAt (p.pin 0)).pinState))
          (slotPattern 24 (f.entryAt (p.pin 0)))))
  | getFailsafeMask (h : p.command = cmdGetFailsafe) (hb : b.disableFailsafe = false)
      (hkind : usesMask p = true) {f : Failsafe} (hf : d.conn.failsafe = some f)
      {es : List PinFailsafe} (hes : es = f.entriesAt (maskedPins d.conn p 0))
      (hacc : HoldsMask d.conn p 0 ∧ 16 + es.length + entriesLength es ≤ 2016) :
      Serves b d p d.next
        (some (failsafeReply d.nextId f.timeout
          (3 + bits2bytes (16 + es.length + entriesLength es)) (tablePattern 24 es)))
  | setFailsafePin (h : p.command = cmdSetFailsafe) (hb : b.disableFailsafe = false)
      (hkind : usesMask p = false) {f : Failsafe} (hf : d.conn.failsafe = some f)
      (hacc : NamesPin d.conn p 2 ∧ 24 + max p.width 1 ≤ 8 * p.data.length) :
      Serves b d p
        (d.putFailsafe (fieldAt (bitAt p.data) 0 16 0)
          (f.pinsFailsafe.modify (p.pin 2) fun _ =>
            { pinState := p.type, pinValue := fieldAt (bitAt p.data) 24 p.width 0 }))
        (some (idReply cmdSetType d.nextId))
  | setFailsafeMask (h : p.command = cmdSetFailsafe) (hb : b.disableFailsafe = false)
      (hkind : usesMask p = true) {f : Failsafe} (hf : d.conn.failsafe = some f)
      (hacc : 2 ≤ p.data.length ∧ HoldsMask d.conn p 16 ∧
        Fits (16 + d.conn.nbPins) p.width (maskedPins d.conn p 16).length p.data.length) :
      Serves b d p
        (d.putFailsafe (fieldAt (bitAt p.data) 0 16 0)
          (scatter
            (fun i _ =>
              { pinState := p.type
                pinValue := fieldAt (bitAt p.data) (16 + d.conn.nbPins) p.width i })
            (maskedPins d.conn p 16) f.pinsFailsafe))
        (some (idReply cmdSetType d.nextId))
  | noFailsafe (h : p.command = cmdGetFailsafe ∨ p.command = cmdSetFailsafe)
      (hb : b.disableFailsafe = true) : Serves b d p d none
  | unknown (h : 8 < p.command.toNat) : Serves b d p d none

/-- The frame of a reply, as the list that the loop sends. -/
def replyFrames (r : Option Packet) : List Buffer :=
  (r.map fun q => frameOf (delivered q)).toList

section Served

variable {b : Build} {d d' : Device} {p : Packet} {rs : List Buffer}

theorem writes_eq_some {treat : Option Connection} {id cmdNo : BitVec 8}
    (h : treat.map (fun conn => (d.put conn, [frameOf (delivered (idReply cmdNo id))])) =
      some (d', rs)) :
    ∃ conn, treat = some conn ∧ d' = d.put conn ∧ rs = replyFrames (some (idReply cmdNo id)) := by
  rcases Option.map_eq_some_iff.mp h with ⟨conn, hconn, heq⟩
  cases heq
  exact ⟨conn, hconn, rfl, rfl⟩

theorem guarded_eq_some {α : Type} {P : Prop} [Decidable P] {x y : α}
    (h : (if P then some x else none) = some y) : P ∧ x = y := by
  rw [Option.ite_none_right_eq_some, Option.some.injEq] at h
  exact h

/-- A request that is treated is treated as `Serves` says. -/
theorem dispatch_serves (hd : d.Ready b) (hrun : dispatch b d p = some (d', rs)) :
    ∃ r, Serves b d p d' r ∧ rs = replyFrames r := by
  have hwf := hd.wellFormed
  rcases command_cases p with h | h | h | h | h | h | h | h | h | h
  · rw [dispatch_getCaps h, replyGetCaps_eq hwf] at hrun
    cases hrun
    exact ⟨_, .getCaps h, rfl⟩
  · rw [dispatch_reset h] at hrun
    cases hrun
    exact ⟨_, .reset h, rfl⟩
  · rw [dispatch_ping h, replyPing_eq] at hrun
    cases hrun
    exact ⟨_, .ping h, rfl⟩
  · -- a request is for one pin or for a mask, with one guard for either
    rw [dispatch_read h] at hrun
    cases hkind : usesMask p with
    | false =>
        rw [replyRead_pin_eq hwf hkind] at hrun
        obtain ⟨hacc, heq⟩ := guarded_eq_some hrun
        cases heq
        exact ⟨_, .readPin h hkind hacc, rfl⟩
    | true =>
        rw [replyRead_mask_eq hwf hkind] at hrun
        obtain ⟨hacc, heq⟩ := guarded_eq_some hrun
        cases heq
        exact ⟨_, .readMask h hkind hacc, rfl⟩
  · -- a write changes the connection, and the id alone is sent back
    rw [dispatch_write h] at hrun
    obtain ⟨conn, htreat, rfl, rfl⟩ := writes_eq_some hrun
    cases hkind : usesMask p with
    | false =>
        rw [treatWrite_pin_eq hwf hkind] at htreat
        obtain ⟨hacc, rfl⟩ := guarded_eq_some htreat
        exact ⟨_, .writePin h hkind hacc, rfl⟩
    | true =>
        rw [treatWrite_mask_eq hwf hkind] at htreat
        obtain ⟨hacc, rfl⟩ := guarded_eq_some htreat
        exact ⟨_, .writeMask h hkind hacc, rfl⟩
  · rw [dispatch_getType h] at hrun
    cases hkind : usesMask p with
    | false =>
        rw [replyGetType_pin_eq hwf hkind] at hrun
        obtain ⟨hacc, heq⟩ := guarded_eq_some hrun
        cases heq
        exact ⟨_, .getTypePin h hkind hacc, rfl⟩
    | true =>
        rw [replyGetType_mask_eq hwf hkind] at hrun
        obtain ⟨hacc, heq⟩ := guarded_eq_some hrun
        cases heq
        exact ⟨_, .getTypeMask h hkind hacc, rfl⟩
  · rw [dispatch_setType h] at hrun
    obtain ⟨conn, htreat, rfl, rfl⟩ := writes_eq_some hrun
    cases hkind : usesMask p with
    | false =>
        rw [treatSetType_pin_eq hwf hkind] at htreat
        obtain ⟨hacc, rfl⟩ := guarded_eq_some htreat
        exact ⟨_, .setTypePin h hkind hacc, rfl⟩
    | true =>
        rw [treatSetType_mask_eq hwf hkind] at htreat
        obtain ⟨hacc, rfl⟩ := guarded_eq_some htreat
        exact ⟨_, .setTypeMask h hkind hacc, rfl⟩
  · -- a build without failsafe leaves the request unanswered
    rw [dispatch_getFailsafe h] at hrun
    cases hb : b.disableFailsafe with
    | true =>
        rw [hb, if_pos rfl] at hrun
        cases hrun
        exact ⟨_, .noFailsafe (.inl h) hb, rfl⟩
    | false =>
        obtain ⟨f, hf⟩ := hd.failsafe hb
        rw [hb, if_neg Bool.false_ne_true] at hrun
        cases hkind : usesMask p with
        | false =>
            rw [replyGetFailsafe_pin_eq hwf hf hkind] at hrun
            obtain ⟨hacc, heq⟩ := guarded_eq_some hrun
            cases heq
            exact ⟨_, .getFailsafePin h hb hkind hf hacc, rfl⟩
        | true =>
            rw [replyGetFailsafe_mask_eq hwf hf hkind] at hrun
            obtain ⟨hacc, heq⟩ := guarded_eq_some hrun
            cases heq
            exact ⟨_, .getFailsafeMask h hb hkind hf rfl hacc, rfl⟩
  · rw [dispatch_setFailsafe h] at hrun
    cases hb : b.disableFailsafe with
    | true =>
        rw [hb, if_pos rfl] at hrun
        cases hrun
        exact ⟨_, .noFailsafe (.inr h) hb, rfl⟩
    | false =>
        obtain ⟨f, hf⟩ := hd.failsafe hb
        rw [hb, if_neg Bool.false_ne_true] at hrun
        cases hkind : usesMask p with
        | false =>
            rw [replySetFailsafe_pin_eq hwf hf hkind] at hrun
            obtain ⟨hacc, heq⟩ := guarded_eq_some hrun
            cases heq
            exact ⟨_, .setFailsafePin h hb hkind hf hacc, rfl⟩
        | true =>
            rw [replySetFailsafe_mask_eq hwf hf hkind] at hrun
            obtain ⟨hacc, heq⟩ := guarded_eq_some hrun
            cases heq
            exact ⟨_, .setFailsafeMask h hb hkind hf hacc, rfl⟩
  · -- an unknown command is dropped
    rw [dispatch_default h] at hrun
    cases hrun
    exact ⟨_, .unknown h, rfl⟩

/-- What `Serves` says is what happens. -/
theorem dispatch_of_serves (hd : d.Ready b) {r : Option Packet} (h : Serves b d p d' r) :
    dispatch b d p = some (d', replyFrames r) := by
  have hwf := hd.wellFormed
  -- One handler a case, each by its own equation, where the request is accepted.
  cases h with
  | getCaps h => rw [dispatch_getCaps h, replyGetCaps_eq hwf]; rfl
  | reset h => exact dispatch_reset h
  | ping h => rw [dispatch_ping h, replyPing_eq]; rfl
  | readPin h hkind hacc =>
      rw [dispatch_read h, replyRead_pin_eq hwf hkind, if_pos hacc]
      rfl
  | readMask h hkind hacc =>
      rw [dispatch_read h, replyRead_mask_eq hwf hkind, if_pos hacc]
      rfl
  | writePin h hkind hacc =>
      rw [dispatch_write h, treatWrite_pin_eq hwf hkind, if_pos hacc]
      rfl
  | writeMask h hkind hacc =>
      rw [dispatch_write h, treatWrite_mask_eq hwf hkind, if_pos hacc]
      rfl
  | getTypePin h hkind hacc =>
      rw [dispatch_getType h, replyGetType_pin_eq hwf hkind, if_pos hacc]
      rfl
  | getTypeMask h hkind hacc =>
      rw [dispatch_getType h, replyGetType_mask_eq hwf hkind, if_pos hacc]
      rfl
  | setTypePin h hkind hacc =>
      rw [dispatch_setType h, treatSetType_pin_eq hwf hkind, if_pos hacc]
      rfl
  | setTypeMask h hkind hacc =>
      rw [dispatch_setType h, treatSetType_mask_eq hwf hkind, if_pos hacc]
      rfl
  | getFailsafePin h hb hkind hf hacc =>
      rw [dispatch_getFailsafe h, hb, if_neg Bool.false_ne_true,
        replyGetFailsafe_pin_eq hwf hf hkind, if_pos hacc]
      rfl
  | getFailsafeMask h hb hkind hf hes hacc =>
      subst hes
      rw [dispatch_getFailsafe h, hb, if_neg Bool.false_ne_true,
        replyGetFailsafe_mask_eq hwf hf hkind, if_pos hacc]
      rfl
  | setFailsafePin h hb hkind hf hacc =>
      rw [dispatch_setFailsafe h, hb, if_neg Bool.false_ne_true,
        replySetFailsafe_pin_eq hwf hf hkind, if_pos hacc]
      rfl
  | setFailsafeMask h hb hkind hf hacc =>
      rw [dispatch_setFailsafe h, hb, if_neg Bool.false_ne_true,
        replySetFailsafe_mask_eq hwf hf hkind, if_pos hacc]
      rfl
  | noFailsafe h hb =>
      rcases h with h | h
      · rw [dispatch_getFailsafe h, hb, if_pos rfl]
        rfl
      · rw [dispatch_setFailsafe h, hb, if_pos rfl]
        rfl
  | unknown h => exact dispatch_default h

/-- A request is treated if and only if it is accepted. -/
theorem dispatch_isSome_iff (hd : d.Ready b) : (dispatch b d p).isSome ↔ Accepts b d p := by
  have hwf := hd.wellFormed
  rcases command_cases p with h | h | h | h | h | h | h | h | h | h
  · simp only [dispatch_getCaps h, replyGetCaps_eq hwf, Accepts, h, Option.isSome_some, true_iff]
    trivial
  · simp only [dispatch_reset h, Accepts, h, Option.isSome_some, true_iff]
    trivial
  · simp only [dispatch_ping h, replyPing_eq, Accepts, h, Option.isSome_some, true_iff]
    trivial
  · -- the guards are those of the handlers
    rw [dispatch_read h, Accepts, h]
    show _ ↔ AcceptsRead d.conn p
    cases hkind : usesMask p with
    | false => simp [AcceptsRead, replyRead_pin_eq hwf hkind, hkind]
    | true => simp [AcceptsRead, replyRead_mask_eq hwf hkind, hkind]
  · rw [dispatch_write h, Accepts, h, Option.isSome_map]
    show _ ↔ AcceptsWrite d.conn p
    cases hkind : usesMask p with
    | false => simp [AcceptsWrite, treatWrite_pin_eq hwf hkind, hkind]
    | true => simp [AcceptsWrite, treatWrite_mask_eq hwf hkind, hkind]
  · rw [dispatch_getType h, Accepts, h]
    show _ ↔ AcceptsGetType d.conn p
    cases hkind : usesMask p with
    | false => simp [AcceptsGetType, replyGetType_pin_eq hwf hkind, hkind]
    | true => simp [AcceptsGetType, replyGetType_mask_eq hwf hkind, hkind]
  · rw [dispatch_setType h, Accepts, h, Option.isSome_map]
    show _ ↔ AcceptsSetType d.conn p
    cases hkind : usesMask p with
    | false => simp [AcceptsSetType, treatSetType_pin_eq hwf hkind, hkind]
    | true => simp [AcceptsSetType, treatSetType_mask_eq hwf hkind, hkind]
  · rw [dispatch_getFailsafe h, Accepts, h]
    show _ ↔ b.disableFailsafe = true ∨ AcceptsGetFailsafe d.conn p
    cases hb : b.disableFailsafe with
    | true => simp
    | false =>
        obtain ⟨f, hf⟩ := hd.failsafe hb
        cases hkind : usesMask p with
        | false => simp [AcceptsGetFailsafe, replyGetFailsafe_pin_eq hwf hf hkind, hkind]
        | true =>
            simp [AcceptsGetFailsafe, replyGetFailsafe_mask_eq hwf hf hkind, hkind, failsafeBits,
              hf, Failsafe.entriesAt]
  · rw [dispatch_setFailsafe h, Accepts, h]
    show _ ↔ b.disableFailsafe = true ∨ AcceptsSetFailsafe d.conn p
    cases hb : b.disableFailsafe with
    | true => simp
    | false =>
        obtain ⟨f, hf⟩ := hd.failsafe hb
        cases hkind : usesMask p with
        | false => simp [AcceptsSetFailsafe, replySetFailsafe_pin_eq hwf hf hkind, hkind]
        | true => simp [AcceptsSetFailsafe, replySetFailsafe_mask_eq hwf hf hkind, hkind]
  · -- the default case of the switch
    obtain ⟨m, hm⟩ : ∃ m, p.command.toNat = m + 9 := ⟨p.command.toNat - 9, by omega⟩
    simp only [dispatch_default h, Accepts, hm, Option.isSome_some]

end Served

end PinProtocol
