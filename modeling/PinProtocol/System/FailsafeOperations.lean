import PinProtocol.Firmware.Acceptance
import PinProtocol.System.MaskOperations

/-!
# FailsafeOperations — the failsafe operations on one pin, over the device

`set_failsafe` counts the pin number as one bit when it sizes its request; the types with a whole
number of bytes still get a byte for it, a digital pin does not.  The reply to `get_failsafe` has
the value behind a tag of three bits, where 16 bits span three bytes.
-/

namespace PinProtocol

open Bits Control

/-! ## Requests -/

/-- Timeout, pin number and value, as they lie in a request. -/
def failsafeBitsOf (timeout : BitVec 16) (pinNo : BitVec 8) (width : Nat) (val : BitVec 16)
    (j : Nat) : Bool :=
  (fieldBits 0 timeout 16 j || fieldBits 16 (pinNo.setWidth 16) 8 j) || fieldBits 24 val width j

/-- The data of a request for one pin whose value has `width` bits. -/
def pinFailsafeData (timeout : BitVec 16) (pinNo : BitVec 8) (width : Nat) (val : BitVec 16) :
    Buffer :=
  orBits (zeros (3 + width / 8)) (failsafeBitsOf timeout pinNo width val)

@[simp] theorem length_pinFailsafeData (timeout : BitVec 16) (pinNo : BitVec 8) (width : Nat)
    (val : BitVec 16) : (pinFailsafeData timeout pinNo width val).length = 3 + width / 8 := by
  simp [pinFailsafeData]

/-- The size that the driver declares, in bytes. -/
theorem bits2bytesUnsigned_pinFailsafe {width : Nat} (hwidth : width ≤ 16) :
    bits2bytesUnsigned (16 + pinsNoBytesNb + width) = 3 + width / 8 := by
  have hsize := bits2bytesUnsigned_eq (show 0 < 16 + 1 + width by omega)
    (show 16 + 1 + width ≤ 2 ^ 32 by omega)
  rw [pinsNoBytesNb, hsize]
  omega

section Request

variable (pinNo : BitVec 8) (timeout : BitVec 16) (fs : PinFailsafe)

/-- Timeout and pin number fit whatever the type; the value needs its bits behind them. -/
theorem setFailsafeRequest_eq :
    setFailsafeRequest pinNo timeout fs =
      if 24 + max (getTypeBitsNb fs.pinState) 1 ≤ 8 * (3 + getTypeBitsNb fs.pinState / 8) then
        some (setPacketHeader cmdSetFailsafe (typeParam fs.pinState usePinId)
          (3 + getTypeBitsNb fs.pinState / 8)
          (pinFailsafeData timeout pinNo (getTypeBitsNb fs.pinState) fs.pinValue))
      else none := by
  have hwidth := getTypeBitsNb_le fs.pinState
  obtain ⟨width, hw⟩ : ∃ width, getTypeBitsNb fs.pinState = width := ⟨_, rfl⟩
  rw [hw] at hwidth
  have htimeout := writeBitValue_eq (zeros (3 + width / 8)) timeout (show 0 < 2 ^ 16 by decide)
    (Nat.le_refl 16)
  rw [if_pos (by rw [length_zeros]; omega)] at htimeout
  have hpin := writeBitValue_eq (orBits (zeros (3 + width / 8)) (fieldBits 0 timeout 16))
    (pinNo.setWidth 16) (show 16 < 2 ^ 16 by decide) (show 8 ≤ 16 by decide)
  rw [if_pos (by rw [length_orBits, length_zeros]; omega), orBits_orBits] at hpin
  have hvalue := writeBitValue_eq
    (orBits (zeros (3 + width / 8)) fun j =>
      fieldBits 0 timeout 16 j || fieldBits 16 (pinNo.setWidth 16) 8 j)
    fs.pinValue (show 24 < 2 ^ 16 by decide) hwidth
  rw [length_orBits, length_zeros, orBits_orBits] at hvalue
  simp only [setFailsafeRequest, hw, bits2bytesUnsigned_pinFailsafe hwidth,
    initPacket_malloc (show 3 + width / 8 < 2 ^ 16 by omega), timeoutBitsNb, pinsNoBitsNb,
    Nat.reduceAdd, htimeout, hpin, hvalue, Option.bind_eq_bind, Option.bind_some]
  split <;> rfl

/-- The value of a digital pin starts behind the last byte of its request. -/
theorem setFailsafeRequest_digital {fs : PinFailsafe} (h : fs.pinState = pinTypeDigital) :
    setFailsafeRequest pinNo timeout fs = none := by
  rw [setFailsafeRequest_eq, getTypeBitsNb_digital h]
  rfl

end Request

/-! ## Requests as the device reads them -/

/-- A field whose bits are those of a value. -/
theorem fieldAt_of_bits {f : Nat → Bool} {offset width : Nat} {v : BitVec 16}
    (hspan : offset % 8 + width ≤ 16)
    (h : ∀ i < width, f (offset + i) = v.toNat.testBit (width - 1 - i)) :
    fieldAt f offset width 0 = BitVec.ofNat 16 (v.toNat % 2 ^ width) := by
  rw [fieldAt, Nat.mul_zero, Nat.add_zero, fieldRead_eq_mod hspan h]

/-- A value that has no more bits than its field is itself. -/
theorem ofNat_mod_eq {v : BitVec 16} {width : Nat} (h : v.toNat < 2 ^ width) :
    BitVec.ofNat 16 (v.toNat % 2 ^ width) = v := by
  rw [Nat.mod_eq_of_lt h]
  simp

/-- A byte of a buffer whose bits are those of a value. -/
theorem getD_of_bits {buf : Buffer} {k : Nat} {v : BitVec 8}
    (h : ∀ i < 8, bitAt buf (8 * k + i) = v.toNat.testBit (8 - 1 - i)) : buf.getD k 0#8 = v := by
  refine BitVec.eq_of_toNat_eq ?_
  rw [← window_bitAt_byte, window_eq_mod h]
  exact Nat.mod_eq_of_lt v.isLt

section Data

variable (timeout : BitVec 16) (pinNo : BitVec 8) {width : Nat} (val : BitVec 16)

theorem bitAt_pinFailsafeData {j : Nat} (hj : j < 8 * (3 + width / 8)) :
    bitAt (pinFailsafeData timeout pinNo width val) j =
      failsafeBitsOf timeout pinNo width val j := by
  rw [pinFailsafeData, bitAt_orBits, bitAt_zeros, length_zeros, decide_eq_true hj]
  simp

theorem timeout_pinFailsafeData :
    fieldAt (bitAt (pinFailsafeData timeout pinNo width val)) 0 16 0 = timeout := by
  rw [fieldAt_of_bits (v := timeout) (by decide) fun i hi => ?_, ofNat_mod_eq timeout.isLt]
  have hpin : fieldBits 16 (pinNo.setWidth 16) 8 (0 + i) = false := fieldBits_before _ (by omega)
  have hval : fieldBits 24 val width (0 + i) = false := fieldBits_before _ (by omega)
  rw [bitAt_pinFailsafeData timeout pinNo val (by omega), failsafeBitsOf, hpin, hval,
    Bool.or_false, Bool.or_false, fieldBits_inside timeout hi (Nat.le_refl 16)]

theorem pin_pinFailsafeData :
    (pinFailsafeData timeout pinNo width val).getD 2 0#8 = pinNo := by
  refine getD_of_bits fun i hi => ?_
  have htimeout : fieldBits 0 timeout 16 (16 + i) = false := fieldBits_after _ (by omega)
  have hval : fieldBits 24 val width (16 + i) = false := fieldBits_before _ (by omega)
  rw [bitAt_pinFailsafeData timeout pinNo val (by omega), failsafeBitsOf, htimeout, hval,
    Bool.or_false, Bool.false_or, fieldBits_inside _ hi (by decide), BitVec.toNat_setWidth,
    Nat.mod_eq_of_lt (by omega)]

theorem value_pinFailsafeData (hwidth : width = 8 ∨ width = 16) (hval : val.toNat < 2 ^ width) :
    fieldAt (bitAt (pinFailsafeData timeout pinNo width val)) 24 width 0 = val := by
  rw [fieldAt_of_bits (v := val) (by omega) fun i hi => ?_, ofNat_mod_eq hval]
  have htimeout : fieldBits 0 timeout 16 (24 + i) = false := fieldBits_after _ (by omega)
  have hpin : fieldBits 16 (pinNo.setWidth 16) 8 (24 + i) = false := fieldBits_after _ (by omega)
  rw [bitAt_pinFailsafeData timeout pinNo val (by omega), failsafeBitsOf, htimeout, hpin,
    Bool.or_false, Bool.false_or, fieldBits_inside val hi (by omega)]

end Data

/-! ## Replies as the driver reads them -/

section Reply

variable (id : BitVec 8) (timeout : BitVec 16) {size : Nat} (f : Nat → Bool)

theorem toNat_size_failsafeReply (hsize : size < 2 ^ 8) :
    (failsafeReply id timeout size f).size.toNat = size :=
  toNat_ofNat_size (by omega)

theorem length_data_failsafeReply : (failsafeReply id timeout size f).data.length = size := by
  simp [failsafeReply, setPacketHeader]

theorem failsafeReply_fits (hsize : size < 2 ^ 8) :
    (failsafeReply id timeout size f).FitsBuild hostBuild := by
  refine ⟨?_, ?_⟩
  · rw [toNat_size_failsafeReply id timeout f hsize, length_data_failsafeReply]
  · rw [toNat_size_failsafeReply id timeout f hsize]
    show _ ≤ 612
    omega

theorem data_failsafeReply (hsize : size < 2 ^ 8) :
    (delivered (failsafeReply id timeout size f)).data =
      orBits ((orBits (zeros size) f).set 0 id) (fieldBits 8 timeout 16) := by
  rw [data_delivered, toNat_size_failsafeReply id timeout f hsize]
  exact List.take_of_length_le (by simp [failsafeReply, setPacketHeader])

/-- Behind id and timeout, the data holds the entries. -/
theorem bitAt_failsafeReply (hsize : size < 2 ^ 8) {j : Nat} (hj : 24 ≤ j) :
    bitAt (delivered (failsafeReply id timeout size f)).data j =
      (decide (j < 8 * size) && f j) := by
  have hbyte : j / 8 ≠ 0 := by omega
  rw [data_failsafeReply id timeout f hsize, bitAt_orBits, bitAt_set _ hbyte, bitAt_orBits,
    bitAt_zeros, fieldBits_after timeout (by omega), Bool.and_false, Bool.or_false, length_zeros,
    Bool.false_or]

/-- The driver finds the timeout behind the id, if no entry reaches back into it. -/
theorem timeout_failsafeReply (hsize : size < 2 ^ 8) (hroom : 3 ≤ size)
    (hf : ∀ j, 8 ≤ j → j < 24 → f j = false) :
    readBitValue (delivered (failsafeReply id timeout size f)).data 8 16 = some timeout := by
  have hread : readBitValue (delivered (failsafeReply id timeout size f)).data 8 16 = _ :=
    readBitValue_eq (show 8 < 2 ^ 16 by decide) (Nat.le_refl 16)
  have hfit : 8 + max 16 1 ≤ 8 * (delivered (failsafeReply id timeout size f)).data.length := by
    rw [data_failsafeReply id timeout f hsize]
    simp
    omega
  have hbits : ∀ i < 16, bitAt (delivered (failsafeReply id timeout size f)).data (8 + i) =
      timeout.toNat.testBit (16 - 1 - i) := by
    intro i hi
    have hbyte : (8 + i) / 8 ≠ 0 := by omega
    have hin : 8 + i < 8 * ((orBits (zeros size) f).set 0 id).length := by
      simp
      omega
    rw [data_failsafeReply id timeout f hsize, bitAt_orBits, bitAt_set _ hbyte, bitAt_orBits,
      bitAt_zeros, hf (8 + i) (by omega) (by omega), Bool.and_false, Bool.or_false,
      decide_eq_true hin, fieldBits_inside timeout hi (Nat.le_refl 16)]
    simp
  rw [if_pos hfit, fieldRead_eq_mod (by decide) hbits] at hread
  rw [hread, ofNat_mod_eq timeout.isLt]

end Reply

/-! ## The operations -/

section Tables

variable {f : Failsafe} {pin : Nat} (timeout : BitVec 16) (fs : PinFailsafe)

theorem entryAt_modify (h : pin < f.pinsFailsafe.length) :
    ({ timeout, pinsFailsafe := f.pinsFailsafe.modify pin fun _ => fs } : Failsafe).entryAt pin =
      fs := by
  simp [Failsafe.entryAt, List.getD_eq_getElem?_getD, h]

theorem entryAt_modify_of_ne {other : Nat} (h : other ≠ pin) :
    ({ timeout, pinsFailsafe := f.pinsFailsafe.modify pin fun _ => fs } : Failsafe).entryAt other =
      f.entryAt other := by
  simp [Failsafe.entryAt, List.getD_eq_getElem?_getD, Ne.symm h]

end Tables

section Operations

variable {b : Build} {c : Connection} {d : Device} {f own : Failsafe} {pin : BitVec 8}

/-- The entry of a pin, and the timeout with it, are replaced on both sides. -/
theorem setFailsafe_device (hb : b.disableFailsafe = false) (hwf : d.conn.WellFormed)
    (hf : d.conn.failsafe = some f) (hpin : pin.toNat < d.conn.nbPins)
    (hown : c.failsafe = some own) (hlen : pin.toNat < own.pinsFailsafe.length)
    (timeout : BitVec 16) {fs : PinFailsafe} (hstate : fs.pinState.toNat < 8)
    (hwidth : getTypeBitsNb fs.pinState = 8 ∨ getTypeBitsNb fs.pinState = 16)
    (hvalue : fs.pinValue.toNat < 2 ^ getTypeBitsNb fs.pinState) :
    setFailsafe (deviceLink b) c d pin timeout fs =
      some
        { ret := 1
          out := ()
          conn :=
            { c with
              failsafe := some
                { timeout, pinsFailsafe := own.pinsFailsafe.modify pin.toNat fun _ => fs } }
          world := d.putFailsafe timeout (f.pinsFailsafe.modify pin.toNat fun _ => fs) } := by
  obtain ⟨width, hw⟩ : ∃ width, getTypeBitsNb fs.pinState = width := ⟨_, rfl⟩
  rw [hw] at hwidth hvalue
  have hrequest := setFailsafeRequest_eq pin timeout fs
  rw [hw, if_pos (by omega)] at hrequest
  have hdecode := header_decode cmdSetFailsafe fs.pinState usePinId (by decide) hstate (by decide)
  have hkind := usesMask_pinRequest cmdSetFailsafe fs.pinState (3 + width / 8)
    (pinFailsafeData timeout pin width fs.pinValue)
  have hdata := data_request cmdSetFailsafe (typeParam fs.pinState usePinId)
    (length_pinFailsafeData timeout pin width fs.pinValue).symm (by omega)
  obtain ⟨p, hp⟩ : ∃ p, delivered (setPacketHeader cmdSetFailsafe
      (typeParam fs.pinState usePinId) (3 + width / 8)
      (pinFailsafeData timeout pin width fs.pinValue)) = p := ⟨_, rfl⟩
  rw [hp] at hkind hdata
  -- what the header and the data say to the device
  have hcmd : p.header >>> 4 = cmdSetFailsafe := by
    rw [← hp]
    exact hdecode.1
  have htype : p.type = fs.pinState := by
    rw [← hp]
    exact hdecode.2.1
  have hpwidth : p.width = width := by
    rw [Packet.width, htype, hw]
  have hplen : p.data.length = 3 + width / 8 := by rw [hdata, length_pinFailsafeData]
  have hppin : p.pin 2 = pin.toNat := by
    rw [Packet.pin, hdata, pin_pinFailsafeData]
  have hnames : NamesPin d.conn p 2 := ⟨by omega, by rw [hppin]; exact hpin⟩
  have hserve := replySetFailsafe_pin_eq (p := p) hwf hf hkind
  rw [if_pos ⟨hnames, by omega⟩, hpwidth, htype, hppin, hdata, timeout_pinFailsafeData,
    value_pinFailsafeData timeout pin fs.pinValue hwidth hvalue] at hserve
  have hdispatch :=
    calc dispatch b d p
        = if b.disableFailsafe then some (d, []) else replySetFailsafe d p :=
          dispatch_setFailsafe hcmd
      _ = replySetFailsafe d p := if_neg (by rw [hb]; decide)
      _ = _ := hserve
  rw [← hp] at hdispatch
  have hfits : (setPacketHeader cmdSetFailsafe (typeParam fs.pinState usePinId) (3 + width / 8)
      (pinFailsafeData timeout pin width fs.pinValue)).FitsBuild b :=
    setPacketHeader_fits _ _ (length_pinFailsafeData timeout pin width fs.pinValue).symm
      (by have := le_buffSize b; omega)
  rw [setFailsafe, operation_device hrequest hfits hdispatch (idReply_fits cmdSetType d.nextId)
    (idReply_pos cmdSetType d.nextId)]
  simp only [setFailsafeApply, hown, update_eq hlen, Option.bind_eq_bind, Option.bind_some,
    Option.pure_def, Option.map_some]

/-- The data of the reply to `get_failsafe`, for a pin with the entry `e`. -/
def entryReplyData (d : Device) (f : Failsafe) (e : PinFailsafe) : Buffer :=
  (delivered (failsafeReply d.nextId f.timeout (3 + bits2bytes (3 + getTypeBitsNb e.pinState))
    (slotPattern 24 e))).data

/-- `get_failsafe` takes from a reply what one turn of `read_failsafe` would read. -/
theorem getFailsafeApply_eq (c : Connection) (reply : Packet) :
    getFailsafeApply c reply =
      (readFailsafeEntry reply.data 24).map fun r => (1, r.1, c) := by
  simp only [getFailsafeApply, readFailsafeEntry, replyIdBitsNb, timeoutBitsNb, pinTypeBitsNb,
    Nat.reduceAdd, Option.bind_eq_bind, Option.pure_def]
  cases readBitValue reply.data 24 3 with
  | none => rfl
  | some type =>
      rw [Option.bind_some, Option.bind_some]
      cases readBitValue reply.data 27 (getTypeBitsNb (type.setWidth 8)) <;> rfl

theorem getFailsafe_device (hb : b.disableFailsafe = false) (hwf : d.conn.WellFormed)
    (hf : d.conn.failsafe = some f) (hpin : pin.toNat < d.conn.nbPins) :
    getFailsafe (deviceLink b) c d pin =
      (readFailsafeEntry (entryReplyData d f (f.entryAt pin.toNat)) 24).map fun r =>
        { ret := 1, out := r.1, conn := c, world := d.next } := by
  have hcmd : (delivered (setPacketHeader cmdGetFailsafe usePinId 1 [pin])).header >>> 4 =
      cmdGetFailsafe := headerCmd_plain cmdGetFailsafe usePinId (by decide) (by decide)
  have hkind := usesMask_pinRequest cmdGetFailsafe 0#8 1 [pin]
  rw [typeParam_zero] at hkind
  have hwidth := getTypeBitsNb_le (f.entryAt pin.toNat).pinState
  obtain ⟨size, hsize⟩ :
      ∃ size, 3 + bits2bytes (3 + getTypeBitsNb (f.entryAt pin.toNat).pinState) = size := ⟨_, rfl⟩
  have hvalue : size = 3 + ((2 + getTypeBitsNb (f.entryAt pin.toNat).pinState) / 8 + 1) := by
    rw [← hsize, bits2bytes_eq]
    omega
  have hserve : dispatch b d (delivered (setPacketHeader cmdGetFailsafe usePinId 1 [pin])) =
      some (d.next, [frameOf (delivered (failsafeReply d.nextId f.timeout size
        (slotPattern 24 (f.entryAt pin.toNat))))]) := by
    rw [dispatch_getFailsafe hcmd, if_neg (by rw [hb]; decide),
      replyGetFailsafe_pin hf hkind (show _ = some pin from rfl)
        (by rw [hwf.failsafe f hf]; exact hpin), hsize]
  have hrequest : getFailsafeRequest pin = some (setPacketHeader cmdGetFailsafe usePinId 1 [pin]) :=
    pinRequest_eq cmdGetFailsafe usePinId pin
  have hfits : (setPacketHeader cmdGetFailsafe usePinId 1 [pin]).FitsBuild b :=
    FitsBuild_of_le_three b _ _ (by decide) rfl
  rw [getFailsafe, operation_device hrequest hfits hserve
    (failsafeReply_fits d.nextId f.timeout _ (by omega))
    (by rw [toNat_size_failsafeReply d.nextId f.timeout _ (by omega)]; omega)]
  -- what is left of the driver is to read the entry back
  rw [getFailsafeApply_eq, entryReplyData, hsize, Option.map_map]
  rfl

end Operations

/-! ## One turn of the reader -/

/-- In a buffer that is long enough, the reader finds the entry of the stream. -/
theorem readFailsafeEntry_eq_iff {buffer : Buffer} {a : Nat} {e : PinFailsafe} (he : e.Valid)
    (hon : e.pinState ≠ pinTypeDisabled) (hfit : a + slotLength e ≤ 8 * buffer.length) :
    (∃ a', readFailsafeEntry buffer a = some (e, a')) ↔ EntryRead (bitAt buffer) a e := by
  have hone : readEntries buffer 1 a = (readFailsafeEntry buffer a).map fun r => ([r.1], r.2) := by
    rw [readEntries]
    cases readFailsafeEntry buffer a <;> rfl
  constructor
  · rintro ⟨a', hread⟩
    rw [hread, Option.map_some] at hone
    have hreads : ReadsAs (bitAt buffer) a [e] := readsAs_of_readEntries hone
    exact hreads.1
  · intro hread
    have hreads : ReadsAs (bitAt buffer) a [e] := ⟨hread, trivial⟩
    have hpos : ∀ x ∈ [e], 0 < getTypeBitsNb x.pinState := by
      simpa using he.width_pos hon
    have hall := readEntries_of_readsAs (by simpa using hfit) (Or.inl hpos) hreads
    rw [List.length_singleton, hone, Option.map_eq_some_iff] at hall
    rcases hall with ⟨⟨x, a'⟩, hx, heq⟩
    simp only [Prod.mk.injEq, List.cons.injEq, and_true] at heq
    rw [← heq.1]
    exact ⟨a', hx⟩

/-- The entry of a pin arrives exactly when it is readable behind id and timeout. -/
theorem readEntry_reply_iff (d : Device) (f : Failsafe) {e : PinFailsafe} (he : e.Valid)
    (hon : e.pinState ≠ pinTypeDisabled) :
    (∃ a', readFailsafeEntry (entryReplyData d f e) 24 = some (e, a')) ↔ EntryReadable 24 e := by
  have hwidth := getTypeBitsNb_le e.pinState
  have hslot : slotLength e = 3 + getTypeBitsNb e.pinState := rfl
  obtain ⟨size, hsize⟩ : ∃ size, 3 + bits2bytes (3 + getTypeBitsNb e.pinState) = size := ⟨_, rfl⟩
  have hvalue : size = 3 + ((2 + getTypeBitsNb e.pinState) / 8 + 1) := by
    rw [← hsize, bits2bytes_eq]
    omega
  have hlen : (entryReplyData d f e).length = size := by
    rw [entryReplyData, hsize, data_failsafeReply _ _ _ (by omega)]
    simp
  rw [readFailsafeEntry_eq_iff he hon (by rw [hlen]; omega)]
  refine entryRead_iff (by decide) (Nat.le_refl 24) (by decide) he.inRange hon
    fun a i ha ha' hi hlo hhi => ?_
  have hword : a % 2 ^ 16 = a := Nat.mod_eq_of_lt (by omega)
  have hpattern : entryPattern 24 e (a + i) = slotPattern 24 e (a + i) := if_neg hon
  rw [hword, hpattern, entryReplyData, hsize, bitAt_failsafeReply _ _ _ (by omega) (by omega),
    decide_eq_true (by omega), Bool.true_and]

/-! ## Setting a failsafe, and asking for it -/

/-- `set_failsafe` followed by `get_failsafe` on the same pin: the request has room for its bits,
the device stores timeout and entry and nothing else, and the entry comes back. -/
structure FailsafeSetAndGet (b : Build) (c : Connection) (d : Device) (pin : BitVec 8)
    (timeout : BitVec 16) (fs : PinFailsafe) : Prop where
  size : ∃ p, setFailsafeRequest pin timeout fs = some p ∧
    24 + getTypeBitsNb fs.pinState ≤ 8 * p.size.toNat
  stored : ∃ r f f', setFailsafe (deviceLink b) c d pin timeout fs = some r ∧
    d.conn.failsafe = some f ∧ r.world.conn.failsafe = some f' ∧
    f'.timeout = timeout ∧ f'.entryAt pin.toNat = fs ∧
    (∀ other, other ≠ pin.toNat → f'.entryAt other = f.entryAt other)
  returned : ∃ r s, setFailsafe (deviceLink b) c d pin timeout fs = some r ∧
    getFailsafe (deviceLink b) r.conn r.world pin = some s ∧ s.out = fs

section SetAndGet

variable {b : Build} {c : Connection} {d : Device} {own : Failsafe} {pin : BitVec 8}
  {fs : PinFailsafe}

/-- A failsafe entry that is sent to any device with a failsafe table is stored there and comes
back, exactly when it is not that of a digital pin, and a value of 16 bits is below `2 ^ 11`. -/
theorem failsafe_setAndGet_iff (hb : b.disableFailsafe = false) (hd : d.Ready b)
    (hpin : pin.toNat < d.conn.nbPins) (hown : c.failsafe = some own)
    (hlen : pin.toNat < own.pinsFailsafe.length) (timeout : BitVec 16)
    (hstate : fs.pinState.toNat ≤ 4)
    (hvalue : fs.pinValue.toNat < 2 ^ getTypeBitsNb fs.pinState) :
    FailsafeSetAndGet b c d pin timeout fs ↔
      fs.pinState ≠ pinTypeDigital ∧
        (getTypeBitsNb fs.pinState = 16 → fs.pinValue.toNat < 2 ^ 11) := by
  obtain ⟨f, hf⟩ := hd.failsafe hb
  have hvalid : fs.Valid := ⟨Or.inl hstate, hvalue⟩
  have hon : fs.pinState ≠ pinTypeDisabled := by
    intro h
    rw [h] at hstate
    revert hstate
    decide
  by_cases hdigital : fs.pinState = pinTypeDigital
  · -- the driver writes behind its own request
    refine iff_of_false (fun h => ?_) fun h => h.1 hdigital
    obtain ⟨p, hp, _⟩ := h.size
    rw [setFailsafeRequest_digital pin timeout hdigital] at hp
    cases hp
  · have hwidth := getTypeBitsNb_of_not_digital hstate hdigital
    have hset := setFailsafe_device hb hd.wellFormed hf hpin hown hlen timeout
      (Nat.lt_of_le_of_lt hstate (by decide)) hwidth hvalue
    have htable : pin.toNat < f.pinsFailsafe.length := by
      rw [hd.wellFormed.failsafe f hf]
      exact hpin
    obtain ⟨f', hf'⟩ : ∃ f' : Failsafe, f' =
        { timeout, pinsFailsafe := f.pinsFailsafe.modify pin.toNat fun _ => fs } := ⟨_, rfl⟩
    have hentry : f'.entryAt pin.toNat = fs := by
      rw [hf']
      exact entryAt_modify timeout fs htable
    have hwf :
        (d.putFailsafe timeout (f.pinsFailsafe.modify pin.toNat fun _ => fs)).conn.WellFormed :=
      ⟨hd.wellFormed.pinsState, hd.wellFormed.pinsMaskType, fun g hg => by
        cases hg
        exact (List.length_modify ..).trans (hd.wellFormed.failsafe f hf)⟩
    have hget := fun c' => getFailsafe_device (c := c') (f := f') hb hwf (by rw [hf']; rfl) hpin
    rw [hentry] at hget
    have hback := readEntry_reply_iff
      (d.putFailsafe timeout (f.pinsFailsafe.modify pin.toNat fun _ => fs)) f' hvalid hon
    -- the value starts at bit 27, three bits behind the start of a byte
    have hreadable : EntryReadable 24 fs ↔
        (getTypeBitsNb fs.pinState = 16 → fs.pinValue.toNat < 2 ^ 11) := by
      simp only [EntryReadable, pinTypeBitsNb, ne_eq, hon, not_false_eq_true, true_and]
      exact imp_congr_right fun _ => by simp
    refine Iff.trans ⟨fun h => ?_, fun h => ?_⟩
      (hreadable.trans ⟨fun h => ⟨hdigital, h⟩, fun h => h.2⟩)
    · obtain ⟨r, s, hr, hs, hout⟩ := h.returned
      rw [hset] at hr
      cases hr
      rw [hget, Option.map_eq_some_iff] at hs
      rcases hs with ⟨⟨e, a'⟩, hread, rfl⟩
      exact hback.mp ⟨a', hout ▸ hread⟩
    · obtain ⟨a', hread⟩ := hback.mpr h
      refine ⟨⟨_, (setFailsafeRequest_eq pin timeout fs).trans (if_pos (by omega)), ?_⟩,
        ⟨_, f, f', hset, hf, by rw [hf']; rfl, by rw [hf'], hentry, fun other hother => ?_⟩,
        ⟨_, _, hset, (hget _).trans (congrArg (Option.map _) hread), rfl⟩⟩
      · have hsize : (BitVec.ofNat 16 (3 + getTypeBitsNb fs.pinState / 8)).toNat =
            3 + getTypeBitsNb fs.pinState / 8 := toNat_ofNat_size (by omega)
        show _ ≤ 8 * (BitVec.ofNat 16 (3 + getTypeBitsNb fs.pinState / 8)).toNat
        rw [hsize]
        omega
      · rw [hf']
        exact entryAt_modify_of_ne timeout fs hother

/-- Pin 5 falls back to a PWM value of 200 after 500 ms. -/
theorem failsafe_setAndGet_pwm8 :
    let d := initialDevice hostBuild firmwareNbPins
    FailsafeSetAndGet hostBuild d.conn d 5#8 500#16 ⟨pinTypePwm8, 200#16⟩ := by
  intro d
  obtain ⟨own, hown, hlen⟩ : ∃ own, d.conn.failsafe = some own ∧ own.pinsFailsafe.length = 16 :=
    ⟨_, rfl, by decide⟩
  have hd : d.Ready hostBuild := ⟨initialDevice_wellFormed _ _, fun _ => ⟨own, hown⟩⟩
  exact (failsafe_setAndGet_iff rfl hd (by decide) hown (by rw [hlen]; decide) 500#16 (by decide)
    (by decide)).mpr ⟨by decide, by decide⟩

/-- A digital pin cannot be given a failsafe value. -/
theorem not_failsafe_setAndGet_digital :
    let d := initialDevice hostBuild firmwareNbPins
    ¬ FailsafeSetAndGet hostBuild d.conn d 5#8 500#16 ⟨pinTypeDigital, 1#16⟩ := by
  intro d h
  obtain ⟨p, hp, _⟩ := h.size
  rw [setFailsafeRequest_digital _ _ rfl] at hp
  cases hp

end SetAndGet

end PinProtocol
