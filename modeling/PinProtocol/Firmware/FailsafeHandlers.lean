import PinProtocol.Firmware.Handlers
import PinProtocol.Firmware.Init

/-!
# FailsafeHandlers — what the failsafe handlers of the device compute

The equations of `reply_get_failsafe` and `reply_set_failsafe`, for tables with one entry per pin.
The size of a masked reply goes through a `uint8_t`: past `2016` bits it wraps, and the entries no
longer fit the buffer that has been allocated for them.
-/

namespace PinProtocol

open Bits Control

/-! ## Bytes of a request -/

theorem readByteAt_eq (data : Buffer) {k : Nat} (hk : k < 2 ^ 12) :
    readBitValue data (8 * k) 8 = (data[k]?).map fun b => b.setWidth 16 := by
  have hword : 8 * k < 2 ^ 16 := by omega
  have hwin := window_bitAt_byte data k
  have hspan : 8 * k % 8 + 8 ≤ 16 := by omega
  rw [readBitValue_eq hword (by decide)]
  by_cases hlt : k < data.length
  · have hfit : 8 * k + max 8 1 ≤ 8 * data.length := by omega
    have hget : data.getD k 0#8 = data[k] := by simp [hlt]
    rw [if_pos hfit, fieldRead, if_pos hspan, hwin, hget, List.getElem?_eq_getElem hlt,
      Option.map_some, setWidth_eq_ofNat]
  · have hfit : ¬ 8 * k + max 8 1 ≤ 8 * data.length := by omega
    rw [if_neg hfit, List.getElem?_eq_none (by omega)]
    rfl

/-! ## `reply_get_failsafe` -/

/-- A failsafe reply: id, timeout, and the entries that `f` stands for. -/
def failsafeReply (id : BitVec 8) (timeout : BitVec 16) (size : Nat) (f : Nat → Bool) : Packet :=
  setPacketHeader cmdSetType repCodeSuccess size
    (orBits ((orBits (zeros size) f).set 0 id) (fieldBits 8 timeout 16))

/-- The bits of one entry, disabled or not. -/
def slotPattern (a : Nat) (e : PinFailsafe) (j : Nat) : Bool :=
  fieldBits a (e.pinState.setWidth 16) pinTypeBitsNb j ||
    fieldBits (a + pinTypeBitsNb) e.pinValue (getTypeBitsNb e.pinState) j

/-- The common end of the handler. -/
theorem sendFailsafe_eq (d : Device) (timeout : BitVec 16) {size : Nat} (hsize : 3 ≤ size)
    (hbyte : size < 2 ^ 8) (f : Nat → Bool) :
    ((store (orBits (zeros size) f) 0 d.nextId).bind fun data =>
      (writeBitValue data replyIdBitsNb timeout timeoutBitsNb).bind fun data =>
        (sendPacket (setPacketHeader cmdSetType repCodeSuccess size data)).bind fun frame =>
          some ({ d with nextId := (getReplyId d.nextId).2 }, [frame])) =
      some (d.next, [frameOf (delivered (failsafeReply d.nextId timeout size f))]) := by
  have hlen : 0 < (orBits (zeros size) f).length := by simp; omega
  have hwrite := writeBitValue_eq ((orBits (zeros size) f).set 0 d.nextId) timeout
    (show 8 < 2 ^ 16 by decide) (show 16 ≤ 16 by decide)
  rw [if_pos (by simp; omega)] at hwrite
  have hmod : (BitVec.ofNat 16 size).toNat = size := by
    simp
    omega
  have hsend := sendPacket_eq (p := failsafeReply d.nextId timeout size f)
    (by simp [failsafeReply, setPacketHeader, hmod])
    (by simp only [failsafeReply, setPacketHeader, hmod]; omega)
  rw [failsafeReply] at hsend
  simp only [store_eq hlen, Option.bind_some, replyIdBitsNb, timeoutBitsNb, hwrite, hsend]
  rfl

section GetFailsafe

variable {d : Device} {f : Failsafe} {p : Packet}

theorem replyGetFailsafe_pin {pin : Byte} (hf : d.conn.failsafe = some f)
    (hkind : usesMask p = false) (hdata : p.data[0]? = some pin)
    (hpin : pin.toNat < f.pinsFailsafe.length) :
    replyGetFailsafe d p =
      some (d.next, [frameOf (delivered (failsafeReply d.nextId f.timeout
        (3 + bits2bytes (3 + getTypeBitsNb (f.entryAt pin.toNat).pinState))
        (slotPattern 24 (f.entryAt pin.toNat))))]) := by
  obtain ⟨e, he⟩ : ∃ e, f.entryAt pin.toNat = e := ⟨_, rfl⟩
  have hwidth := getTypeBitsNb_le e.pinState
  have hread := readByteAt_eq p.data (show 0 < 2 ^ 12 by decide)
  rw [hdata, Option.map_some, Nat.mul_zero] at hread
  obtain ⟨size, hsize⟩ : ∃ size, 3 + bits2bytes (3 + getTypeBitsNb e.pinState) = size := ⟨_, rfl⟩
  have hvalue : size = 3 + ((2 + getTypeBitsNb e.pinState) / 8 + 1) := by
    rw [← hsize, bits2bytes_eq]
    omega
  -- the handler counts the size in one byte, which it fits
  have hmod : size % 2 ^ 8 = size := Nat.mod_eq_of_lt (by omega)
  -- the type and the value of the entry, behind id and timeout
  have htype := writeBitValue_eq (zeros size) (e.pinState.setWidth 16)
    (show 24 < 2 ^ 16 by decide) (show 3 ≤ 16 by decide)
  rw [if_pos (by rw [length_zeros]; omega)] at htype
  have hval := writeBitValue_eq (orBits (zeros size) (fieldBits 24 (e.pinState.setWidth 16) 3))
    e.pinValue (show 27 < 2 ^ 16 by decide) hwidth
  rw [if_pos (by rw [length_orBits, length_zeros]; omega), orBits_orBits] at hval
  have hend := sendFailsafe_eq d f.timeout (show 3 ≤ size by omega) (show size < 2 ^ 8 by omega)
    (slotPattern 24 e)
  have hpattern : slotPattern 24 e = fun j =>
      fieldBits 24 (e.pinState.setWidth 16) 3 j ||
        fieldBits 27 e.pinValue (getTypeBitsNb e.pinState) j := rfl
  rw [he, hsize, ← hend, hpattern]
  simp only [replyGetFailsafe, hf, hkind, Bool.false_eq_true, if_false, replyGetFailsafePin,
    pinsNoBitsNb, hread, toNat_pinByte, Failsafe.getElem?_pinsFailsafe hpin, he, pinTypeBitsNb,
    hsize, hmod, initPacket_malloc (show size < 2 ^ 16 by omega), replyIdBitsNb, timeoutBitsNb,
    Nat.reduceAdd, htype, hval, Option.bind_eq_bind, Option.bind_some, Option.pure_def, getReplyId]

/-- The entries are too many for the size that the reply gets. -/
theorem wrapped_reply_short {k entries : Nat} (hk : k < 2 ^ 8) (hentries : entries ≤ 19 * k)
    (hlong : 2016 < 16 + k + entries) :
    8 * ((3 + bits2bytes (16 + k + entries)) % 2 ^ 8) < 24 + entries := by
  rw [bits2bytes_eq]
  omega

/-- The data of a masked reply, and its size: past 2016 bits the entries leave the buffer. -/
theorem replyGetFailsafeMask_eq {c : Connection} {m : Mask}
    (htable : f.pinsFailsafe.length = c.nbPins) (hmask : requestMask c p.data 0 = some m)
    (hlen : m.length = c.nbPins) :
    let es := f.entriesAt (usedPins m c.nbPins)
    let size := 3 + bits2bytes (16 + es.length + entriesLength es)
    replyGetFailsafeMask c f p =
      if 16 + es.length + entriesLength es ≤ 2016 then
        some (orBits (zeros size) (tablePattern 24 es), size)
      else none := by
  intro es size
  have hbound := c.nbPins_lt
  have hused := length_usedPins_le m c.nbPins
  have hcount : es.length = (usedPins m c.nbPins).length := List.length_map _
  have hslots := slotsLength_le es
  have hle := entriesLength_le es
  have hsub := subFailsafe_eq (Nat.le_of_eq hlen.symm) hbound (Nat.le_of_eq htable.symm)
  have hnb := failsafeNbBits_eq (f := { timeout := f.timeout, pinsFailsafe := es })
    (show es.length < 2 ^ 8 by omega)
  -- the size of the reply is kept in one byte
  obtain ⟨byte, hbyte⟩ :
      ∃ byte, (3 + bits2bytes (16 + es.length + entriesLength es)) % 2 ^ 8 = byte := ⟨_, rfl⟩
  have hword : byte < 2 ^ 8 := hbyte ▸ Nat.mod_lt _ (by decide)
  have hwrite : writeFailsafe (zeros byte) 24 { timeout := f.timeout, pinsFailsafe := es }
      es.length = (es.foldlM writeFailsafeEntry (zeros byte, 24)).map Prod.fst := by
    rw [writeFailsafe, foldlM_getElem?]
  have hdata : replyGetFailsafeMask c f p =
      ((es.foldlM writeFailsafeEntry (zeros byte, 24)).map Prod.fst).map fun data =>
        (data, byte) := by
    simp only [replyGetFailsafeMask, hmask, maskNbPinsUsed_eq (Nat.le_of_eq hlen.symm) hbound,
      hsub, Option.bind_eq_bind, Option.bind_some]
    rw [← hcount]
    simp only [es, hnb, Option.bind_some, hbyte, initPacket_malloc (show byte < 2 ^ 16 by omega),
      replyIdBitsNb, timeoutBitsNb, Nat.reduceAdd, hwrite]
    cases es.foldlM writeFailsafeEntry (zeros byte, 24) <;> rfl
  by_cases hshort : 16 + es.length + entriesLength es ≤ 2016
  · -- the byte holds the size, and the entries fit
    have hexact : byte = size := by
      rw [← hbyte]
      refine Nat.mod_eq_of_lt ?_
      rw [bits2bytes_eq]
      omega
    have hroom : 24 + entriesLength es < 8 * (zeros byte).length := by
      rw [length_zeros, hexact]
      simp only [size, bits2bytes_eq]
      omega
    rw [if_pos hshort, hdata, writeEntries_fit es hroom, Option.map_some, Option.map_some, hexact]
  · -- the size has wrapped, and the entries leave the reply
    have hnone : es.foldlM writeFailsafeEntry (zeros byte, 24) = none := by
      cases hrun : es.foldlM writeFailsafeEntry (zeros byte, 24) with
      | none => rfl
      | some st =>
          have hin := le_of_writeEntries hrun (by omega)
          have hout := wrapped_reply_short (show es.length < 2 ^ 8 by omega)
            (show entriesLength es ≤ 19 * es.length by omega) (Nat.lt_of_not_le hshort)
          rw [hbyte] at hout
          rw [length_zeros] at hin
          omega
    rw [if_neg hshort, hdata, hnone]
    rfl

theorem replyGetFailsafe_mask {m : Mask} (hf : d.conn.failsafe = some f)
    (htable : f.pinsFailsafe.length = d.conn.nbPins) (hkind : usesMask p = true)
    (hmask : requestMask d.conn p.data 0 = some m) (hlen : m.length = d.conn.nbPins) :
    let es := f.entriesAt (usedPins m d.conn.nbPins)
    replyGetFailsafe d p =
      if 16 + es.length + entriesLength es ≤ 2016 then
        some (d.next, [frameOf (delivered (failsafeReply d.nextId f.timeout
          (3 + bits2bytes (16 + es.length + entriesLength es)) (tablePattern 24 es)))])
      else none := by
  intro es
  have hdata := replyGetFailsafeMask_eq htable hmask hlen
  by_cases hshort : 16 + es.length + entriesLength es ≤ 2016
  · -- a count of at most 2016 bits leaves a size below 256
    obtain ⟨size, hsize⟩ :
        ∃ size, 3 + bits2bytes (16 + es.length + entriesLength es) = size := ⟨_, rfl⟩
    have hbytes : 3 ≤ size ∧ size < 2 ^ 8 := by
      rw [bits2bytes_eq] at hsize
      omega
    simp only [es] at hshort hsize
    simp only [if_pos hshort, hsize] at hdata
    rw [if_pos hshort, hsize, ← sendFailsafe_eq d f.timeout hbytes.1 hbytes.2 (tablePattern 24 es)]
    simp only [replyGetFailsafe, hf, hkind, if_true, hdata, Option.bind_eq_bind, Option.bind_some,
      getReplyId, Option.pure_def]
    rfl
  · simp only [es] at hshort
    simp only [if_neg hshort] at hdata
    rw [if_neg hshort]
    simp only [replyGetFailsafe, hf, hkind, if_true, hdata, Option.bind_eq_bind, Option.bind_some,
      Option.bind_none]

end GetFailsafe

/-! ## `reply_set_failsafe` -/

section SetFailsafe

variable {d : Device} {f : Failsafe} {p : Packet} {type : BitVec 8} {width : Nat}

/-- The device after a failsafe request. -/
def Device.putFailsafe (d : Device) (timeout : BitVec 16) (pins : List PinFailsafe) : Device :=
  d.put { d.conn with failsafe := some { timeout, pinsFailsafe := pins } }

/-- `reply_set_failsafe`, when the entries are treated as `pins` says. -/
theorem replySetFailsafe_eq (hf : d.conn.failsafe = some f)
    (htype : (p.header &&& 15#8) >>> 1 = type) :
    replySetFailsafe d p =
      if 2 ≤ p.data.length then
        (if usesMask p then
            treatSetFailsafeMask d.conn f.pinsFailsafe p type (getTypeBitsNb type)
          else treatSetFailsafePin f.pinsFailsafe p type (getTypeBitsNb type)).map fun pins =>
          (d.putFailsafe (fieldAt (bitAt p.data) 0 16 0) pins,
            [frameOf (delivered (idReply cmdSetType d.nextId))])
      else none := by
  have htimeout := readField_eq p.data (show 0 < 1 by decide) (show 0 + 16 * 1 < 2 ^ 16 by decide)
    (show 16 ≤ 16 by decide)
  have hmax : max 16 1 = 16 := rfl
  rw [hmax, Nat.mul_zero, Nat.add_zero] at htimeout
  by_cases hlen : 2 ≤ p.data.length
  · rw [if_pos (by omega)] at htimeout
    simp only [replySetFailsafe, readParam_eq, htype, hf, timeoutBitsNb, htimeout, if_pos hlen,
      Option.bind_eq_bind, Option.bind_some, sendId_eq]
    split
    · cases treatSetFailsafeMask d.conn f.pinsFailsafe p type (getTypeBitsNb type) <;> rfl
    · cases treatSetFailsafePin f.pinsFailsafe p type (getTypeBitsNb type) <;> rfl
  · rw [if_neg (by omega)] at htimeout
    simp only [replySetFailsafe, readParam_eq, hf, timeoutBitsNb, htimeout, if_neg hlen,
      Option.bind_eq_bind, Option.bind_some, Option.bind_none]

theorem treatSetFailsafePin_eq {pins : List PinFailsafe} {pin : Byte}
    (hdata : p.data[2]? = some pin) (hpin : pin.toNat < pins.length) (hwidth : width ≤ 16) :
    treatSetFailsafePin pins p type width =
      if 24 + max width 1 ≤ 8 * p.data.length then
        some (pins.modify pin.toNat fun _ =>
          { pinState := type, pinValue := fieldAt (bitAt p.data) 24 width 0 })
      else none := by
  have hread := readByteAt_eq p.data (show 2 < 2 ^ 12 by decide)
  rw [hdata, Option.map_some] at hread
  have hval := readField_eq p.data (show 0 < 1 by decide)
    (show 24 + width * 1 < 2 ^ 16 by omega) hwidth
  rw [Nat.mul_zero, Nat.add_zero] at hval
  simp only [Nat.reduceMul] at hread
  simp only [treatSetFailsafePin, timeoutBitsNb, pinsNoBitsNb, Nat.reduceAdd, hread, hval,
    toNat_pinByte, update_eq hpin, Option.bind_eq_bind, Option.bind_some]
  split <;> rfl

theorem treatSetFailsafeMask_eq {c : Connection} {pins : List PinFailsafe} {m : Mask}
    (hmask : requestMask c p.data 16 = some m) (hlen : m.length = c.nbPins)
    (hpins : pins.length = c.nbPins) (hwidth : width ≤ 16) :
    treatSetFailsafeMask c pins p type width =
      if Fits (16 + c.nbPins) width (usedPins m c.nbPins).length p.data.length then
        some (scatter
          (fun i _ =>
            { pinState := type, pinValue := fieldAt (bitAt p.data) (16 + c.nbPins) width i })
          (usedPins m c.nbPins) pins)
      else none := by
  have hbound := c.nbPins_lt
  have hbits : width * c.nbPins ≤ 16 * 255 := Nat.mul_le_mul hwidth (by omega)
  have hloop := readPinFields_eq (Nat.le_of_eq hlen.symm)
    (fun v (_ : PinFailsafe) => { pinState := type, pinValue := v })
    (Nat.le_of_eq hpins.symm) p.data
    (show 16 + c.nbPins + width * c.nbPins < 2 ^ 16 by omega) hwidth
  simp only [treatSetFailsafeMask, timeoutBitsNb, hmask, hloop, Option.bind_eq_bind,
    Option.bind_some]
  split <;> rfl

end SetFailsafe

end PinProtocol
