import PinProtocol.Common.FieldLists
import PinProtocol.Common.Transport
import PinProtocol.Firmware.Mainloop

/-!
# Handlers — what each handler of the device computes

One equation per handler: which part of the request must be there, what the device looks like
afterwards, and which packet is the reply.  Users of a handler cite its equation and never look
into the handler.
-/

namespace PinProtocol

open Bits Control

/-! ## Sizes -/

theorem bits2bytes_eq (a : Nat) : bits2bytes a = (a - 1) / 8 + 1 := by
  rcases a with _ | a
  · rfl
  · have hpred : ((a + 1 : Nat) : Int) - 1 = (a : Nat) := by omega
    rw [bits2bytes, hpred, Int.tdiv_eq_ediv_of_nonneg (by omega)]
    omega

theorem bits2bytesUnsigned_eq {a : Nat} (hpos : 0 < a) (hint : a ≤ 2 ^ 32) :
    bits2bytesUnsigned a = (a - 1) / 8 + 1 := by
  have hmod : (a + 2 ^ 32 - 1) % 2 ^ 32 = a - 1 := by omega
  rw [bits2bytesUnsigned, hmod]

/-- Without any bit the subtraction wraps. -/
theorem bits2bytesUnsigned_zero : bits2bytesUnsigned 0 = 2 ^ 29 := by
  simp [bits2bytesUnsigned]

/-! ## The state of the device -/

/-- The arrays of a connection have one entry per pin. -/
structure Connection.WellFormed (c : Connection) : Prop where
  pinsState : c.pinsState.length = c.nbPins
  pinsMaskType : c.caps.pinsMaskType.length = c.nbPins
  failsafe : ∀ f, c.failsafe = some f → f.pinsFailsafe.length = c.nbPins

/-- The state of a pin. -/
def Connection.pinAt (c : Connection) (pin : Nat) : PinState :=
  c.pinsState.getD pin freshPin

theorem Connection.nbPins_lt (c : Connection) : c.nbPins < 2 ^ 8 :=
  c.caps.nbPins.isLt

theorem Connection.getElem?_pinsState {c : Connection} {pin : Nat}
    (h : pin < c.pinsState.length) : c.pinsState[pin]? = some (c.pinAt pin) := by
  simp [Connection.pinAt, h]

/-! ## Sending -/

/-- A reply whose data is `data`, except that the first byte is the reply id. -/
def replyPacket (cmdNo id : BitVec 8) (size : Nat) (data : Buffer) : Packet :=
  setPacketHeader cmdNo repCodeSuccess size (data.set 0 id)

/-- The device after a reply has been sent. -/
def Device.next (d : Device) : Device :=
  { d with nextId := (getReplyId d.nextId).2 }

theorem sendWithId_eq (d : Device) (cmdNo : BitVec 8) {size : Nat} {data : Buffer}
    (hpos : 0 < data.length) (hsize : size ≤ data.length) (hword : size + 4 < 2 ^ 16) :
    sendWithId d cmdNo size data =
      some (d.next, [frameOf (delivered (replyPacket cmdNo d.nextId size data))]) := by
  have hmod : (BitVec.ofNat 16 size).toNat = size := by
    simp
    omega
  have hsend := sendPacket_eq (p := replyPacket cmdNo d.nextId size data)
    (by simp only [replyPacket, setPacketHeader, hmod]; simpa using hsize)
    (by simp only [replyPacket, setPacketHeader, hmod]; exact hword)
  simp only [sendWithId, getReplyId, store_eq hpos, Option.bind_eq_bind, Option.bind_some]
  rw [← replyPacket, hsend]
  rfl

/-- The reply that carries nothing but its id. -/
def idReply (cmdNo id : BitVec 8) : Packet :=
  replyPacket cmdNo id 1 [0#8]

theorem sendId_eq (d : Device) (cmdNo : BitVec 8) :
    sendId d cmdNo = some (d.next, [frameOf (delivered (idReply cmdNo d.nextId))]) := by
  have hsend := sendPacket_eq (p := idReply cmdNo d.nextId)
    (show 1 ≤ 1 by decide) (show 1 + 4 < 2 ^ 16 by decide)
  simp only [sendId, getReplyId]
  have hsame : setPacketHeader cmdNo repCodeSuccess 1 [d.nextId] =
      idReply cmdNo d.nextId := rfl
  rw [hsame, hsend]
  rfl

/-! ## The pins a request is about -/

theorem readByte_eq (b : Byte) (rest : Buffer) :
    readBitValue (b :: rest) 0 8 = some (b.setWidth 16) := by
  simp [readBitValue, readBitLoop]

theorem requestMask_eq (c : Connection) (data : Buffer) {offset : Nat}
    (hoff : offset + c.nbPins ≤ 2 ^ 16) :
    requestMask c data offset =
      if c.nbPins = 0 ∨ offset + c.nbPins ≤ 8 * data.length then
        some (maskOf (bitAt data) offset c.nbPins)
      else none := by
  have hread := readMask_eq data (m := List.replicate c.nbPins false)
    (List.length_replicate ..) hoff
  simp only [requestMask, newMask_eq c.nbPins_lt, Option.bind_eq_bind, Option.bind_some, hread]

theorem length_requestMask {c : Connection} {data : Buffer} {m : Mask}
    (h : requestMask c data 0 = some m) : m.length = c.nbPins := by
  have hbound := c.nbPins_lt
  rw [requestMask_eq c data (by omega)] at h
  rw [← Option.some_inj.mp (Option.ite_none_right_eq_some.mp h).2, length_maskOf]

/-! ## Replies that carry fields -/

/-- A reply that carries the values `vals`, `width` bits each, behind its id. -/
def fieldsReply (cmdNo id : BitVec 8) (width : Nat) (vals : List (BitVec 16)) : Packet :=
  replyPacket cmdNo id ((7 + width * vals.length) / 8 + 1)
    (orBits (zeros ((7 + width * vals.length) / 8 + 1)) (fieldsBits 8 width vals))

theorem fieldsBits_singleton (offset width : Nat) (v : BitVec 16) :
    fieldsBits offset width [v] = fieldBits offset v width := by
  funext j
  simp [fieldsBits]

theorem sendFields_eq (d : Device) (cmdNo : BitVec 8) (width : Nat) (vals : List (BitVec 16))
    (hword : width * vals.length < 2 ^ 13) :
    sendWithId d cmdNo ((7 + width * vals.length) / 8 + 1)
        (orBits (zeros ((7 + width * vals.length) / 8 + 1)) (fieldsBits 8 width vals)) =
      some (d.next, [frameOf (delivered (fieldsReply cmdNo d.nextId width vals))]) :=
  sendWithId_eq d cmdNo (by simp) (by simp) (by omega)

/-- A pin number is read into 16 bits, of which the handler keeps 8. -/
theorem toNat_pinByte (pin : Byte) : ((pin.setWidth 16).setWidth 8).toNat = pin.toNat := by
  simp

/-! ## `reply_read` -/

section Read

variable {d : Device} {p : Packet} {width : Nat}

theorem replyReadPin_eq {c : Connection} {pin : Byte}
    (hdata : readBitValue p.data 0 8 = some (pin.setWidth 16))
    (hpin : pin.toNat < c.pinsState.length) (hwidth : width ≤ 16) :
    replyReadPin c p width =
      if 0 < width then
        some (orBits (zeros ((7 + width * 1) / 8 + 1))
          (fieldsBits 8 width [(c.pinAt pin.toNat).pinsVal]), (7 + width * 1) / 8 + 1)
      else none := by
  have hsize : 8 + width - 1 = 7 + width * 1 := by omega
  have hwrite := writeBitValue_eq (zeros ((7 + width * 1) / 8 + 1))
    (c.pinAt pin.toNat).pinsVal (show 8 < 2 ^ 16 by decide) hwidth
  -- a value without bits would still touch the byte behind the id
  have hfit : (8 + max width 1 ≤ 8 * (zeros ((7 + width * 1) / 8 + 1)).length) = (0 < width) := by
    rw [eq_iff_iff, length_zeros]
    omega
  simp only [replyReadPin, pinsNoBitsNb, replyIdBitsNb, hdata, toNat_pinByte,
    Connection.getElem?_pinsState hpin, bits2bytes_eq, hsize, Option.bind_eq_bind,
    Option.bind_some, initPacket_malloc (show (7 + width * 1) / 8 + 1 < 2 ^ 16 by omega), hwrite,
    hfit, fieldsBits_singleton]
  split <;> rfl

/-- A run of fields behind the reply id fits the buffer that the handlers allocate for it, unless
there are fields but they have no bits. -/
theorem fits_reply_iff (n : Nat) :
    Fits 8 width n ((7 + width * n) / 8 + 1) ↔ n = 0 ∨ 0 < width := by
  rcases Nat.eq_zero_or_pos width with hzero | hpos
  · subst hzero
    simp [Fits]
  · rw [fits_iff hpos]
    constructor
    · rintro (h | _)
      · exact Or.inl h
      · exact Or.inr hpos
    · intro _
      exact Or.inr (by omega)

theorem replyReadMask_eq {c : Connection} {m : Mask} (hmask : requestMask c p.data 0 = some m)
    (hlen : m.length = c.nbPins) (hpins : c.pinsState.length = c.nbPins) (hwidth : width ≤ 16) :
    replyReadMask c p width =
      if usedPins m c.nbPins = [] ∨ 0 < width then
        some (orBits (zeros ((7 + width * (usedPins m c.nbPins).length) / 8 + 1))
          (fieldsBits 8 width ((usedPins m c.nbPins).map fun pin => (c.pinAt pin).pinsVal)),
          (7 + width * (usedPins m c.nbPins).length) / 8 + 1)
      else none := by
  have hbound := c.nbPins_lt
  have hused := length_usedPins_le m c.nbPins
  have hbits : width * (usedPins m c.nbPins).length ≤ 16 * 255 :=
    Nat.mul_le_mul hwidth (by omega)
  have hbits' : width * c.nbPins ≤ 16 * 255 := Nat.mul_le_mul hwidth (by omega)
  have hsize : 8 + (usedPins m c.nbPins).length * width - 1 =
      7 + width * (usedPins m c.nbPins).length := by
    rw [Nat.mul_comm]
    omega
  -- the fields of the pins follow each other from bit 8 on
  have hloop := writePinFields_eq (Nat.le_of_eq hlen.symm)
    (fun pin => c.pinsState[pin]?.map PinState.pinsVal) (fun pin => (c.pinAt pin).pinsVal)
    (fun pin hpin => by rw [Connection.getElem?_pinsState (by omega)]; rfl)
    (zeros ((7 + width * (usedPins m c.nbPins).length) / 8 + 1))
    (show 8 + width * c.nbPins < 2 ^ 16 by omega) hwidth
  simp only [Option.bind_map, Function.comp_def, length_zeros, fits_reply_iff,
    List.length_eq_zero_iff] at hloop
  simp only [replyReadMask, hmask, maskNbPinsUsed_eq (Nat.le_of_eq hlen.symm) hbound,
    replyIdBitsNb, bits2bytes_eq, hsize, Option.bind_eq_bind, Option.bind_some,
    initPacket_malloc (show (7 + width * (usedPins m c.nbPins).length) / 8 + 1 < 2 ^ 16 by omega),
    hloop]
  split <;> rfl

/-- `reply_read` for one pin. -/
theorem replyRead_pin {pin : Byte} (hkind : usesMask p = false)
    (hwidth : getTypeBitsNb ((p.header &&& 15#8) >>> 1) = width)
    (hdata : readBitValue p.data 0 8 = some (pin.setWidth 16))
    (hpin : pin.toNat < d.conn.pinsState.length) :
    replyRead d p =
      if 0 < width then
        some (d.next, [frameOf (delivered
          (fieldsReply cmdRead d.nextId width [(d.conn.pinAt pin.toNat).pinsVal]))])
      else none := by
  have hle : width ≤ 16 := hwidth ▸ getTypeBitsNb_le _
  have hsend := sendFields_eq d cmdRead width ([(d.conn.pinAt pin.toNat).pinsVal])
    (show width * 1 < 2 ^ 13 by omega)
  simp only [List.length_singleton] at hsend
  simp only [replyRead, readParam_eq, hwidth, hkind, Bool.false_eq_true, if_false,
    replyReadPin_eq hdata hpin hle, Option.bind_eq_bind, Option.bind_some]
  by_cases hpos : 0 < width
  · simp only [hpos, if_true, Option.bind_some, hsend]
  · simp only [hpos, if_false, Option.bind_none]

/-- `reply_read` for a set of pins. -/
theorem replyRead_mask {m : Mask} (hkind : usesMask p = true)
    (hwidth : getTypeBitsNb ((p.header &&& 15#8) >>> 1) = width)
    (hmask : requestMask d.conn p.data 0 = some m) (hlen : m.length = d.conn.nbPins)
    (hpins : d.conn.pinsState.length = d.conn.nbPins) :
    replyRead d p =
      if usedPins m d.conn.nbPins = [] ∨ 0 < width then
        some (d.next, [frameOf (delivered (fieldsReply cmdRead d.nextId width
          ((usedPins m d.conn.nbPins).map fun pin => (d.conn.pinAt pin).pinsVal)))])
      else none := by
  have hle : width ≤ 16 := hwidth ▸ getTypeBitsNb_le _
  have hbound := d.conn.nbPins_lt
  have hused := length_usedPins_le m d.conn.nbPins
  have hbits : width * (usedPins m d.conn.nbPins).length ≤ 16 * 255 :=
    Nat.mul_le_mul hle (by omega)
  have hsend := sendFields_eq d cmdRead width
    ( (usedPins m d.conn.nbPins).map fun pin => (d.conn.pinAt pin).pinsVal)
    (by rw [List.length_map]; omega)
  simp only [List.length_map] at hsend
  simp only [replyRead, readParam_eq, hwidth, hkind, if_true,
    replyReadMask_eq hmask hlen hpins hle, Option.bind_eq_bind, Option.bind_some]
  by_cases hpos : usedPins m d.conn.nbPins = [] ∨ 0 < width
  · simp only [hpos, if_true, Option.bind_some, hsend]
  · simp only [hpos, if_false, Option.bind_none]

theorem replyRead_fault (hkind : usesMask p = true)
    (hmask : requestMask d.conn p.data 0 = none) : replyRead d p = none := by
  simp [replyRead, readParam_eq, hkind, replyReadMask, hmask]

end Read

/-! ## `reply_write` -/

section Write

variable {c : Connection} {p : Packet} {width : Nat}

theorem treatWritePin_eq {pin : Byte} (hdata : readBitValue p.data 0 8 = some (pin.setWidth 16))
    (hpin : pin.toNat < c.pinsState.length) (type : BitVec 8) (hwidth : width ≤ 16) :
    treatWritePin c p type width =
      if 8 + max width 1 ≤ 8 * p.data.length then
        some { c with pinsState := c.pinsState.modify pin.toNat fun _ =>
          { pinsType := type, pinsVal := fieldAt (bitAt p.data) 8 width 0 } }
      else none := by
  have hread := readField_eq p.data (show 0 < 1 by decide)
    (show 8 + width * 1 < 2 ^ 16 by omega) hwidth
  simp only [Nat.mul_zero, Nat.add_zero] at hread
  simp only [treatWritePin, pinsNoBitsNb, hdata, hread, Option.bind_eq_bind, Option.bind_some,
    toNat_pinByte, update_eq hpin]
  split <;> rfl

theorem treatWriteMask_eq {m : Mask} (hmask : requestMask c p.data 0 = some m)
    (hlen : m.length = c.nbPins) (hpins : c.pinsState.length = c.nbPins) (hwidth : width ≤ 16) :
    treatWriteMask c p width =
      if Fits c.nbPins width (usedPins m c.nbPins).length p.data.length then
        some
          { c with
            pinsState := scatter
              (fun i pin =>
                let val := fieldAt (bitAt p.data) c.nbPins width i
                { pin with pinsVal := (val.setWidth 8).setWidth 16 })
              (usedPins m c.nbPins) c.pinsState }
      else none := by
  have hbound := c.nbPins_lt
  have hbits : width * c.nbPins ≤ 16 * 255 := Nat.mul_le_mul hwidth (by omega)
  have hloop := readPinFields_eq (Nat.le_of_eq hlen.symm)
    (fun v (pin : PinState) => { pin with pinsVal := (v.setWidth 8).setWidth 16 })
    (Nat.le_of_eq hpins.symm) p.data (show c.nbPins + width * c.nbPins < 2 ^ 16 by omega) hwidth
  simp only [treatWriteMask, hmask, hloop, Option.bind_eq_bind, Option.bind_some]
  split <;> rfl

/-- The device after its connection has been replaced and a reply has been sent. -/
def Device.put (d : Device) (conn : Connection) : Device :=
  Device.next { d with conn }

@[simp] theorem Device.conn_put (d : Device) (conn : Connection) : (d.put conn).conn = conn := rfl

theorem replyWrite_eq (d : Device) (p : Packet) :
    replyWrite d p =
      (treatWrite d.conn p).map fun conn =>
        (d.put conn, [frameOf (delivered (idReply cmdWrite d.nextId))]) := by
  simp only [replyWrite, sendId_eq, Option.bind_eq_bind]
  cases treatWrite d.conn p <;> rfl

/-- `treat_write` for one pin. -/
theorem treatWrite_pin {pin : Byte} {type : BitVec 8} (hkind : usesMask p = false)
    (htype : (p.header &&& 15#8) >>> 1 = type) (hwidth : getTypeBitsNb type = width)
    (hdata : readBitValue p.data 0 8 = some (pin.setWidth 16))
    (hpin : pin.toNat < c.pinsState.length) :
    treatWrite c p =
      if 8 + max width 1 ≤ 8 * p.data.length then
        some
          { c with
            pinsState := c.pinsState.modify pin.toNat fun _ =>
              { pinsType := type, pinsVal := fieldAt (bitAt p.data) 8 width 0 } }
      else none := by
  have hle : width ≤ 16 := hwidth ▸ getTypeBitsNb_le _
  simp only [treatWrite, readParam_eq, htype, hwidth, hkind, Option.bind_eq_bind,
    Option.bind_some]
  exact treatWritePin_eq hdata hpin _ hle

/-- `treat_write` for a set of pins. -/
theorem treatWrite_mask {m : Mask} (hkind : usesMask p = true)
    (hwidth : getTypeBitsNb ((p.header &&& 15#8) >>> 1) = width)
    (hmask : requestMask c p.data 0 = some m) (hlen : m.length = c.nbPins)
    (hpins : c.pinsState.length = c.nbPins) :
    treatWrite c p =
      if Fits c.nbPins width (usedPins m c.nbPins).length p.data.length then
        some
          { c with
            pinsState := scatter
              (fun i pin =>
                let val := fieldAt (bitAt p.data) c.nbPins width i
                { pin with pinsVal := (val.setWidth 8).setWidth 16 })
              (usedPins m c.nbPins) c.pinsState }
      else none := by
  have hle : width ≤ 16 := hwidth ▸ getTypeBitsNb_le _
  simp only [treatWrite, readParam_eq, hwidth, hkind, Option.bind_eq_bind, Option.bind_some]
  exact treatWriteMask_eq hmask hlen hpins hle

end Write

/-! ## `reply_get_type` -/

section GetType

variable {d : Device} {p : Packet}

theorem replyGetType_pin {pin : Byte} (hkind : usesMask p = false)
    (hdata : readBitValue p.data 0 8 = some (pin.setWidth 16))
    (hpin : pin.toNat < d.conn.pinsState.length) :
    replyGetType d p =
      some (d.next, [frameOf (delivered (fieldsReply cmdSetType d.nextId 3
        [(d.conn.pinAt pin.toNat).pinsType.setWidth 16]))]) := by
  have hwrite := writeBitValue_eq (zeros 2)
    ((d.conn.pinAt pin.toNat).pinsType.setWidth 16) (show 8 < 2 ^ 16 by decide)
    (show 3 ≤ 16 by decide)
  have hsend := sendFields_eq d cmdSetType 3
    ( [(d.conn.pinAt pin.toNat).pinsType.setWidth 16]) (show 3 * 1 < 2 ^ 13 by decide)
  have hsize : 1 + bits2bytes 3 = 2 := rfl
  have hlen : (7 + 3 * 1) / 8 + 1 = 2 := rfl
  have hfit : 8 + max 3 1 ≤ 8 * (zeros 2).length := by decide
  simp only [fieldsBits_singleton, List.length_singleton, hlen] at hsend
  simp only [replyGetType, hkind, Bool.false_eq_true, if_false, replyGetTypePin, pinsNoBitsNb,
    replyIdBitsNb, pinTypeBitsNb, hdata, toNat_pinByte, Connection.getElem?_pinsState hpin,
    Option.bind_eq_bind, Option.bind_some, initPacket_malloc (show 2 < 2 ^ 16 by decide), hwrite,
    hfit, if_true, hsize, Option.pure_def, hsend]

/-- The reply for no pin at all: the size has wrapped on its way into the header. -/
theorem sendWithId_wrapped (d : Device) (cmdNo : BitVec 8) (width size : Nat)
    (hsize : size % 2 ^ 16 = 1) (tail : Buffer) :
    sendWithId d cmdNo size (0#8 :: tail) =
      some (d.next, [frameOf (delivered (fieldsReply cmdNo d.nextId width []))]) := by
  have hword : (BitVec.ofNat 16 size).toNat = 1 := by simpa using hsize
  have hsend := sendPacket_eq (p := replyPacket cmdNo d.nextId size (0#8 :: tail))
    (by simp [replyPacket, setPacketHeader, hword])
    (by simp only [replyPacket, setPacketHeader, hword]; decide)
  have hsame : delivered (replyPacket cmdNo d.nextId size (0#8 :: tail)) =
      delivered (fieldsReply cmdNo d.nextId width []) := by
    refine delivered_congr rfl ?_ ?_
    · refine BitVec.eq_of_toNat_eq ?_
      simpa [replyPacket, fieldsReply, setPacketHeader] using hsize
    · simp [replyPacket, fieldsReply, setPacketHeader, hword, zeros, orBits]
  rw [← hsame]
  simp only [sendWithId, getReplyId, store, List.length_cons, Nat.zero_lt_succ, if_true,
    Option.bind_eq_bind, Option.bind_some]
  rw [← replyPacket, hsend]
  rfl

theorem initPacket_one (x : Byte) (tail : Buffer) :
    initPacket (x :: tail) 1 = some (0#8 :: tail) := by
  have hmod : 1 % 2 ^ 16 = 1 := by decide
  rw [initPacket, hmod]
  rfl

theorem initPacket_wrapped {size : Nat} (hsize : size % 2 ^ 16 = 1) :
    initPacket (malloc size) size = some (0#8 :: malloc (size - 1)) := by
  rcases size with _ | n
  · simp at hsize
  · have hfirst : malloc (n + 1) = heapFill :: malloc n := rfl
    rw [initPacket_mod, hsize, hfirst, initPacket_one]
    rfl

/-- The byte count for no pin at all. -/
theorem wrapped_size : ∃ n, bits2bytesUnsigned (0 * 3) = n ∧ (1 + n) % 2 ^ 16 = 1 := by
  refine ⟨_, rfl, ?_⟩
  rw [Nat.zero_mul, bits2bytesUnsigned_zero]
  norm_num

/-- The data of the reply for no pin at all: the byte count wraps to 1 in the header, and only the
first byte of the buffer is cleared. -/
theorem replyGetTypeMask_nil {c : Connection} {m : Mask} {n : Nat}
    (hmask : requestMask c p.data 0 = some m) (hlen : m.length = c.nbPins)
    (hnone : usedPins m c.nbPins = []) (hsize : bits2bytesUnsigned (0 * 3) = n)
    (hwrap : (1 + n) % 2 ^ 16 = 1) :
    replyGetTypeMask c p = some (0#8 :: malloc (1 + n - 1), 1 + n) := by
  have hcount := maskNbPinsUsed_eq (Nat.le_of_eq hlen.symm) c.nbPins_lt
  rw [hnone, List.length_nil] at hcount
  simp only [replyGetTypeMask, hmask, Option.bind_eq_bind, Option.bind_some, pinTypeBitsNb]
  rw [hcount, Option.bind_some, hsize, initPacket_wrapped hwrap, Option.bind_some,
    forEachPinUsed_eq (Nat.le_of_eq hlen.symm), hnone, List.foldlM_nil, Option.pure_def,
    Option.bind_some]

theorem replyGetTypeMask_cons {c : Connection} {m : Mask}
    (hmask : requestMask c p.data 0 = some m) (hlen : m.length = c.nbPins)
    (hpins : c.pinsState.length = c.nbPins) (hpos : 0 < (usedPins m c.nbPins).length) :
    replyGetTypeMask c p =
      some (orBits (zeros ((7 + 3 * (usedPins m c.nbPins).length) / 8 + 1))
        (fieldsBits 8 3
          ((usedPins m c.nbPins).map fun pin => (c.pinAt pin).pinsType.setWidth 16)),
        (7 + 3 * (usedPins m c.nbPins).length) / 8 + 1) := by
  have hbound := c.nbPins_lt
  have hused := length_usedPins_le m c.nbPins
  have hcount := maskNbPinsUsed_eq (Nat.le_of_eq hlen.symm) hbound
  have hloop := writePinFields_eq (Nat.le_of_eq hlen.symm)
    (fun pin => c.pinsState[pin]?.map fun x => x.pinsType.setWidth 16)
    (fun pin => (c.pinAt pin).pinsType.setWidth 16)
    (fun pin hpin => by rw [Connection.getElem?_pinsState (by omega)]; rfl)
    (zeros ((7 + 3 * (usedPins m c.nbPins).length) / 8 + 1))
    (show 8 + 3 * c.nbPins < 2 ^ 16 by omega) (show 3 ≤ 16 by decide)
  simp only [Option.bind_map, Function.comp_def] at hloop
  -- on at least one pin the macro rounds up as it is meant to
  have hsize : 1 + bits2bytesUnsigned ((usedPins m c.nbPins).length * 3) =
      (7 + 3 * (usedPins m c.nbPins).length) / 8 + 1 := by
    rw [bits2bytesUnsigned_eq (by omega) (by omega)]
    omega
  have hfit : Fits 8 3 (usedPins m c.nbPins).length
      (zeros ((7 + 3 * (usedPins m c.nbPins).length) / 8 + 1)).length := by
    rw [length_zeros]
    exact (fits_reply_iff _).mpr (Or.inr (by decide))
  rw [if_pos hfit] at hloop
  simp only [replyGetTypeMask, hmask, Option.bind_eq_bind, Option.bind_some, pinTypeBitsNb,
    replyIdBitsNb]
  rw [hcount, Option.bind_some, hsize, initPacket_malloc (by omega), Option.bind_some, hloop,
    Option.bind_some, Option.pure_def]

/-- `reply_get_type` for a set of pins. -/
theorem replyGetType_mask {m : Mask} (hkind : usesMask p = true)
    (hmask : requestMask d.conn p.data 0 = some m) (hlen : m.length = d.conn.nbPins)
    (hpins : d.conn.pinsState.length = d.conn.nbPins) :
    replyGetType d p =
      some (d.next, [frameOf (delivered (fieldsReply cmdSetType d.nextId 3
        ((usedPins m d.conn.nbPins).map fun pin =>
          (d.conn.pinAt pin).pinsType.setWidth 16)))]) := by
  rcases Nat.eq_zero_or_pos (usedPins m d.conn.nbPins).length with hzero | hpos
  · -- no pin at all: the declared size wraps to the single byte of the id
    have hnil : usedPins m d.conn.nbPins = [] := List.length_eq_zero_iff.mp hzero
    rcases wrapped_size with ⟨n, hsize, hwrap⟩
    rw [replyGetType, if_pos hkind, replyGetTypeMask_nil hmask hlen hnil hsize hwrap, hnil,
      List.map_nil]
    exact sendWithId_wrapped d cmdSetType 3 (1 + n) hwrap _
  · have hbound := d.conn.nbPins_lt
    have hused := length_usedPins_le m d.conn.nbPins
    have hsend := sendFields_eq d cmdSetType 3
      ((usedPins m d.conn.nbPins).map fun pin => (d.conn.pinAt pin).pinsType.setWidth 16)
      (by rw [List.length_map]; omega)
    rw [List.length_map] at hsend
    rw [replyGetType, if_pos hkind, replyGetTypeMask_cons hmask hlen hpins hpos]
    exact hsend

theorem replyGetType_fault (hkind : usesMask p = true)
    (hmask : requestMask d.conn p.data 0 = none) : replyGetType d p = none := by
  simp [replyGetType, hkind, replyGetTypeMask, hmask]

end GetType

/-! ## `reply_set_type` -/

section SetType

variable {c : Connection} {p : Packet}

theorem treatSetTypePin_eq {pin : Byte} (hdata : readBitValue p.data 0 8 = some (pin.setWidth 16))
    (hpin : pin.toNat < c.pinsState.length) :
    treatSetTypePin c p =
      if 8 + 3 ≤ 8 * p.data.length then
        some { c with pinsState := c.pinsState.modify pin.toNat fun x =>
          { x with pinsType := (fieldAt (bitAt p.data) 8 3 0).setWidth 8 } }
      else none := by
  have hread := readField_eq p.data (show 0 < 1 by decide) (show 8 + 3 * 1 < 2 ^ 16 by decide)
    (show 3 ≤ 16 by decide)
  have hmax : max 3 1 = 3 := by decide
  simp only [Nat.mul_zero, Nat.add_zero, hmax] at hread
  simp only [treatSetTypePin, pinsNoBitsNb, pinTypeBitsNb, hdata, hread, Option.bind_eq_bind,
    Option.bind_some, toNat_pinByte, update_eq hpin]
  split <;> rfl

theorem treatSetTypeMask_eq {m : Mask} (hmask : requestMask c p.data 0 = some m)
    (hlen : m.length = c.nbPins) (hpins : c.pinsState.length = c.nbPins) :
    treatSetTypeMask c p =
      if Fits c.nbPins 3 (usedPins m c.nbPins).length p.data.length then
        some
          { c with
            pinsState := scatter
              (fun i pin =>
                { pin with pinsType := (fieldAt (bitAt p.data) c.nbPins 3 i).setWidth 8 })
              (usedPins m c.nbPins) c.pinsState }
      else none := by
  have hbound := c.nbPins_lt
  have hloop := readPinFields_eq (Nat.le_of_eq hlen.symm)
    (fun v (pin : PinState) => { pin with pinsType := v.setWidth 8 })
    (Nat.le_of_eq hpins.symm) p.data (show c.nbPins + 3 * c.nbPins < 2 ^ 16 by omega)
    (show 3 ≤ 16 by decide)
  simp only [treatSetTypeMask, pinTypeBitsNb, hmask, hloop, Option.bind_eq_bind, Option.bind_some]
  split <;> rfl

theorem replySetType_eq (d : Device) (p : Packet) :
    replySetType d p =
      (treatSetType d.conn p).map fun conn =>
        (d.put conn, [frameOf (delivered (idReply cmdSetType d.nextId))]) := by
  simp only [replySetType, sendId_eq, Option.bind_eq_bind]
  cases treatSetType d.conn p <;> rfl

end SetType

end PinProtocol
