import PinProtocol.Firmware.FailsafeHandlers

/-!
# Dispatch — the `switch` of `mainloop`, and what it takes to get through it

One equation per branch: the condition on packet and state under which the handler stays inside its
arrays, and what it then does.
-/

namespace PinProtocol

open Bits Control

/-! ## The branches -/

section Dispatch

variable {b : Build} {d : Device} {p : Packet}

theorem dispatch_read (h : p.header >>> 4 = cmdRead) : dispatch b d p = replyRead d p := by
  simp only [dispatch, readCmd_eq, h]
  rfl

theorem dispatch_write (h : p.header >>> 4 = cmdWrite) :
    dispatch b d p =
      (treatWrite d.conn p).map fun conn =>
        (d.put conn, [frameOf (delivered (idReply cmdWrite d.nextId))]) := by
  rw [← replyWrite_eq]
  simp only [dispatch, readCmd_eq, h]
  rfl

theorem dispatch_getType (h : p.header >>> 4 = cmdGetType) :
    dispatch b d p = replyGetType d p := by
  simp only [dispatch, readCmd_eq, h]
  rfl

theorem dispatch_setType (h : p.header >>> 4 = cmdSetType) :
    dispatch b d p =
      (treatSetType d.conn p).map fun conn =>
        (d.put conn, [frameOf (delivered (idReply cmdSetType d.nextId))]) := by
  rw [← replySetType_eq]
  simp only [dispatch, readCmd_eq, h]
  rfl

theorem dispatch_getCaps (h : p.header >>> 4 = cmdGetCaps) : dispatch b d p = replyGetCaps d := by
  have hcmd : cmdGetCaps.toNat = 0 := rfl
  simp only [dispatch, readCmd_eq, h, Option.bind_eq_bind, Option.bind_some, hcmd]

theorem dispatch_reset (h : p.header >>> 4 = cmdReset) : dispatch b d p = some (d, []) := by
  have hcmd : cmdReset.toNat = 1 := rfl
  simp only [dispatch, readCmd_eq, h, Option.bind_eq_bind, Option.bind_some, hcmd]
  rfl

theorem dispatch_ping (h : p.header >>> 4 = cmdPing) : dispatch b d p = replyPing d := by
  have hcmd : cmdPing.toNat = 2 := rfl
  simp only [dispatch, readCmd_eq, h, Option.bind_eq_bind, Option.bind_some, hcmd]

theorem dispatch_getFailsafe (h : p.header >>> 4 = cmdGetFailsafe) :
    dispatch b d p = if b.disableFailsafe then some (d, []) else replyGetFailsafe d p := by
  have hcmd : cmdGetFailsafe.toNat = 7 := rfl
  simp only [dispatch, readCmd_eq, h, Option.bind_eq_bind, Option.bind_some, hcmd]

theorem dispatch_setFailsafe (h : p.header >>> 4 = cmdSetFailsafe) :
    dispatch b d p = if b.disableFailsafe then some (d, []) else replySetFailsafe d p := by
  have hcmd : cmdSetFailsafe.toNat = 8 := rfl
  simp only [dispatch, readCmd_eq, h, Option.bind_eq_bind, Option.bind_some, hcmd]

theorem dispatch_default (h : 8 < (p.header >>> 4).toNat) : dispatch b d p = some (d, []) := by
  simp only [dispatch, readCmd_eq, Option.bind_eq_bind, Option.bind_some]
  generalize (p.header >>> 4).toNat = n at h
  obtain ⟨m, rfl⟩ : ∃ m, n = m + 9 := ⟨n - 9, by omega⟩
  rfl

end Dispatch

/-! ## What a request names -/

/-- The type in the header of a request. -/
def Packet.type (p : Packet) : BitVec 8 :=
  (p.header &&& 15#8) >>> 1

/-- The bits of a value of that type. -/
def Packet.width (p : Packet) : Nat :=
  getTypeBitsNb p.type

/-- Byte `k` of the data, as the number of a pin. -/
def Packet.pin (p : Packet) (k : Nat) : Nat :=
  (p.data.getD k 0#8).toNat

/-- Byte `k` of the data is there, and is the number of a pin. -/
def NamesPin (c : Connection) (p : Packet) (k : Nat) : Prop :=
  k < p.data.length ∧ p.pin k < c.nbPins

/-- The data holds a mask from bit `offset` on. -/
def HoldsMask (c : Connection) (p : Packet) (offset : Nat) : Prop :=
  c.nbPins = 0 ∨ offset + c.nbPins ≤ 8 * p.data.length

/-- The pins of the mask that the data holds from bit `offset` on. -/
def maskedPins (c : Connection) (p : Packet) (offset : Nat) : List Nat :=
  usedPins (maskOf (bitAt p.data) offset c.nbPins) c.nbPins

/-- The bits that the failsafe entries of the pins take in a reply. -/
def failsafeBits (c : Connection) (pins : List Nat) : Nat :=
  (c.failsafe.map fun f => entriesLength (f.entriesAt pins)).getD 0

instance (c : Connection) (p : Packet) (k : Nat) : Decidable (NamesPin c p k) :=
  inferInstanceAs (Decidable (_ ∧ _))

instance (c : Connection) (p : Packet) (offset : Nat) : Decidable (HoldsMask c p offset) :=
  inferInstanceAs (Decidable (_ ∨ _))

theorem type_lt (p : Packet) : p.type.toNat < 8 := by
  have h : p.type.toNat = p.header.toNat % 16 / 2 := by
    rw [Packet.type, BitVec.toNat_ushiftRight, Nat.shiftRight_eq_div_pow]
    have hlow := Nat.and_two_pow_sub_one_eq_mod p.header.toNat 4
    simp only [BitVec.toNat_and]
    exact congrArg (· / 2 ^ 1) hlow
  omega

theorem length_maskedPins_le (c : Connection) (p : Packet) (offset : Nat) :
    (maskedPins c p offset).length ≤ c.nbPins :=
  length_usedPins_le _ _

theorem readPin_eq (p : Packet) {k : Nat} (hk : k < 2 ^ 12) :
    readBitValue p.data (8 * k) 8 =
      if k < p.data.length then some ((p.data.getD k 0#8).setWidth 16) else none := by
  rw [readByteAt_eq p.data hk]
  by_cases hlt : k < p.data.length
  · simp [hlt]
  · simp [hlt]

theorem readFirstPin_eq (p : Packet) :
    readBitValue p.data 0 8 =
      if 0 < p.data.length then some ((p.data.getD 0 0#8).setWidth 16) else none :=
  readPin_eq p (show 0 < 2 ^ 12 by decide)

theorem getElem?_pin {p : Packet} {k : Nat} (h : k < p.data.length) :
    p.data[k]? = some (p.data.getD k 0#8) := by
  simp [h]

/-- A number past the last pin is read outside of the table. -/
theorem getElem?_past_pins {α : Type} {c : Connection} {p : Packet} {k : Nat} {table : List α}
    (htable : table.length = c.nbPins) (hpin : ¬ p.pin k < c.nbPins) :
    table[(p.data.getD k 0#8).toNat]? = none := by
  rw [List.getElem?_eq_none_iff, htable]
  exact Nat.le_of_not_lt hpin

/-- A number past the last pin is written outside of the table. -/
theorem update_past_pins {α : Type} {c : Connection} {p : Packet} {k : Nat} {table : List α}
    (htable : table.length = c.nbPins) (hpin : ¬ p.pin k < c.nbPins) (f : α → α) :
    update table (p.data.getD k 0#8).toNat f = none := by
  rw [update, htable]
  exact if_neg hpin

theorem requestMask_holds (c : Connection) (p : Packet) {offset : Nat} (hoff : offset ≤ 16) :
    requestMask c p.data offset =
      if HoldsMask c p offset then some (maskOf (bitAt p.data) offset c.nbPins) else none :=
  requestMask_eq c p.data (by have := c.nbPins_lt; omega)

/-! ## One equation per handler -/

section Handlers

variable {b : Build} {d : Device} {p : Packet}

/-- The reply to a capability request. -/
def capsReply (d : Device) : Packet :=
  replyPacket cmdGetCaps d.nextId (d.conn.nbPins + 2)
    (0#8 :: d.conn.caps.nbPins :: d.conn.caps.pinsMaskType)

theorem replyGetCaps_eq (hwf : d.conn.WellFormed) :
    replyGetCaps d = some (d.next, [frameOf (delivered (capsReply d))]) := by
  have hbound := d.conn.nbPins_lt
  have hmask := hwf.pinsMaskType
  have hzeros : zeros (d.conn.nbPins + 2) = 0#8 :: 0#8 :: zeros d.conn.nbPins := rfl
  have hsize : 1 + 1 + d.conn.nbPins = d.conn.nbPins + 2 := by omega
  -- byte 0 is left for the id of the reply, byte 1 holds the number of pins
  have hstore : store (zeros (d.conn.nbPins + 2)) 1 d.conn.caps.nbPins =
      some (0#8 :: d.conn.caps.nbPins :: zeros d.conn.nbPins) := by
    rw [store_eq (by simp), hzeros]
    rfl
  have hfit : d.conn.nbPins ≤ d.conn.caps.pinsMaskType.length ∧
      d.conn.nbPins + 2 ≤ (0#8 :: d.conn.caps.nbPins :: zeros d.conn.nbPins).length := by
    simp [hmask]
  -- the types follow, one byte for each pin
  have hcopy : (0#8 :: d.conn.caps.nbPins :: zeros d.conn.nbPins).take 2 ++
      d.conn.caps.pinsMaskType.take d.conn.nbPins ++
      (0#8 :: d.conn.caps.nbPins :: zeros d.conn.nbPins).drop (d.conn.nbPins + 2) =
        0#8 :: d.conn.caps.nbPins :: d.conn.caps.pinsMaskType := by
    rw [List.take_of_length_le (Nat.le_of_eq hmask), List.drop_of_length_le (by simp)]
    simp
  have hsend := sendWithId_eq d cmdGetCaps
    (show 0 < (0#8 :: d.conn.caps.nbPins :: d.conn.caps.pinsMaskType).length by simp)
    (show d.conn.nbPins + 2 ≤ (0#8 :: d.conn.caps.nbPins :: d.conn.caps.pinsMaskType).length by
      simp [hmask])
    (by omega)
  simp only [replyGetCaps, hsize, initPacket_malloc (show d.conn.nbPins + 2 < 2 ^ 16 by omega),
    Option.bind_eq_bind, Option.bind_some, hstore, if_pos hfit, hcopy, hsend, capsReply]

/-- The reply to a ping; it carries the command of a capability reply. -/
def pingReply (d : Device) : Packet :=
  replyPacket cmdGetCaps d.nextId 2 [0#8, d.conn.protocolVersion]

theorem replyPing_eq (d : Device) :
    replyPing d = some (d.next, [frameOf (delivered (pingReply d))]) := by
  have hstore : store (zeros 2) 1 d.conn.protocolVersion =
      some [0#8, d.conn.protocolVersion] := rfl
  have hsend := sendWithId_eq d cmdGetCaps
    (show 0 < [0#8, d.conn.protocolVersion].length by simp)
    (show 2 ≤ [0#8, d.conn.protocolVersion].length by simp) (by decide)
  simp only [replyPing, initPacket_malloc (show 2 < 2 ^ 16 by decide), hstore, Option.bind_eq_bind,
    Option.bind_some, hsend]
  rfl

theorem replyRead_pin_eq (hwf : d.conn.WellFormed) (hkind : usesMask p = false) :
    replyRead d p =
      if NamesPin d.conn p 0 ∧ 0 < p.width then
        some (d.next, [frameOf (delivered (fieldsReply cmdRead d.nextId p.width
          [(d.conn.pinAt (p.pin 0)).pinsVal]))])
      else none := by
  have hread := readFirstPin_eq p
  by_cases hin : 0 < p.data.length
  · rw [if_pos hin] at hread
    by_cases hpin : p.pin 0 < d.conn.nbPins
    · have h := replyRead_pin (d := d) (p := p) hkind rfl hread (by rw [hwf.pinsState]; exact hpin)
      rw [h]
      exact if_congr (by simp [NamesPin, hin, hpin, Packet.width, Packet.type]) rfl rfl
    · have hnone := getElem?_past_pins hwf.pinsState hpin
      rw [if_neg fun h => hpin h.1.2]
      simp only [replyRead, readParam_eq, hkind, Bool.false_eq_true, if_false, replyReadPin,
        pinsNoBitsNb, hread, toNat_pinByte, hnone, Option.bind_eq_bind, Option.bind_some,
        Option.bind_none]
  · rw [if_neg hin] at hread
    rw [if_neg fun h => hin h.1.1]
    simp only [replyRead, readParam_eq, hkind, Bool.false_eq_true, if_false, replyReadPin,
      pinsNoBitsNb, hread, Option.bind_eq_bind, Option.bind_some, Option.bind_none]

theorem replyRead_mask_eq (hwf : d.conn.WellFormed) (hkind : usesMask p = true) :
    replyRead d p =
      if HoldsMask d.conn p 0 ∧ (maskedPins d.conn p 0 = [] ∨ 0 < p.width) then
        some (d.next, [frameOf (delivered (fieldsReply cmdRead d.nextId p.width
          ((maskedPins d.conn p 0).map fun pin => (d.conn.pinAt pin).pinsVal)))])
      else none := by
  have hmask := requestMask_holds d.conn p (Nat.zero_le 16)
  by_cases hholds : HoldsMask d.conn p 0
  · rw [if_pos hholds] at hmask
    rw [replyRead_mask hkind rfl hmask (length_maskOf ..) hwf.pinsState]
    exact if_congr (by simp [hholds, maskedPins, Packet.width, Packet.type]) rfl rfl
  · rw [if_neg hholds] at hmask
    rw [replyRead_fault hkind hmask, if_neg fun h => hholds h.1]

theorem treatWrite_pin_eq (hwf : d.conn.WellFormed) (hkind : usesMask p = false) :
    treatWrite d.conn p =
      if NamesPin d.conn p 0 ∧ 8 + max p.width 1 ≤ 8 * p.data.length then
        some
          { d.conn with
            pinsState := d.conn.pinsState.modify (p.pin 0) fun _ =>
              { pinsType := p.type, pinsVal := fieldAt (bitAt p.data) 8 p.width 0 } }
      else none := by
  have hread := readFirstPin_eq p
  by_cases hin : 0 < p.data.length
  · rw [if_pos hin] at hread
    by_cases hpin : p.pin 0 < d.conn.nbPins
    · have h := treatWrite_pin (c := d.conn) (p := p) hkind (show _ = p.type from rfl) rfl hread
        (by rw [hwf.pinsState]; exact hpin)
      rw [h]
      exact if_congr (by simp [NamesPin, hin, hpin, Packet.width]) rfl rfl
    · have hnone := update_past_pins hwf.pinsState hpin
      rw [if_neg fun h => hpin h.1.2]
      simp only [treatWrite, readParam_eq, hkind, Bool.false_eq_true, if_false, treatWritePin,
        pinsNoBitsNb, hread, toNat_pinByte, hnone, Option.bind_eq_bind, Option.bind_some,
        Option.bind_none]
      cases readBitValue p.data 8 (getTypeBitsNb ((p.header &&& 15#8) >>> 1)) <;> rfl
  · rw [if_neg hin] at hread
    rw [if_neg fun h => hin h.1.1]
    simp only [treatWrite, readParam_eq, hkind, Bool.false_eq_true, if_false, treatWritePin,
      pinsNoBitsNb, hread, Option.bind_eq_bind, Option.bind_some, Option.bind_none]

theorem treatWrite_mask_eq (hwf : d.conn.WellFormed) (hkind : usesMask p = true) :
    treatWrite d.conn p =
      if HoldsMask d.conn p 0 ∧
          Fits d.conn.nbPins p.width (maskedPins d.conn p 0).length p.data.length then
        some
          { d.conn with
            pinsState := scatter
              (fun i pin =>
                let val := fieldAt (bitAt p.data) d.conn.nbPins p.width i
                { pin with pinsVal := (val.setWidth 8).setWidth 16 })
              (maskedPins d.conn p 0) d.conn.pinsState }
      else none := by
  have hmask := requestMask_holds d.conn p (Nat.zero_le 16)
  by_cases hholds : HoldsMask d.conn p 0
  · rw [if_pos hholds] at hmask
    have h := treatWrite_mask (c := d.conn) (p := p) hkind rfl hmask (length_maskOf ..)
      hwf.pinsState
    rw [h]
    exact if_congr (by simp [hholds, maskedPins, Packet.width, Packet.type]) rfl rfl
  · rw [if_neg hholds] at hmask
    rw [if_neg fun h => hholds h.1]
    simp only [treatWrite, readParam_eq, hkind, if_true, treatWriteMask, hmask,
      Option.bind_eq_bind, Option.bind_some, Option.bind_none]

theorem replyGetType_pin_eq (hwf : d.conn.WellFormed) (hkind : usesMask p = false) :
    replyGetType d p =
      if NamesPin d.conn p 0 then
        some (d.next, [frameOf (delivered (fieldsReply cmdSetType d.nextId 3
          [(d.conn.pinAt (p.pin 0)).pinsType.setWidth 16]))])
      else none := by
  have hread := readFirstPin_eq p
  by_cases hin : 0 < p.data.length
  · rw [if_pos hin] at hread
    by_cases hpin : p.pin 0 < d.conn.nbPins
    · have hnames : NamesPin d.conn p 0 := ⟨hin, hpin⟩
      rw [if_pos hnames]
      exact replyGetType_pin hkind hread (by rw [hwf.pinsState]; exact hpin)
    · have hnone := getElem?_past_pins hwf.pinsState hpin
      rw [if_neg fun h => hpin h.2]
      simp only [replyGetType, hkind, Bool.false_eq_true, if_false, replyGetTypePin, pinsNoBitsNb,
        hread, toNat_pinByte, hnone, Option.bind_eq_bind, Option.bind_some, Option.bind_none]
  · rw [if_neg hin] at hread
    rw [if_neg fun h => hin h.1]
    simp only [replyGetType, hkind, Bool.false_eq_true, if_false, replyGetTypePin, pinsNoBitsNb,
      hread, Option.bind_eq_bind, Option.bind_none]

theorem replyGetType_mask_eq (hwf : d.conn.WellFormed) (hkind : usesMask p = true) :
    replyGetType d p =
      if HoldsMask d.conn p 0 then
        some (d.next, [frameOf (delivered (fieldsReply cmdSetType d.nextId 3
          ((maskedPins d.conn p 0).map fun pin => (d.conn.pinAt pin).pinsType.setWidth 16)))])
      else none := by
  have hmask := requestMask_holds d.conn p (Nat.zero_le 16)
  by_cases hholds : HoldsMask d.conn p 0
  · rw [if_pos hholds] at hmask
    rw [if_pos hholds]
    exact replyGetType_mask hkind hmask (length_maskOf ..) hwf.pinsState
  · rw [if_neg hholds] at hmask
    rw [replyGetType_fault hkind hmask, if_neg hholds]

theorem treatSetType_pin_eq (hwf : d.conn.WellFormed) (hkind : usesMask p = false) :
    treatSetType d.conn p =
      if NamesPin d.conn p 0 ∧ 8 + 3 ≤ 8 * p.data.length then
        some { d.conn with pinsState := d.conn.pinsState.modify (p.pin 0) fun x =>
          { x with pinsType := (fieldAt (bitAt p.data) 8 3 0).setWidth 8 } }
      else none := by
  have hread := readFirstPin_eq p
  rw [treatSetType, if_neg (by rw [hkind]; decide)]
  by_cases hin : 0 < p.data.length
  · rw [if_pos hin] at hread
    by_cases hpin : p.pin 0 < d.conn.nbPins
    · rw [treatSetTypePin_eq hread (by rw [hwf.pinsState]; exact hpin)]
      exact if_congr (by simp [NamesPin, hin, hpin]) rfl rfl
    · have hnone := update_past_pins hwf.pinsState hpin
      rw [if_neg fun h => hpin h.1.2]
      simp only [treatSetTypePin, pinsNoBitsNb, hread, toNat_pinByte, hnone, Option.bind_eq_bind,
        Option.bind_some, Option.bind_none]
      cases readBitValue p.data 8 pinTypeBitsNb <;> rfl
  · rw [if_neg hin] at hread
    rw [if_neg fun h => hin h.1.1]
    simp only [treatSetTypePin, pinsNoBitsNb, hread, Option.bind_eq_bind, Option.bind_none]

theorem treatSetType_mask_eq (hwf : d.conn.WellFormed) (hkind : usesMask p = true) :
    treatSetType d.conn p =
      if HoldsMask d.conn p 0 ∧
          Fits d.conn.nbPins 3 (maskedPins d.conn p 0).length p.data.length then
        some
          { d.conn with
            pinsState := scatter
              (fun i pin =>
                { pin with pinsType := (fieldAt (bitAt p.data) d.conn.nbPins 3 i).setWidth 8 })
              (maskedPins d.conn p 0) d.conn.pinsState }
      else none := by
  have hmask := requestMask_holds d.conn p (Nat.zero_le 16)
  rw [treatSetType, if_pos hkind]
  by_cases hholds : HoldsMask d.conn p 0
  · rw [if_pos hholds] at hmask
    rw [treatSetTypeMask_eq hmask (length_maskOf ..) hwf.pinsState]
    exact if_congr (by simp [hholds, maskedPins]) rfl rfl
  · rw [if_neg hholds] at hmask
    rw [if_neg fun h => hholds h.1]
    simp only [treatSetTypeMask, hmask, Option.bind_eq_bind, Option.bind_none]

section Failsafe

variable {f : Failsafe}

theorem replyGetFailsafe_pin_eq (hwf : d.conn.WellFormed) (hf : d.conn.failsafe = some f)
    (hkind : usesMask p = false) :
    replyGetFailsafe d p =
      if NamesPin d.conn p 0 then
        some (d.next, [frameOf (delivered (failsafeReply d.nextId f.timeout
          (3 + bits2bytes (3 + getTypeBitsNb (f.entryAt (p.pin 0)).pinState))
          (slotPattern 24 (f.entryAt (p.pin 0)))))])
      else none := by
  have htable := hwf.failsafe f hf
  by_cases hnames : NamesPin d.conn p 0
  · rw [if_pos hnames]
    exact replyGetFailsafe_pin hf hkind (getElem?_pin hnames.1) (by rw [htable]; exact hnames.2)
  · have hread := readFirstPin_eq p
    rw [if_neg hnames]
    by_cases hin : 0 < p.data.length
    · have hpin : ¬ p.pin 0 < d.conn.nbPins := fun h => hnames ⟨hin, h⟩
      have hnone := getElem?_past_pins htable hpin
      rw [if_pos hin] at hread
      simp only [replyGetFailsafe, hf, hkind, Bool.false_eq_true, if_false, replyGetFailsafePin,
        pinsNoBitsNb, hread, toNat_pinByte, hnone, Option.bind_eq_bind, Option.bind_some,
        Option.bind_none]
    · rw [if_neg hin] at hread
      simp only [replyGetFailsafe, hf, hkind, Bool.false_eq_true, if_false, replyGetFailsafePin,
        pinsNoBitsNb, hread, Option.bind_eq_bind, Option.bind_some, Option.bind_none]

theorem replyGetFailsafe_mask_eq (hwf : d.conn.WellFormed) (hf : d.conn.failsafe = some f)
    (hkind : usesMask p = true) :
    let es := f.entriesAt (maskedPins d.conn p 0)
    replyGetFailsafe d p =
      if HoldsMask d.conn p 0 ∧ 16 + es.length + entriesLength es ≤ 2016 then
        some (d.next, [frameOf (delivered (failsafeReply d.nextId f.timeout
          (3 + bits2bytes (16 + es.length + entriesLength es)) (tablePattern 24 es)))])
      else none := by
  intro es
  have hmask := requestMask_holds d.conn p (Nat.zero_le 16)
  by_cases hholds : HoldsMask d.conn p 0
  · rw [if_pos hholds] at hmask
    rw [replyGetFailsafe_mask hf (hwf.failsafe f hf) hkind hmask (length_maskOf ..)]
    exact if_congr (by simp [hholds, es, maskedPins]) rfl rfl
  · rw [if_neg hholds] at hmask
    rw [if_neg fun h => hholds h.1]
    simp only [replyGetFailsafe, hf, hkind, if_true, replyGetFailsafeMask, hmask,
      Option.bind_eq_bind, Option.bind_some, Option.bind_none]

theorem replySetFailsafe_pin_eq (hwf : d.conn.WellFormed) (hf : d.conn.failsafe = some f)
    (hkind : usesMask p = false) :
    replySetFailsafe d p =
      if NamesPin d.conn p 2 ∧ 24 + max p.width 1 ≤ 8 * p.data.length then
        some (d.putFailsafe (fieldAt (bitAt p.data) 0 16 0)
            (f.pinsFailsafe.modify (p.pin 2) fun _ =>
              { pinState := p.type, pinValue := fieldAt (bitAt p.data) 24 p.width 0 }),
          [frameOf (delivered (idReply cmdSetType d.nextId))])
      else none := by
  have hwidth : p.width ≤ 16 := getTypeBitsNb_le p.type
  have htable := hwf.failsafe f hf
  have heq := replySetFailsafe_eq (p := p) hf (show _ = p.type from rfl)
  rw [hkind, ← Packet.width] at heq
  simp only [Bool.false_eq_true, if_false] at heq
  rw [heq]
  -- the timeout is read first, so that the pin number is byte 2
  by_cases hin : 2 < p.data.length
  · rw [if_pos (by omega)]
    by_cases hpin : p.pin 2 < d.conn.nbPins
    · rw [treatSetFailsafePin_eq (getElem?_pin hin) (by rw [htable]; exact hpin) hwidth]
      have hcongr : (24 + max p.width 1 ≤ 8 * p.data.length) ↔
          NamesPin d.conn p 2 ∧ 24 + max p.width 1 ≤ 8 * p.data.length := by
        simp [NamesPin, hin, hpin]
      by_cases hfit : 24 + max p.width 1 ≤ 8 * p.data.length
      · rw [if_pos hfit, if_pos (hcongr.mp hfit)]
        rfl
      · rw [if_neg hfit, if_neg fun h => hfit (hcongr.mpr h)]
        rfl
    · have hread := readPin_eq p (show 2 < 2 ^ 12 by decide)
      rw [if_pos hin] at hread
      have hnone := update_past_pins htable hpin
      have htreat : treatSetFailsafePin f.pinsFailsafe p p.type p.width = none := by
        simp only [treatSetFailsafePin, timeoutBitsNb, pinsNoBitsNb, Nat.reduceMul] at hread ⊢
        simp only [hread, toNat_pinByte, hnone, Option.bind_eq_bind, Option.bind_some]
        cases readBitValue p.data (16 + 8) p.width <;> rfl
      have hno : ¬ (NamesPin d.conn p 2 ∧ 24 + max p.width 1 ≤ 8 * p.data.length) :=
        fun h => hpin h.1.2
      rw [if_neg hno, htreat]
      rfl
  · -- the packet ends before the pin number
    have hread := readPin_eq p (show 2 < 2 ^ 12 by decide)
    rw [if_neg hin] at hread
    have htreat : treatSetFailsafePin f.pinsFailsafe p p.type p.width = none := by
      simp only [treatSetFailsafePin, timeoutBitsNb, pinsNoBitsNb, Nat.reduceMul] at hread ⊢
      simp only [hread, Option.bind_eq_bind, Option.bind_none]
    have hno : ¬ (NamesPin d.conn p 2 ∧ 24 + max p.width 1 ≤ 8 * p.data.length) :=
      fun h => hin h.1.1
    rw [if_neg hno, htreat, Option.map_none, ite_self]

theorem replySetFailsafe_mask_eq (hwf : d.conn.WellFormed) (hf : d.conn.failsafe = some f)
    (hkind : usesMask p = true) :
    replySetFailsafe d p =
      if 2 ≤ p.data.length ∧ HoldsMask d.conn p 16 ∧
          Fits (16 + d.conn.nbPins) p.width (maskedPins d.conn p 16).length p.data.length then
        some (d.putFailsafe (fieldAt (bitAt p.data) 0 16 0)
            (scatter
              (fun i _ =>
                { pinState := p.type
                  pinValue := fieldAt (bitAt p.data) (16 + d.conn.nbPins) p.width i })
              (maskedPins d.conn p 16) f.pinsFailsafe),
          [frameOf (delivered (idReply cmdSetType d.nextId))])
      else none := by
  have hwidth : p.width ≤ 16 := getTypeBitsNb_le p.type
  have heq := replySetFailsafe_eq (p := p) hf (show _ = p.type from rfl)
  have hmask := requestMask_holds d.conn p (Nat.le_refl 16)
  rw [hkind, ← Packet.width] at heq
  simp only [if_true] at heq
  rw [heq]
  -- the timeout, the mask and the values are read one after the other
  by_cases hin : 2 ≤ p.data.length
  · rw [if_pos hin]
    by_cases hholds : HoldsMask d.conn p 16
    · rw [if_pos hholds] at hmask
      rw [treatSetFailsafeMask_eq hmask (length_maskOf ..) (hwf.failsafe f hf) hwidth,
        ← maskedPins]
      by_cases hfit : Fits (16 + d.conn.nbPins) p.width (maskedPins d.conn p 16).length
          p.data.length
      · rw [if_pos hfit, if_pos (And.intro hin (And.intro hholds hfit))]
        rfl
      · have hno : ¬ (2 ≤ p.data.length ∧ HoldsMask d.conn p 16 ∧
            Fits (16 + d.conn.nbPins) p.width (maskedPins d.conn p 16).length p.data.length) :=
          fun h => hfit h.2.2
        rw [if_neg hfit, if_neg hno]
        rfl
    · rw [if_neg hholds] at hmask
      rw [if_neg fun h => hholds h.2.1]
      simp only [treatSetFailsafeMask, timeoutBitsNb, hmask, Option.bind_eq_bind, Option.bind_none,
        Option.map_none]
  · rw [if_neg hin, if_neg fun h => hin h.1]

end Failsafe

end Handlers

end PinProtocol
