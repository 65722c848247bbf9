import PinProtocol.System.DeviceLink

/-!
# PinOperations — the operations on one pin, over the device

One equation per driver operation that names a single pin: what the caller gets, what the driver
caches, and what the device looks like afterwards.
-/

namespace PinProtocol

open Bits Control

/-! ## Requests as the device sees them -/

/-- The kind of addressing survives, whatever the type has done to the rest of the header. -/
theorem usesMask_request (cmdNo type kind : BitVec 8) (size : Nat) (data : Buffer) :
    usesMask (delivered (setPacketHeader cmdNo (typeParam type kind) size data)) =
      (kind.toNat % 2 == 1) := by
  have hheader := toNat_header cmdNo type kind
  have hparity : (cmdNo <<< 4 + typeParam type kind).toNat % 2 = kind.toNat % 2 := by omega
  simp only [usesMask, header_delivered, setPacketHeader, hparity]
  rfl

theorem usesMask_pinRequest (cmdNo type : BitVec 8) (size : Nat) (data : Buffer) :
    usesMask (delivered (setPacketHeader cmdNo (typeParam type usePinId) size data)) = false :=
  usesMask_request cmdNo type usePinId size data

theorem usesMask_maskRequest (cmdNo type : BitVec 8) (size : Nat) (data : Buffer) :
    usesMask (delivered (setPacketHeader cmdNo (typeParam type useMask) size data)) = true :=
  usesMask_request cmdNo type useMask size data

theorem data_request (cmdNo param : BitVec 8) {size : Nat} {data : Buffer}
    (hsize : size = data.length) (hword : size < 2 ^ 16) :
    (delivered (setPacketHeader cmdNo param size data)).data = data := by
  have hnat : (setPacketHeader cmdNo param size data).size.toNat = size := toNat_ofNat_size hword
  rw [data_delivered, hnat, hsize]
  exact List.take_length

/-! ## One field in a reply -/

theorem allTight_singleton (width : Nat) (v : BitVec 16) : AllTight 8 width [v] := by
  intro i hi
  have hzero : i = 0 := by simpa using hi
  subst hzero
  exact Or.inl (by simp)

theorem fieldAt_singleton {width : Nat} (hwidth : width ≤ 16) (v : BitVec 16) :
    fieldAt (fieldsBits 8 width [v]) 8 width 0 = BitVec.ofNat 16 (v.toNat % 2 ^ width) :=
  (allTight_singleton width v).fieldAt_eq hwidth (fun _ _ _ => rfl) (by simp) (by omega)

/-- The value of the single field of a reply, as the driver reads it. -/
theorem readBitValue_reply (cmdNo id : BitVec 8) {width : Nat} (hpos : 0 < width)
    (hwidth : width ≤ 16) (v : BitVec 16) :
    readBitValue (delivered (fieldsReply cmdNo id width [v])).data 8 width =
      some (BitVec.ofNat 16 (v.toNat % 2 ^ width)) := by
  have hbits : width * [v].length ≤ 16 * 255 := by
    simp
    omega
  have hread := readField_eq (delivered (fieldsReply cmdNo id width [v])).data
    (show 0 < 1 by decide) (show 8 + width * 1 < 2 ^ 16 by omega) hwidth
  have hfit : 8 + width * 0 + max width 1 ≤
      8 * (delivered (fieldsReply cmdNo id width [v])).data.length := by
    rw [length_delivered_fieldsReply cmdNo id hbits, List.length_singleton]
    omega
  rw [if_pos hfit, fieldAt_delivered_fieldsReply cmdNo id hbits,
    fieldAt_singleton hwidth, Nat.mul_zero, Nat.add_zero] at hread
  exact hread

/-! ## The operations -/

section Operations

variable (b : Build) (c : Connection) (d : Device) {pin : BitVec 8}

theorem genericRead_device {mode : BitVec 8} (hmode : mode.toNat < 8)
    (hbits : 0 < getTypeBitsNb mode) (hdev : pin.toNat < d.conn.pinsState.length)
    (hdrv : pin.toNat < c.pinsState.length) :
    let v := BitVec.ofNat 16 ((d.conn.pinAt pin.toNat).pinsVal.toNat % 2 ^ getTypeBitsNb mode)
    genericRead (deviceLink b) c d pin mode =
      some
        { ret := 0
          out := v
          conn :=
            { c with pinsState := c.pinsState.modify pin.toNat fun x => { x with pinsVal := v } }
          world := d.next } := by
  intro v
  have hdecode := header_decode cmdRead mode usePinId (by decide) hmode (by decide)
  have hwidth := getTypeBitsNb_le mode
  have hvals : getTypeBitsNb mode * [(d.conn.pinAt pin.toNat).pinsVal].length ≤ 16 * 255 := by
    rw [List.length_singleton]
    omega
  have hcmd : (delivered (setPacketHeader cmdRead (typeParam mode usePinId) 1 [pin])).header >>> 4 =
      cmdRead := hdecode.1
  -- the device finds the pin number in the only byte of the request
  have hserve : dispatch b d (delivered
      (setPacketHeader cmdRead (typeParam mode usePinId) 1 [pin])) =
        some (d.next, [frameOf (delivered (fieldsReply cmdRead d.nextId (getTypeBitsNb mode)
          [(d.conn.pinAt pin.toNat).pinsVal]))]) := by
    rw [dispatch_read hcmd, replyRead_pin (usesMask_pinRequest cmdRead mode 1 [pin])
      (congrArg getTypeBitsNb hdecode.2.1) (readByte_eq pin []) hdev, if_pos hbits]
  have hrequest : genericReadRequest pin mode =
      some (setPacketHeader cmdRead (typeParam mode usePinId) 1 [pin]) :=
    pinRequest_eq cmdRead (typeParam mode usePinId) pin
  have hfits : (setPacketHeader cmdRead (typeParam mode usePinId) 1 [pin]).FitsBuild b :=
    FitsBuild_of_le_three b _ _ (by decide) rfl
  rw [genericRead, operation_device hrequest hfits hserve (fieldsReply_fits cmdRead d.nextId hvals)
    (fieldsReply_pos cmdRead d.nextId hvals)]
  simp only [genericReadApply, replyIdBitsNb, readBitValue_reply cmdRead d.nextId hbits hwidth,
    update_eq hdrv, Option.bind_eq_bind, Option.bind_some, Option.pure_def, Option.map_some]
  rfl

theorem genericWrite_device {mode : BitVec 8} (hmode : mode.toNat < 8) {valSize : Nat}
    (hsize : getTypeBitsNb mode = valSize) (hpos : 0 < valSize)
    (hdev : pin.toNat < d.conn.pinsState.length) (hdrv : pin.toNat < c.pinsState.length)
    (val : BitVec 16) :
    genericWrite (deviceLink b) c d pin mode val valSize =
      some
        { ret := 0
          out := ()
          conn :=
            { c with pinsState := c.pinsState.modify pin.toNat fun x => { x with pinsVal := val } }
          world := d.put
            { d.conn with
              pinsState := d.conn.pinsState.modify pin.toNat fun _ =>
                { pinsType := mode, pinsVal := BitVec.ofNat 16 (val.toNat % 2 ^ valSize) } } } := by
  have hdecode := header_decode cmdWrite mode usePinId (by decide) hmode (by decide)
  have hwidth : valSize ≤ 16 := hsize ▸ getTypeBitsNb_le mode
  have hrequest := genericWriteRequest_eq hpos hwidth pin mode val
  have hfits : (setPacketHeader cmdWrite (typeParam mode usePinId) ((7 + valSize) / 8 + 1)
      (pinFieldData pin valSize val)).FitsBuild b :=
    FitsBuild_of_le_three b _ _ (by omega) (length_pinFieldData pin valSize val).symm
  have hdata := data_request cmdWrite (typeParam mode usePinId)
    (length_pinFieldData pin valSize val).symm (by omega)
  have hfit : 8 + max valSize 1 ≤ 8 * (pinFieldData pin valSize val).length := by
    rw [length_pinFieldData]
    omega
  have hpin := readPin_pinFieldData pin valSize val
  rw [← hdata] at hpin
  -- the device finds the pin and the low bits of the value, and answers with the id alone
  have htreat := treatWrite_pin (c := d.conn)
    (usesMask_pinRequest cmdWrite mode ((7 + valSize) / 8 + 1) (pinFieldData pin valSize val))
    hdecode.2.1 hsize hpin hdev
  rw [hdata, if_pos hfit, fieldAt_pinFieldData pin val hwidth] at htreat
  have hserve := dispatch_write (b := b) (d := d) (p := delivered
    (setPacketHeader cmdWrite (typeParam mode usePinId) ((7 + valSize) / 8 + 1)
      (pinFieldData pin valSize val))) hdecode.1
  rw [htreat, Option.map_some] at hserve
  rw [genericWrite, operation_device hrequest hfits hserve (idReply_fits cmdWrite d.nextId)
    (idReply_pos cmdWrite d.nextId)]
  simp only [genericWriteApply, update_eq hdrv, Option.bind_eq_bind, Option.bind_some,
    Option.pure_def, Option.map_some]

theorem getType_device (hdev : pin.toNat < d.conn.pinsState.length)
    (hdrv : pin.toNat < c.pinsState.length) :
    let t := BitVec.ofNat 8 ((d.conn.pinAt pin.toNat).pinsType.toNat % 2 ^ 3)
    getType (deviceLink b) c d pin =
      some
        { ret := 0
          out := t
          conn :=
            { c with pinsState := c.pinsState.modify pin.toNat fun x => { x with pinsType := t } }
          world := d.next } := by
  intro t
  have hcmd : (delivered (setPacketHeader cmdGetType usePinId 1 [pin])).header >>> 4 = cmdGetType :=
    headerCmd_plain cmdGetType usePinId (by decide) (by decide)
  have hkind := usesMask_pinRequest cmdGetType 0#8 1 [pin]
  rw [typeParam_zero] at hkind
  have hvals : 3 * [(d.conn.pinAt pin.toNat).pinsType.setWidth 16].length ≤ 16 * 255 := by simp
  have hserve : dispatch b d (delivered (setPacketHeader cmdGetType usePinId 1 [pin])) =
      some (d.next, [frameOf (delivered (fieldsReply cmdSetType d.nextId 3
        [(d.conn.pinAt pin.toNat).pinsType.setWidth 16]))]) := by
    rw [dispatch_getType hcmd, replyGetType_pin hkind (readByte_eq pin []) hdev]
  have hrequest : getTypeRequest pin = some (setPacketHeader cmdGetType usePinId 1 [pin]) :=
    pinRequest_eq cmdGetType usePinId pin
  have hfits : (setPacketHeader cmdGetType usePinId 1 [pin]).FitsBuild b :=
    FitsBuild_of_le_three b _ _ (by decide) rfl
  have hread := readBitValue_reply cmdSetType d.nextId (show 0 < 3 by decide)
    (show 3 ≤ 16 by decide) ((d.conn.pinAt pin.toNat).pinsType.setWidth 16)
  -- three bits of the type arrive
  have hval : (BitVec.ofNat 16 (((d.conn.pinAt pin.toNat).pinsType.setWidth 16).toNat %
      2 ^ 3)).setWidth 8 = t := by
    refine BitVec.eq_of_toNat_eq ?_
    simp [t]
  rw [getType, operation_device hrequest hfits hserve (fieldsReply_fits cmdSetType d.nextId hvals)
    (fieldsReply_pos cmdSetType d.nextId hvals)]
  simp only [getTypeApply, replyIdBitsNb, pinTypeBitsNb, hread, hval, update_eq hdrv,
    Option.bind_eq_bind, Option.bind_some, Option.pure_def, Option.map_some]

theorem setType_device {type : BitVec 8} (htype : type.toNat < 8)
    (hdev : pin.toNat < d.conn.pinsState.length) (hdrv : pin.toNat < c.pinsState.length) :
    setType (deviceLink b) c d pin type =
      some
        { ret := 1
          out := ()
          conn :=
            { c with
              pinsState := c.pinsState.modify pin.toNat fun x => { x with pinsType := type } }
          world := d.put
            { d.conn with
              pinsState := d.conn.pinsState.modify pin.toNat fun x =>
                { x with pinsType := type } } } := by
  have hcmd := headerCmd_plain cmdSetType usePinId (by decide) (by decide)
  have hkind := usesMask_pinRequest cmdSetType 0#8 2 (pinFieldData pin 3 (type.setWidth 16))
  rw [typeParam_zero] at hkind
  have hdata := data_request cmdSetType usePinId
    (length_pinFieldData pin 3 (type.setWidth 16)).symm (by decide)
  have hpin := readPin_pinFieldData pin 3 (type.setWidth 16)
  have hfit : 8 + 3 ≤ 8 * (pinFieldData pin 3 (type.setWidth 16)).length := by simp
  rw [← hdata] at hpin
  have htreat := treatSetTypePin_eq (c := d.conn) hpin hdev
  rw [hdata, if_pos hfit, fieldAt_pinFieldData pin _ (by decide)] at htreat
  -- a type below 8 arrives as it is
  have hval : (BitVec.ofNat 16 ((type.setWidth 16).toNat % 2 ^ 3)).setWidth 8 = type := by
    refine BitVec.eq_of_toNat_eq ?_
    simp
    omega
  rw [hval] at htreat
  have hserve := dispatch_setType (b := b) (d := d) (p := delivered
    (setPacketHeader cmdSetType usePinId 2 (pinFieldData pin 3 (type.setWidth 16)))) hcmd
  rw [treatSetType, if_neg (by rw [hkind]; decide), htreat, Option.map_some] at hserve
  have hfits : (setPacketHeader cmdSetType usePinId 2
      (pinFieldData pin 3 (type.setWidth 16))).FitsBuild b :=
    FitsBuild_of_le_three b _ _ (by decide) (length_pinFieldData pin 3 _).symm
  rw [setType, operation_device (setTypeRequest_eq pin type) hfits hserve
    (idReply_fits cmdSetType d.nextId) (idReply_pos cmdSetType d.nextId)]
  simp only [setTypeApply, update_eq hdrv, Option.bind_eq_bind, Option.bind_some,
    Option.pure_def, Option.map_some]

end Operations

end PinProtocol
