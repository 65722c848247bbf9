import PinProtocol.Driver.Operations
import PinProtocol.Firmware.Handlers

/-!
# Requests — the packets that the driver builds

The header of a request, in numbers, and the data of the requests that name one pin or a set of
pins.  A caller-supplied type goes into the header unchecked; `toNat_header` says what comes out.
-/

namespace PinProtocol

open Bits Control

/-! ## Headers -/

theorem toNat_header (cmdNo type kind : BitVec 8) :
    (cmdNo <<< 4 + typeParam type kind).toNat =
      (16 * cmdNo.toNat + 2 * type.toNat + kind.toNat) % 256 := by
  simp [typeParam, Nat.shiftLeft_eq]
  omega

theorem toNat_headerCmd (header : Byte) : (header >>> 4).toNat = header.toNat / 16 := by
  simp [Nat.shiftRight_eq_div_pow]

theorem toNat_headerParam (header : Byte) : (header &&& 15#8).toNat = header.toNat % 16 := by
  have h := Nat.and_two_pow_sub_one_eq_mod header.toNat 4
  simpa using h

theorem toNat_headerType (header : Byte) :
    ((header &&& 15#8) >>> 1).toNat = header.toNat % 16 / 2 := by
  rw [BitVec.toNat_ushiftRight, toNat_headerParam, Nat.shiftRight_eq_div_pow]

/-- A header whose type has three bits is decoded into what it was made of. -/
theorem header_decode (cmdNo type kind : BitVec 8) (hcmd : cmdNo.toNat < 16)
    (htype : type.toNat < 8) (hkind : kind.toNat < 2) :
    (cmdNo <<< 4 + typeParam type kind) >>> 4 = cmdNo ∧
      ((cmdNo <<< 4 + typeParam type kind) &&& 15#8) >>> 1 = type ∧
      (cmdNo <<< 4 + typeParam type kind).toNat % 2 = kind.toNat := by
  refine ⟨BitVec.eq_of_toNat_eq ?_, BitVec.eq_of_toNat_eq ?_, ?_⟩
  · rw [toNat_headerCmd, toNat_header]
    omega
  · rw [toNat_headerType, toNat_header]
    omega
  · rw [toNat_header]
    omega

theorem typeParam_zero (kind : BitVec 8) : typeParam 0#8 kind = kind := by
  simp [typeParam]

/-- The command of a header without a type. -/
theorem headerCmd_plain (cmdNo kind : BitVec 8) (hcmd : cmdNo.toNat < 16)
    (hkind : kind.toNat < 2) : (cmdNo <<< 4 + kind) >>> 4 = cmdNo := by
  have h := header_decode cmdNo 0#8 kind hcmd (by decide) hkind
  rw [typeParam_zero] at h
  exact h.1

/-! ## Requests about one pin -/

theorem pinRequest_eq (cmdNo param pinId : BitVec 8) :
    pinRequest cmdNo param pinId = some (setPacketHeader cmdNo param 1 [pinId]) := by
  have hclear : initPacket (malloc 1) 1 = some [0#8] := initPacket_malloc (by decide)
  simp only [pinRequest, pinsNoBytesNb, pinsNoBitsNb, hclear, Option.bind_eq_bind, Option.bind_some,
    writeByte_zero]
  rfl

/-- The data of a request that carries a pin number and a value of `width` bits behind it. -/
def pinFieldData (pinId : BitVec 8) (width : Nat) (val : BitVec 16) : Buffer :=
  orBits (pinId :: zeros ((7 + width) / 8)) (fieldBits 8 val width)

@[simp] theorem length_pinFieldData (pinId : BitVec 8) (width : Nat) (val : BitVec 16) :
    (pinFieldData pinId width val).length = (7 + width) / 8 + 1 := by
  simp [pinFieldData]

theorem buildPinField {width : Nat} (hpos : 0 < width) (hwidth : width ≤ 16) (pinId : BitVec 8)
    (val : BitVec 16) :
    ((initPacket (malloc (bits2bytes (8 + width))) (bits2bytes (8 + width))).bind fun buffer =>
      (writeBitValue buffer 0 (pinId.setWidth 16) 8).bind fun buffer =>
        writeBitValue buffer 8 val width) = some (pinFieldData pinId width val) := by
  have hsize : bits2bytes (8 + width) = (7 + width) / 8 + 1 := by
    rw [bits2bytes_eq]
    omega
  have hzeros : zeros ((7 + width) / 8 + 1) = 0#8 :: zeros ((7 + width) / 8) := rfl
  have hfit : 8 + max width 1 ≤ 8 * (pinId :: zeros ((7 + width) / 8)).length := by
    simp
    omega
  rw [hsize, initPacket_malloc (by omega), Option.bind_some, hzeros, writeByte_zero,
    Option.bind_some, writeBitValue_eq _ _ (by decide) hwidth, if_pos hfit]
  rfl

theorem genericWriteRequest_eq {valSize : Nat} (hpos : 0 < valSize) (hsize : valSize ≤ 16)
    (pinId pinMode : BitVec 8) (val : BitVec 16) :
    genericWriteRequest pinId pinMode val valSize =
      some (setPacketHeader cmdWrite (typeParam pinMode usePinId) ((7 + valSize) / 8 + 1)
        (pinFieldData pinId valSize val)) := by
  have hbytes : bits2bytes (8 + valSize) = (7 + valSize) / 8 + 1 := by
    rw [bits2bytes_eq]
    omega
  have hbuild := buildPinField hpos hsize pinId val
  rw [hbytes] at hbuild
  rcases Option.bind_eq_some_iff.mp hbuild with ⟨cleared, hclear, hrest⟩
  rcases Option.bind_eq_some_iff.mp hrest with ⟨buffer, hpin, hval⟩
  simp only [genericWriteRequest, pinsNoBitsNb, hclear, hpin, hval, Option.bind_eq_bind,
    Option.bind_some, Option.pure_def, hbytes]

theorem setTypeRequest_eq (pinId type : BitVec 8) :
    setTypeRequest pinId type =
      some (setPacketHeader cmdSetType usePinId 2 (pinFieldData pinId 3 (type.setWidth 16))) := by
  have hbytes : bits2bytes (8 + 3) = 2 := rfl
  have hbuild := buildPinField (show 0 < 3 by decide) (show 3 ≤ 16 by decide) pinId
    (type.setWidth 16)
  rw [hbytes] at hbuild
  rcases Option.bind_eq_some_iff.mp hbuild with ⟨cleared, hclear, hrest⟩
  rcases Option.bind_eq_some_iff.mp hrest with ⟨buffer, hpin, hval⟩
  simp only [setTypeRequest, pinsNoBitsNb, pinTypeBitsNb, hclear, hpin, hval, Option.bind_eq_bind,
    Option.bind_some, Option.pure_def, hbytes]

section PinFieldData

variable (pinId : BitVec 8) (width : Nat) (val : BitVec 16)

theorem readPin_pinFieldData :
    readBitValue (pinFieldData pinId width val) 0 8 = some (pinId.setWidth 16) := by
  have hfit : 0 + max 8 1 ≤ 8 * (pinFieldData pinId width val).length := by simp
  have hbits : ∀ i < 8, bitAt (pinFieldData pinId width val) (0 + i) =
      pinId.toNat.testBit (8 - 1 - i) := by
    intro i hi
    have hbefore : fieldBits 8 val width (0 + i) = false := fieldBits_before val (by omega)
    have hbyte : bitAt (pinId :: zeros ((7 + width) / 8)) (0 + i) =
        pinId.toNat.testBit (8 - 1 - i) := by
      simp [bitAt, Nat.div_eq_of_lt hi, Nat.mod_eq_of_lt hi, BitVec.getMsbD, hi,
        BitVec.testBit_toNat]
    rw [pinFieldData, bitAt_orBits, hbefore, Bool.and_false, Bool.or_false, hbyte]
  have hpin : pinId.toNat % 2 ^ 8 = pinId.toNat := Nat.mod_eq_of_lt pinId.isLt
  rw [readBitValue_eq (by decide) (by decide), if_pos hfit, fieldRead_eq_mod (by decide) hbits,
    hpin, setWidth_eq_ofNat]

theorem fieldAt_pinFieldData {width : Nat} (hwidth : width ≤ 16) :
    fieldAt (bitAt (pinFieldData pinId width val)) 8 width 0 =
      BitVec.ofNat 16 (val.toNat % 2 ^ width) := by
  have hbits : ∀ i < width, bitAt (pinFieldData pinId width val) (8 + i) =
      val.toNat.testBit (width - 1 - i) := by
    intro i hi
    have hin : 8 + i < 8 * (pinId :: zeros ((7 + width) / 8)).length := by
      simp
      omega
    have hclear : bitAt (pinId :: zeros ((7 + width) / 8)) (8 + i) = false := by
      have hdiv : (8 + i) / 8 = i / 8 + 1 := by omega
      have htail := bitAt_zeros ((7 + width) / 8) i
      have hmod : (8 + i) % 8 = i % 8 := by omega
      simpa [bitAt, hdiv, hmod] using htail
    rw [pinFieldData, bitAt_orBits, hclear, decide_eq_true hin, fieldBits_inside val hi hwidth]
    simp
  rw [fieldAt, Nat.mul_zero, Nat.add_zero, fieldRead_eq_mod (by omega) hbits]

end PinFieldData

/-! ## Requests about a set of pins -/

/-- The data of a request that carries the mask of `nbPins` pins and nothing else. -/
def maskData (nbPins : Nat) (m : Mask) : Buffer :=
  orBits (zeros ((nbPins - 1) / 8 + 1)) (maskBits m nbPins)

@[simp] theorem length_maskData (nbPins : Nat) (m : Mask) :
    (maskData nbPins m).length = (nbPins - 1) / 8 + 1 := by
  simp [maskData]

theorem bitAt_maskData (nbPins : Nat) (m : Mask) (j : Nat) :
    bitAt (maskData nbPins m) j = maskBits m nbPins j := by
  by_cases hj : j < nbPins
  · have hin : j < 8 * (zeros ((nbPins - 1) / 8 + 1)).length := by
      rw [length_zeros]
      omega
    rw [maskData, bitAt_orBits, bitAt_zeros, decide_eq_true hin]
    rfl
  · rw [maskData, bitAt_orBits, bitAt_zeros]
    simp [maskBits, hj]

theorem usedPins_maskData (nbPins : Nat) (m : Mask) :
    usedPins (maskOf (bitAt (maskData nbPins m)) 0 nbPins) nbPins = usedPins m nbPins := by
  refine usedPins_maskOf fun i hi => ?_
  rw [Nat.zero_add, bitAt_maskData, maskBits, decide_eq_true hi, Bool.true_and]

/-- Clear the data, write the mask. -/
theorem buildMask {nbPins : Nat} {m : Mask} (hbyte : nbPins < 2 ^ 8) (hlen : nbPins ≤ m.length) :
    ((initPacket (malloc ((nbPins - 1) / 8 + 1)) ((nbPins - 1) / 8 + 1)).bind fun data =>
      writeMask data m nbPins) = some (maskData nbPins m) := by
  have hfit : nbPins ≤ 8 * (zeros ((nbPins - 1) / 8 + 1)).length := by
    rw [length_zeros]
    omega
  rw [initPacket_malloc (by omega), Option.bind_some, writeMask_eq _ hlen (by omega), if_pos hfit]
  rfl

theorem readValueMaskRequest_eq {c : Connection} {mask : Mask} (hlen : c.nbPins ≤ mask.length)
    (type : BitVec 8) :
    readValueMaskRequest c mask type =
      some (setPacketHeader cmdRead (typeParam type useMask) ((c.nbPins - 1) / 8 + 1)
        (maskData c.nbPins mask)) := by
  rcases Option.bind_eq_some_iff.mp (buildMask c.nbPins_lt hlen) with ⟨cleared, hclear, hmask⟩
  simp only [readValueMaskRequest, bits2bytes_eq, hclear, hmask, Option.bind_eq_bind,
    Option.bind_some, Option.pure_def]

/-- The request of a masked type query carries one pin less than the mask has. -/
theorem getTypeMaskRequest_eq {c : Connection} {mask : Mask} (htwo : 2 ≤ c.nbPins)
    (hlen : c.nbPins ≤ mask.length) :
    getTypeMaskRequest c mask =
      some (setPacketHeader cmdGetType useMask ((c.nbPins - 2) / 8 + 1)
        (maskData (c.nbPins - 1) mask)) := by
  have hbound := c.nbPins_lt
  have hbits : (c.nbPins + 2 ^ 32 - 1) % 2 ^ 32 = c.nbPins - 1 := by omega
  have hparam : (c.nbPins - 1) % 2 ^ 8 = c.nbPins - 1 := Nat.mod_eq_of_lt (by omega)
  have hsize : bits2bytesUnsigned (c.nbPins - 1) = (c.nbPins - 1 - 1) / 8 + 1 :=
    bits2bytesUnsigned_eq (by omega) (by omega)
  have hbuild := buildMask (show c.nbPins - 1 < 2 ^ 8 by omega) (m := mask) (by omega)
  rcases Option.bind_eq_some_iff.mp hbuild with ⟨cleared, hclear, hmask⟩
  have hless : c.nbPins - 1 - 1 = c.nbPins - 2 := by omega
  simp only [getTypeMaskRequest, Option.bind_eq_bind, Option.pure_def]
  rw [hbits, hparam, hsize, hclear, Option.bind_some, hmask, Option.bind_some, hless]

/-- Without another pin the request is empty: the byte count wraps in the header. -/
theorem getTypeMaskRequest_one {c : Connection} {mask : Mask} (hone : c.nbPins = 1)
    {p : Packet} (hp : getTypeMaskRequest c mask = some p) : p.size = 0 := by
  have hbits : (1 + 2 ^ 32 - 1) % 2 ^ 32 = 0 := by decide
  rcases Option.bind_eq_some_iff.mp hp with ⟨cleared, _, hrest⟩
  rcases Option.bind_eq_some_iff.mp hrest with ⟨data, _, hpacket⟩
  rw [hone, hbits, bits2bytesUnsigned_zero] at hpacket
  cases hpacket
  have hword : 2 ^ 29 % 2 ^ 16 = 0 := by norm_num
  exact BitVec.eq_of_toNat_eq ((BitVec.toNat_ofNat _ _).trans hword)

/-- The data of a request that carries the mask of `nbPins` pins and a run of values behind it. -/
def maskFieldsData (nbPins width : Nat) (m : Mask) (vals : List (BitVec 16)) : Buffer :=
  orBits (zeros ((nbPins + width * vals.length - 1) / 8 + 1)) fun j =>
    maskBits m nbPins j || fieldsBits nbPins width vals j

@[simp] theorem length_maskFieldsData (nbPins width : Nat) (m : Mask) (vals : List (BitVec 16)) :
    (maskFieldsData nbPins width m vals).length =
      (nbPins + width * vals.length - 1) / 8 + 1 := by
  simp [maskFieldsData]

section MaskFieldsData

variable {nbPins width : Nat} {m : Mask} {values : List (BitVec 16)}

/-- Clear the data, write the mask, write the values. -/
theorem buildMaskFields (hpos : 0 < nbPins) (hbyte : nbPins < 2 ^ 8) (hlen : nbPins ≤ m.length)
    (hwidth : width ≤ 16) {k : Nat} (hk : k ≤ nbPins) (hvalues : k ≤ values.length) :
    ((initPacket (malloc ((nbPins + width * k - 1) / 8 + 1))
        ((nbPins + width * k - 1) / 8 + 1)).bind fun data =>
      (writeMask data m nbPins).bind fun data => writeValueList data nbPins values k width) =
      if Fits nbPins width k ((nbPins + width * k - 1) / 8 + 1) then
        some (maskFieldsData nbPins width m (values.take k))
      else none := by
  have hbits : width * k ≤ 16 * 255 := Nat.mul_le_mul hwidth (by omega)
  have hmask : nbPins ≤ 8 * (zeros ((nbPins + width * k - 1) / 8 + 1)).length := by
    rw [length_zeros]
    omega
  have hcount : (values.take k).length = k := by simp [hvalues]
  rw [initPacket_malloc (by omega), Option.bind_some, writeMask_eq _ hlen (by omega),
    if_pos hmask, Option.bind_some, writeValueList_eq _ hvalues (by omega) hwidth, length_orBits,
    length_zeros, orBits_orBits, maskFieldsData, hcount]

theorem bitAt_maskFieldsData {j : Nat} :
    bitAt (maskFieldsData nbPins width m values) j =
      (decide (j < 8 * ((nbPins + width * values.length - 1) / 8 + 1)) &&
        (maskBits m nbPins j || fieldsBits nbPins width values j)) := by
  simp [maskFieldsData, bitAt_orBits]

/-- As long as no value spills over its field, the mask arrives unchanged. -/
theorem usedPins_maskFieldsData (hpos : 0 < nbPins) (htight : AllTight nbPins width values) :
    usedPins (maskOf (bitAt (maskFieldsData nbPins width m values)) 0 nbPins) nbPins =
      usedPins m nbPins := by
  refine usedPins_maskOf fun i hi => ?_
  have hin : i < 8 * ((nbPins + width * values.length - 1) / 8 + 1) := by omega
  rw [Nat.zero_add, bitAt_maskFieldsData, decide_eq_true hin, htight.fieldsBits_before hi]
  simp [maskBits, hi, pinUsed]

/-- The values are behind the mask. -/
theorem fieldAt_maskFieldsData {i : Nat} (hi : i < values.length) :
    fieldAt (bitAt (maskFieldsData nbPins width m values)) nbPins width i =
      fieldAt (fieldsBits nbPins width values) nbPins width i := by
  refine congrArg (BitVec.ofNat 16) (fieldRead_congr fun r hr => ?_)
  have hle : width * (i + 1) ≤ width * values.length := Nat.mul_le_mul_left _ hi
  have hsucc : width * (i + 1) = width * i + width := Nat.mul_succ _ _
  have hin : nbPins + width * i + r < 8 * ((nbPins + width * values.length - 1) / 8 + 1) := by
    omega
  have hmask : ¬ nbPins + width * i + r < nbPins := by omega
  rw [bitAt_maskFieldsData, decide_eq_true hin]
  simp [maskBits, hmask]

end MaskFieldsData

theorem bits2bytesUnsigned_fields {nbPins width n : Nat} (hpos : 0 < nbPins)
    (hbound : nbPins + width * n ≤ 2 ^ 16) :
    bits2bytesUnsigned (nbPins + n * width) = (nbPins + width * n - 1) / 8 + 1 := by
  have hint : nbPins + width * n ≤ 2 ^ 32 := Nat.le_trans hbound (by decide)
  rw [Nat.mul_comm, bits2bytesUnsigned_eq (by omega) hint]

section MaskedWrites

variable {c : Connection} {mask : Mask} {values : List (BitVec 16)}

theorem writeValueMaskRequest_eq (hpos : 0 < c.nbPins) (hlen : c.nbPins ≤ mask.length)
    {type : BitVec 8} (hbits : 0 < getTypeBitsNb type)
    (hvalues : values.length = (usedPins mask c.nbPins).length) :
    writeValueMaskRequest c mask type values =
      some (setPacketHeader cmdWrite (typeParam type useMask)
        ((c.nbPins + getTypeBitsNb type * values.length - 1) / 8 + 1)
        (maskFieldsData c.nbPins (getTypeBitsNb type) mask values)) := by
  have hused := length_usedPins_le mask c.nbPins
  have hword := c.nbPins_lt
  have hwidth := getTypeBitsNb_le type
  have htotal : getTypeBitsNb type * values.length ≤ 16 * 255 :=
    Nat.mul_le_mul hwidth (by omega)
  have hsize := bits2bytesUnsigned_fields hpos
    (show c.nbPins + getTypeBitsNb type * values.length ≤ 2 ^ 16 by omega)
  have hfits : Fits c.nbPins (getTypeBitsNb type) values.length
      ((c.nbPins + getTypeBitsNb type * values.length - 1) / 8 + 1) :=
    fits_of_le hbits (by omega)
  have hbuild := buildMaskFields (k := values.length) hpos hword hlen hwidth (by omega)
    (Nat.le_refl values.length)
  rw [if_pos hfits, List.take_length] at hbuild
  rcases Option.bind_eq_some_iff.mp hbuild with ⟨cleared, hclear, hrest⟩
  rcases Option.bind_eq_some_iff.mp hrest with ⟨masked, hmask, hwrite⟩
  have hcount := maskNbPinsUsed_eq hlen hword
  rw [← hvalues] at hcount
  simp only [writeValueMaskRequest, Option.bind_eq_bind, Option.pure_def]
  rw [hcount, Option.bind_some, hsize, hclear, Option.bind_some, hmask, Option.bind_some, hwrite,
    Option.bind_some]

theorem setTypeMaskRequest_eq (hpos : 0 < c.nbPins) (hlen : c.nbPins ≤ mask.length)
    (hvalues : values.length = (usedPins mask c.nbPins).length) :
    setTypeMaskRequest c mask values =
      some (setPacketHeader cmdSetType useMask ((c.nbPins + 3 * values.length - 1) / 8 + 1)
        (maskFieldsData c.nbPins 3 mask values)) := by
  have hused := length_usedPins_le mask c.nbPins
  have hword := c.nbPins_lt
  have hfits : Fits c.nbPins 3 values.length ((c.nbPins + 3 * values.length - 1) / 8 + 1) :=
    fits_of_le (by decide) (by omega)
  have hbuild := buildMaskFields (k := values.length) hpos hword hlen (show 3 ≤ 16 by decide)
    (by omega) (Nat.le_refl values.length)
  rw [if_pos hfits, List.take_length] at hbuild
  rcases Option.bind_eq_some_iff.mp hbuild with ⟨cleared, hclear, hrest⟩
  rcases Option.bind_eq_some_iff.mp hrest with ⟨masked, hmask, hwrite⟩
  simp only [setTypeMaskRequest, maskNbPinsUsed_eq hlen hword, ← hvalues, pinTypeBitsNb,
    bits2bytes_eq, hclear, hmask, hwrite, Option.bind_eq_bind, Option.bind_some, Option.pure_def]

end MaskedWrites

end PinProtocol
