import PinProtocol.Firmware.Acceptance
import PinProtocol.System.FailsafeMirror

/-!
# RequestSizes — masked requests and the bytes they allocate

The four masked requests of the driver count the bits of their mask and of their values, and stay
inside the bytes they allocate for them.  The device counts the pins of the mask that arrives: it
reads past the data if the values, on their way into their fields, have set bits of the mask.

`spilledPins` lists the pins that are added to the mask in this way; with it the sizes of the
requests are settled for all values (`maskedRequests_sized_iff`).
-/

namespace PinProtocol

open Bits Control

/-! ## Pins added to a mask -/

/-- A list filtered by two conditions, one after the other. -/
theorem length_filter_or {α : Type} (f g : α → Bool) (l : List α) :
    (l.filter fun a => f a || g a).length =
      (l.filter f).length + (l.filter fun a => !f a && g a).length := by
  induction l with
  | nil => rfl
  | cons a l ih =>
      cases hf : f a <;> cases hg : g a <;> simp [hf, hg, ih]
      all_goals omega

/-- A value behind the mask of `nbPins` pins sets the mask bit of `pin`: its field starts in the
byte of that bit, and the bit of the value that falls on it is set. -/
def spillsOn (nbPins width : Nat) (values : List (BitVec 16)) (pin : Nat) : Bool :=
  values.zipIdx.any fun p =>
    decide ((nbPins + width * p.2) / 8 = pin / 8) &&
      intBit p.1 (nbPins + width * p.2 + width - 1 - pin)

/-- The pins that are not in the mask, but in the mask that arrives. -/
def spilledPins (nbPins width : Nat) (m : Mask) (values : List (BitVec 16)) : List Nat :=
  (List.range' 0 nbPins).filter fun pin => !pinUsed m pin && spillsOn nbPins width values pin

section Spill

variable {nbPins width : Nat} {m : Mask} {values : List (BitVec 16)}

/-- The mask may start at any byte of the data. -/
theorem fieldsBits_eq_spillsOn (width : Nat) (values : List (BitVec 16)) {base pin : Nat}
    (hbase : base % 8 = 0) (hpin : pin < nbPins) :
    fieldsBits (base + nbPins) width values (base + pin) = spillsOn nbPins width values pin := by
  have hfield : ∀ p : BitVec 16 × Nat,
      fieldBits (base + nbPins + width * p.2) p.1 width (base + pin) =
        (decide ((nbPins + width * p.2) / 8 = pin / 8) &&
          intBit p.1 (nbPins + width * p.2 + width - 1 - pin)) := by
    intro p
    have hbyte : 8 * ((base + nbPins + width * p.2) / 8) ≤ base + pin ↔
        (nbPins + width * p.2) / 8 = pin / 8 := by
      omega
    -- the bit is in front of the field, so that only its byte matters
    have hend : base + pin < base + nbPins + width * p.2 + width := by omega
    have hidx : base + nbPins + width * p.2 + width - 1 - (base + pin) =
        nbPins + width * p.2 + width - 1 - pin := by
      omega
    rw [fieldBits, decide_eq_true hend, Bool.and_true, hidx]
    simp only [hbyte]
  simp only [fieldsBits, spillsOn, hfield]

/-- The mask that arrives uses the pins that were meant, and those spilled on. -/
theorem length_usedPins_arrived {f : Nat → Bool} {base : Nat}
    (hf : ∀ pin < nbPins,
      f (base + pin) = (pinUsed m pin || spillsOn nbPins width values pin)) :
    (usedPins (maskOf f base nbPins) nbPins).length =
      (usedPins m nbPins).length + (spilledPins nbPins width m values).length := by
  rw [usedPins, usedPins, usedFrom, usedFrom, spilledPins, ← length_filter_or]
  refine congrArg List.length (List.filter_congr fun pin hpin => ?_)
  have hlt : pin < nbPins := by simpa [List.mem_range'] using hpin
  rw [pinUsed_maskOf hlt, hf pin hlt]

end Spill

/-! ## Sizes -/

/-- The pins that are spilled on, if any, find their values in the last byte of the request. -/
def SpillFits (nbPins width : Nat) (m : Mask) (values : List (BitVec 16)) : Prop :=
  nbPins + width * ((usedPins m nbPins).length + (spilledPins nbPins width m values).length) ≤
    8 * ((nbPins + width * (usedPins m nbPins).length + 7) / 8)

instance (nbPins width : Nat) (m : Mask) (values : List (BitVec 16)) :
    Decidable (SpillFits nbPins width m values) :=
  inferInstanceAs (Decidable (_ ≤ _))

/-- The request is built inside the bytes that it allocates and declares, the frame fits the buffer
of the device (an embedded one with up to 16 pins), and the device treats it without reading past
its data. -/
def RequestSized (b : Build) (d : Device) (request : Option Packet) : Prop :=
  ∃ p, request = some p ∧ p.size.toNat = p.data.length ∧
    ((b.embedded = true → d.conn.nbPins ≤ 16) → (frameOf (delivered p)).length ≤ b.buffSize) ∧
    (dispatch b d (delivered p)).isSome

/-- A request of at most 16 bits, and 17 for each pin, fits every buffer. -/
theorem frame_le_buffSize {b : Build} {nbPins size : Nat} (hbyte : nbPins < 2 ^ 8)
    (hsize : size ≤ (15 + 17 * nbPins) / 8 + 1) (hpins : b.embedded = true → nbPins ≤ 16) :
    size + 4 ≤ b.buffSize := by
  unfold Build.buffSize
  cases hb : b.embedded with
  | true =>
      have hfew := hpins hb
      rw [if_pos rfl]
      omega
  | false =>
      rw [if_neg Bool.false_ne_true]
      omega

section Requests

variable {b : Build} {d : Device} {cmdNo type : BitVec 8} {size : Nat} {data : Buffer}

/-- For a request as the driver builds it, all that is left is whether the device accepts it. -/
theorem requestSized_iff (hd : d.Ready b) {request : Option Packet}
    (hrequest : request = some (setPacketHeader cmdNo (typeParam type useMask) size data))
    (hdata : data.length = size) (hsize : size ≤ (15 + 17 * d.conn.nbPins) / 8 + 1) :
    RequestSized b d request ↔
      Accepts b d (delivered (setPacketHeader cmdNo (typeParam type useMask) size data)) := by
  have hbound := d.conn.nbPins_lt
  have hword : (setPacketHeader cmdNo (typeParam type useMask) size data).size.toNat = size :=
    toNat_ofNat_size (by omega)
  rw [← dispatch_isSome_iff hd]
  constructor
  · rintro ⟨p, hp, -, -, hserve⟩
    rw [hrequest, Option.some_inj] at hp
    rw [hp]
    exact hserve
  · refine fun hserve => ⟨_, hrequest, hword.trans hdata.symm, fun hpins => ?_, hserve⟩
    rw [length_frameOf_delivered (by rw [hword]; exact Nat.le_of_eq hdata.symm), hword]
    exact frame_le_buffSize hbound hsize hpins

/-- What the device finds in the header. -/
theorem command_maskRequest (hcmd : cmdNo.toNat < 16) (htype : type.toNat < 8) :
    (delivered (setPacketHeader cmdNo (typeParam type useMask) size data)).command = cmdNo :=
  (header_decode cmdNo type useMask hcmd htype (by decide)).1

theorem width_maskRequest (hcmd : cmdNo.toNat < 16) (htype : type.toNat < 8) :
    (delivered (setPacketHeader cmdNo (typeParam type useMask) size data)).width =
      getTypeBitsNb type :=
  congrArg getTypeBitsNb (header_decode cmdNo type useMask hcmd htype (by decide)).2.1

end Requests

/-! ## The four requests -/

section Four

variable {b : Build} {c : Connection} {d : Device} {mask : Mask} {type : BitVec 8}
  {values : List (BitVec 16)}

theorem readValueMask_sized (hd : d.Ready b) (hsame : c.nbPins = d.conn.nbPins)
    (hpos : 0 < c.nbPins) (hlen : c.nbPins ≤ mask.length) (htype : type.toNat ≤ 4) :
    RequestSized b d (readValueMaskRequest c mask type) := by
  have hlenData := length_maskData c.nbPins mask
  have hcmd : cmdRead.toNat < 16 := by decide
  rw [requestSized_iff hd (readValueMaskRequest_eq hlen type) hlenData (by omega), Accepts,
    command_maskRequest hcmd (by omega)]
  have hdata := data_request cmdRead (typeParam type useMask) hlenData.symm
    (by have := c.nbPins_lt; omega)
  show AcceptsRead _ _
  rw [AcceptsRead, usesMask_maskRequest, if_pos rfl, width_maskRequest hcmd (by omega), HoldsMask,
    hdata, hlenData]
  exact ⟨Or.inr (by omega), Or.inr (getTypeBitsNb_pos htype)⟩

/-- The bits that values take behind a mask fit the bound on requests. -/
theorem values_size_le {nbPins width n base : Nat} (hwidth : width ≤ 16) (hn : n ≤ nbPins)
    (hbase : base ≤ 16) :
    (base + nbPins + width * n - 1) / 8 + 1 ≤ (15 + 17 * nbPins) / 8 + 1 := by
  have htotal : width * n ≤ 16 * nbPins := Nat.mul_le_mul hwidth hn
  omega

/-- Room for the pins that arrive is room for the pins that were meant, and those spilled on. -/
theorem fits_arrived_iff {nbPins width k n base len : Nat} (hpos : 0 < nbPins)
    (hbits : 0 < width) (hbase : base % 8 = 0) (hk : k ≤ n)
    (hlen : len = (base + nbPins + width * k - 1) / 8 + 1) :
    Fits (base + nbPins) width n len ↔
      nbPins + width * n ≤ 8 * ((nbPins + width * k + 7) / 8) := by
  have hround : 8 * len = base + 8 * ((nbPins + width * k + 7) / 8) := by omega
  rw [fits_iff hbits, hround]
  constructor
  · rintro (hzero | hfit)
    · obtain rfl : k = 0 := by omega
      rw [hzero]
      omega
    · omega
  · intro hfit
    exact Or.inr (by omega)

theorem writeValueMask_sized_iff (hd : d.Ready b) (hsame : c.nbPins = d.conn.nbPins)
    (hpos : 0 < c.nbPins) (hlen : c.nbPins ≤ mask.length) (htype : type.toNat ≤ 4)
    (hvalues : values.length = (usedPins mask c.nbPins).length) :
    RequestSized b d (writeValueMaskRequest c mask type values) ↔
      SpillFits c.nbPins (getTypeBitsNb type) mask values := by
  have hbits := getTypeBitsNb_pos htype
  have hrequest := writeValueMaskRequest_eq hpos hlen hbits hvalues
  have hwidth := getTypeBitsNb_le type
  obtain ⟨width, hw⟩ : ∃ width, getTypeBitsNb type = width := ⟨_, rfl⟩
  have hused := length_usedPins_le mask c.nbPins
  have hbound := c.nbPins_lt
  have hcmd : cmdWrite.toNat < 16 := by decide
  rw [hw] at hbits hrequest hwidth ⊢
  have hlenData := length_maskFieldsData c.nbPins width mask values
  have hsize := values_size_le hwidth (hvalues ▸ hused) (show 0 ≤ 16 by decide)
  rw [Nat.zero_add] at hsize
  rw [requestSized_iff hd hrequest hlenData (hsame ▸ hsize), Accepts,
    command_maskRequest hcmd (by omega)]
  have hdata := data_request cmdWrite (typeParam type useMask) hlenData.symm (by omega)
  -- the mask as it arrives, with the bits that the values set in it
  have harrived : (usedPins (maskOf (bitAt (maskFieldsData c.nbPins width mask values)) 0 c.nbPins)
      c.nbPins).length = (usedPins mask c.nbPins).length +
        (spilledPins c.nbPins width mask values).length := by
    refine length_usedPins_arrived fun pin hpin => ?_
    have hspill := fieldsBits_eq_spillsOn width values (show 0 % 8 = 0 from rfl) hpin
    rw [Nat.zero_add, Nat.zero_add] at hspill
    have hin : pin < 8 * ((c.nbPins + width * values.length - 1) / 8 + 1) := by omega
    rw [Nat.zero_add, bitAt_maskFieldsData, decide_eq_true hin, hspill, maskBits,
      decide_eq_true hpin]
    rfl
  have hfits := fits_arrived_iff hpos hbits (show 0 % 8 = 0 from rfl)
    (Nat.le_add_right (usedPins mask c.nbPins).length
      (spilledPins c.nbPins width mask values).length) rfl
  rw [Nat.zero_add, ← hvalues] at hfits
  have hmask : c.nbPins = 0 ∨
      0 + c.nbPins ≤ 8 * ((c.nbPins + width * values.length - 1) / 8 + 1) :=
    Or.inr (by omega)
  show AcceptsWrite _ _ ↔ _
  rw [AcceptsWrite, usesMask_maskRequest, if_pos rfl, width_maskRequest hcmd (by omega), hw,
    HoldsMask, maskedPins, hdata, hlenData, ← hsame, harrived, ← hvalues, hfits, SpillFits,
    ← hvalues]
  exact and_iff_right hmask

theorem setTypeMask_sized (hd : d.Ready b) (hsame : c.nbPins = d.conn.nbPins)
    (hpos : 0 < c.nbPins) (hlen : c.nbPins ≤ mask.length) {types : List (BitVec 16)}
    (hcount : types.length = (usedPins mask c.nbPins).length)
    (htypes : ∀ t ∈ types, t.toNat < 8) :
    RequestSized b d (setTypeMaskRequest c mask types) := by
  have hrequest := setTypeMaskRequest_eq hpos hlen hcount
  have hbound := c.nbPins_lt
  have hused := length_usedPins_le mask c.nbPins
  have hcmd : cmdSetType.toNat < 16 := by decide
  have hlenData := length_maskFieldsData c.nbPins 3 mask types
  have hsize := values_size_le (show 3 ≤ 16 by decide) (hcount ▸ hused) (show 0 ≤ 16 by decide)
  rw [Nat.zero_add] at hsize
  rw [← typeParam_zero useMask] at hrequest
  rw [requestSized_iff hd hrequest hlenData (hsame ▸ hsize), Accepts,
    command_maskRequest hcmd (by decide)]
  have hdata := data_request cmdSetType (typeParam 0#8 useMask) hlenData.symm (by omega)
  -- types below 8 stay in their fields, so that the mask arrives as it is
  have hpins := usedPins_maskFieldsData (m := mask) hpos (allTight_types c.nbPins htypes)
  show AcceptsSetType _ _
  rw [AcceptsSetType, usesMask_maskRequest, if_pos rfl, HoldsMask, maskedPins, hdata, hlenData,
    ← hsame, hpins]
  exact ⟨Or.inr (by omega), fits_of_le (by decide) (by omega)⟩

theorem setFailsafeMask_sized_iff (hd : d.Ready b) (hsame : c.nbPins = d.conn.nbPins)
    (hpos : 0 < c.nbPins) (hlen : c.nbPins ≤ mask.length) (htype : type.toNat ≤ 4)
    (timeout : BitVec 16) (hvalues : values.length = (usedPins mask c.nbPins).length) :
    RequestSized b d (setFailsafeMaskRequest c mask type timeout values) ↔
      b.disableFailsafe = true ∨ SpillFits c.nbPins (getTypeBitsNb type) mask values := by
  have hbits := getTypeBitsNb_pos htype
  have hrequest := setFailsafeMaskRequest_eq hlen hbits timeout (Nat.le_of_eq hvalues.symm)
  have hwidth := getTypeBitsNb_le type
  obtain ⟨width, hw⟩ : ∃ width, getTypeBitsNb type = width := ⟨_, rfl⟩
  have hused := length_usedPins_le mask c.nbPins
  have hbound := c.nbPins_lt
  have hcmd : cmdSetFailsafe.toNat < 16 := by decide
  simp only [← hvalues, List.take_length] at hrequest
  rw [hw] at hbits hrequest hwidth ⊢
  have hlenData := length_maskFailsafeData c.nbPins width timeout mask values
  have hsize := values_size_le hwidth (hvalues ▸ hused) (Nat.le_refl 16)
  rw [requestSized_iff hd hrequest hlenData (hsame ▸ hsize), Accepts,
    command_maskRequest hcmd (by omega)]
  have hdata := data_request cmdSetFailsafe (typeParam type useMask) hlenData.symm (by omega)
  -- the mask starts at byte 2 here, which changes nothing
  have harrived : (usedPins (maskOf (bitAt (maskFailsafeData c.nbPins timeout mask width values)) 16
      c.nbPins) c.nbPins).length = (usedPins mask c.nbPins).length +
        (spilledPins c.nbPins width mask values).length := by
    refine length_usedPins_arrived fun pin hpin => ?_
    have hspill := fieldsBits_eq_spillsOn width values (show 16 % 8 = 0 from rfl) hpin
    have hlo : decide (16 ≤ 16 + pin) = true := decide_eq_true (by omega)
    rw [bitAt_maskFailsafeData timeout mask (by omega), maskFailsafeBits, hspill, hlo,
      fieldBits_after timeout (by omega), Nat.add_sub_cancel_left, maskBits, decide_eq_true hpin]
    rfl
  have hfits := fits_arrived_iff hpos hbits (show 16 % 8 = 0 from rfl)
    (Nat.le_add_right (usedPins mask c.nbPins).length
      (spilledPins c.nbPins width mask values).length) rfl
  rw [← hvalues] at hfits
  have hbytes : 2 ≤ (16 + c.nbPins + width * values.length - 1) / 8 + 1 := by omega
  have hmask : c.nbPins = 0 ∨
      16 + c.nbPins ≤ 8 * ((16 + c.nbPins + width * values.length - 1) / 8 + 1) :=
    Or.inr (by omega)
  show b.disableFailsafe = true ∨ AcceptsSetFailsafe _ _ ↔ _
  rw [AcceptsSetFailsafe, usesMask_maskRequest, if_pos rfl, width_maskRequest hcmd (by omega), hw,
    HoldsMask, maskedPins, hdata, hlenData, ← hsame, harrived, ← hvalues, hfits, SpillFits,
    ← hvalues, and_iff_right hmask, and_iff_right hbytes]

/-- All four masked requests for one mask, one type and one list of values are sized right. -/
structure MaskedRequestsSized (b : Build) (c : Connection) (d : Device) (mask : Mask)
    (type : BitVec 8) (types : List (BitVec 16)) (timeout : BitVec 16)
    (values : List (BitVec 16)) : Prop where
  readValueMask : RequestSized b d (readValueMaskRequest c mask type)
  writeValueMask : RequestSized b d (writeValueMaskRequest c mask type values)
  setTypeMask : RequestSized b d (setTypeMaskRequest c mask types)
  setFailsafeMask : RequestSized b d (setFailsafeMaskRequest c mask type timeout values)

/-- They are if and only if there is room for the pins that the values add to the mask. -/
theorem maskedRequests_sized_iff (hd : d.Ready b) (hsame : c.nbPins = d.conn.nbPins)
    (hpos : 0 < c.nbPins) (hlen : c.nbPins ≤ mask.length) (htype : type.toNat ≤ 4)
    {types : List (BitVec 16)} (hcount : types.length = (usedPins mask c.nbPins).length)
    (htypes : ∀ t ∈ types, t.toNat < 8) (timeout : BitVec 16)
    (hvalues : values.length = (usedPins mask c.nbPins).length) :
    MaskedRequestsSized b c d mask type types timeout values ↔
      SpillFits c.nbPins (getTypeBitsNb type) mask values := by
  constructor
  · intro h
    exact (writeValueMask_sized_iff hd hsame hpos hlen htype hvalues).mp h.writeValueMask
  · intro hfits
    exact
      { readValueMask := readValueMask_sized hd hsame hpos hlen htype
        writeValueMask :=
          (writeValueMask_sized_iff hd hsame hpos hlen htype hvalues).mpr hfits
        setTypeMask := setTypeMask_sized hd hsame hpos hlen hcount htypes
        setFailsafeMask :=
          (setFailsafeMask_sized_iff hd hsame hpos hlen htype timeout hvalues).mpr (Or.inr hfits) }

end Four

theorem initialDevice_ready (b : Build) (nbPins : BitVec 8) : (initialDevice b nbPins).Ready b where
  wellFormed := initialDevice_wellFormed b nbPins
  failsafe := fun hb => ⟨_, by rw [initialDevice, initialFailsafe, hb]; rfl⟩

theorem maskedRequests_sized_nine :
    MaskedRequestsSized hostBuild (initialDevice hostBuild 9#8).conn (initialDevice hostBuild 9#8)
      (true :: List.replicate 8 false) pinTypePwm16 [2#16] 5#16 [0x1234#16] :=
  (maskedRequests_sized_iff (initialDevice_ready hostBuild 9#8) rfl (by decide) (by decide)
    (by decide) (by decide) (by simp) 5#16 (by decide)).mpr (by decide)

/-- The sign of a 16-bit value for pin 0 adds pin 8 to the mask, whose value is not there. -/
theorem not_maskedRequests_sized_nine :
    ¬ MaskedRequestsSized hostBuild (initialDevice hostBuild 9#8).conn
      (initialDevice hostBuild 9#8) (true :: List.replicate 8 false) pinTypePwm16 [2#16] 5#16
      [0x8000#16] := by
  intro h
  have hfits := (writeValueMask_sized_iff (initialDevice_ready hostBuild 9#8) rfl (by decide)
    (by decide) (by decide) (by decide)).mp h.writeValueMask
  exact absurd hfits (by decide)

end PinProtocol
