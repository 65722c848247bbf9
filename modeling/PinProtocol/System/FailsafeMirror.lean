import PinProtocol.System.FailsafeOperations

/-!
# FailsafeMirror — masked failsafe requests, over whole runs

`set_failsafe_mask` stores the same entries in the driver that its request gives to the device.  As
long as the number of pins is a multiple of 8, timeout, mask and values start at whole bytes; then
both tables stay the same over any run that starts at two initialised ends (`failsafe_mirror`).
-/

namespace PinProtocol

open Bits Control

/-! ## Requests -/

/-- Timeout, mask and values, as they lie in a request. -/
def maskFailsafeBits (nbPins : Nat) (timeout : BitVec 16) (m : Mask) (width : Nat)
    (vals : List (BitVec 16)) (j : Nat) : Bool :=
  (fieldBits 0 timeout 16 j || (decide (16 ≤ j) && maskBits m nbPins (j - 16))) ||
    fieldsBits (16 + nbPins) width vals j

/-- The data of a masked failsafe request. -/
def maskFailsafeData (nbPins : Nat) (timeout : BitVec 16) (m : Mask) (width : Nat)
    (vals : List (BitVec 16)) : Buffer :=
  orBits (zeros ((16 + nbPins + width * vals.length - 1) / 8 + 1))
    (maskFailsafeBits nbPins timeout m width vals)

/-- A pattern that is put into a buffer from byte `k` on. -/
theorem atPtr_orBits {buf : Buffer} {k : Nat} (hk : k ≤ buf.length) (f : Nat → Bool) :
    atPtr buf k (fun rest => some (orBits rest f)) =
      some (orBits buf fun j => decide (8 * k ≤ j) && f (j - 8 * k)) := by
  have hlen : (buf.take k ++ orBits (buf.drop k) f).length = buf.length := by
    simp
    omega
  refine congrArg some (eq_of_bitAt ?_ fun j hj => ?_)
  · rw [hlen, length_orBits]
  · rw [hlen] at hj
    -- past byte k, a bit is that of the tail
    by_cases hlo : 8 * k ≤ j
    · have hbyte : ¬ j / 8 < k := by omega
      have hdiv : (j - 8 * k) / 8 = j / 8 - k := by omega
      have hmod : (j - 8 * k) % 8 = j % 8 := by omega
      have hback : k + (j / 8 - k) = j / 8 := by omega
      have htail : bitAt (buf.take k ++ orBits (buf.drop k) f) j =
          bitAt (orBits (buf.drop k) f) (j - 8 * k) := by
        rw [bitAt, bitAt, hdiv, hmod, List.getD_append_right _ _ _ _ (by simp; omega)]
        simp [hk]
      have hdrop : bitAt (buf.drop k) (j - 8 * k) = bitAt buf j := by
        simp [bitAt, hdiv, hmod, hback, List.getD_eq_getElem?_getD]
      rw [htail, bitAt_orBits, bitAt_orBits, hdrop, decide_eq_true hlo, List.length_drop,
        decide_eq_true (by omega), decide_eq_true hj, Bool.true_and, Bool.true_and]
    · have hbyte : j / 8 < (buf.take k).length := by
        simp
        omega
      have hhead : bitAt (buf.take k ++ orBits (buf.drop k) f) j = bitAt buf j := by
        rw [bitAt, List.getD_append _ _ _ _ hbyte]
        exact bitAt_take (n := k) (by omega)
      rw [hhead, bitAt_orBits, decide_eq_false hlo, Bool.false_and, Bool.and_false, Bool.or_false]

section Request

variable {c : Connection} {mask : Mask} {values : List (BitVec 16)}

theorem setFailsafeMaskRequest_eq (hlen : c.nbPins ≤ mask.length) {type : BitVec 8}
    (hbits : 0 < getTypeBitsNb type) (timeout : BitVec 16)
    (hvalues : (usedPins mask c.nbPins).length ≤ values.length) :
    let vals := values.take (usedPins mask c.nbPins).length
    setFailsafeMaskRequest c mask type timeout values =
      some (setPacketHeader cmdSetFailsafe (typeParam type useMask)
        ((16 + c.nbPins + getTypeBitsNb type * vals.length - 1) / 8 + 1)
        (maskFailsafeData c.nbPins timeout mask (getTypeBitsNb type) vals)) := by
  intro vals
  have hbound := c.nbPins_lt
  have hused := length_usedPins_le mask c.nbPins
  have hwidth := getTypeBitsNb_le type
  obtain ⟨width, hw⟩ : ∃ width, getTypeBitsNb type = width := ⟨_, rfl⟩
  obtain ⟨k, hk⟩ : ∃ k, (usedPins mask c.nbPins).length = k := ⟨_, rfl⟩
  rw [hw] at hbits hwidth
  rw [hk] at hused hvalues
  have hcount : vals.length = k := by simp [vals, hk, hvalues]
  have htotal : width * k ≤ 16 * 255 := Nat.mul_le_mul hwidth (by omega)
  obtain ⟨size, hsize⟩ : ∃ size, (16 + c.nbPins + width * k - 1) / 8 + 1 = size := ⟨_, rfl⟩
  have hbytes : bits2bytes (16 + c.nbPins + k * width) = size := by
    rw [bits2bytes_eq, Nat.mul_comm, hsize]
  have htimeout := writeBitValue_eq (zeros size) timeout (show 0 < 2 ^ 16 by decide)
    (Nat.le_refl 16)
  rw [if_pos (by rw [length_zeros]; omega)] at htimeout
  -- the mask goes behind the two bytes of the timeout
  have hmask : ∀ rest : Buffer, rest.length = size - 2 →
      writeMask rest mask c.nbPins = some (orBits rest (maskBits mask c.nbPins)) := by
    intro rest hrest
    rw [writeMask_eq rest hlen (by omega), if_pos (by rw [hrest]; omega)]
  have hptr : atPtr (orBits (zeros size) (fieldBits 0 timeout 16)) 2
      (fun data => writeMask data mask c.nbPins) = _ :=
    (congrArg (Option.map _) (hmask _ (by simp))).trans
      (atPtr_orBits (by simp; omega) (maskBits mask c.nbPins))
  rw [orBits_orBits] at hptr
  have hfits : Fits (16 + c.nbPins) width k (zeros size).length :=
    fits_of_le hbits (by rw [length_zeros]; omega)
  have hvals := writeValueList_eq
    (orBits (zeros size) fun j =>
      fieldBits 0 timeout 16 j || (decide (8 * 2 ≤ j) && maskBits mask c.nbPins (j - 8 * 2)))
    hvalues (show 16 + c.nbPins + width * k < 2 ^ 16 by omega) hwidth
  rw [length_orBits, if_pos hfits, orBits_orBits] at hvals
  simp only [setFailsafeMaskRequest, maskNbPinsUsed_eq hlen hbound, hk, hw, timeoutBitsNb, hbytes,
    initPacket_malloc (show size < 2 ^ 16 by omega), htimeout, hptr, hvals, Option.bind_eq_bind,
    Option.bind_some, Option.pure_def, hcount, hsize, maskFailsafeData]
  simp only [vals, hk]
  rfl

end Request

/-! ## Requests as the device reads them -/

/-- Values of the five types that start at a whole byte never leave their fields. -/
theorem allTight_values {type : BitVec 8} (htype : type.toNat ≤ 4) {offset : Nat}
    (hoff : offset % 8 = 0) {vals : List (BitVec 16)}
    (hvals : ∀ v ∈ vals, v.toNat < 2 ^ getTypeBitsNb type) :
    AllTight offset (getTypeBitsNb type) vals := by
  by_cases hdigital : type = pinTypeDigital
  · have hone := getTypeBitsNb_digital hdigital
    rw [hone] at hvals ⊢
    exact allTight_of_lt offset (by decide) hvals
  · rcases getTypeBitsNb_of_not_digital htype hdigital with h | h
    · exact allTight_aligned hoff (by rw [h]) vals
    · exact allTight_aligned hoff (by rw [h]) vals

/-- Such fields never span three bytes. -/
theorem span_values {type : BitVec 8} (htype : type.toNat ≤ 4) {offset : Nat}
    (hoff : offset % 8 = 0) (i : Nat) :
    (offset + getTypeBitsNb type * i) % 8 + getTypeBitsNb type ≤ 16 := by
  by_cases hdigital : type = pinTypeDigital
  · have hone := getTypeBitsNb_digital hdigital
    omega
  · rcases getTypeBitsNb_of_not_digital htype hdigital with h | h <;> rw [h] <;> omega

section Data

theorem length_maskFailsafeData (nbPins width : Nat) (timeout : BitVec 16) (m : Mask)
    (vals : List (BitVec 16)) :
    (maskFailsafeData nbPins timeout m width vals).length =
      (16 + nbPins + width * vals.length - 1) / 8 + 1 := by
  simp [maskFailsafeData]

variable {nbPins width : Nat} (timeout : BitVec 16) (m : Mask) {vals : List (BitVec 16)}

theorem bitAt_maskFailsafeData {j : Nat}
    (hj : j < 8 * ((16 + nbPins + width * vals.length - 1) / 8 + 1)) :
    bitAt (maskFailsafeData nbPins timeout m width vals) j =
      maskFailsafeBits nbPins timeout m width vals j := by
  rw [maskFailsafeData, bitAt_orBits, bitAt_zeros, length_zeros, decide_eq_true hj]
  simp

theorem timeout_maskFailsafeData (htight : AllTight (16 + nbPins) width vals) :
    fieldAt (bitAt (maskFailsafeData nbPins timeout m width vals)) 0 16 0 = timeout := by
  rw [fieldAt_of_bits (v := timeout) (by decide) fun i hi => ?_, ofNat_mod_eq timeout.isLt]
  have hmask : decide (16 ≤ 0 + i) = false := decide_eq_false (by omega)
  rw [bitAt_maskFailsafeData timeout m (by omega), maskFailsafeBits, hmask,
    htight.fieldsBits_before (by omega), Bool.false_and, Bool.or_false, Bool.or_false,
    fieldBits_inside timeout hi (Nat.le_refl 16)]

/-- The device finds the pins of the mask. -/
theorem usedPins_maskFailsafeData (htight : AllTight (16 + nbPins) width vals) :
    usedPins (maskOf (bitAt (maskFailsafeData nbPins timeout m width vals)) 16 nbPins) nbPins =
      usedPins m nbPins := by
  refine usedPins_maskOf fun i hi => ?_
  have hlo : decide (16 ≤ 16 + i) = true := decide_eq_true (by omega)
  rw [bitAt_maskFailsafeData timeout m (by omega), maskFailsafeBits,
    fieldBits_after timeout (by omega), hlo, htight.fieldsBits_before (by omega),
    Nat.add_sub_cancel_left]
  simp [maskBits, hi, pinUsed]

/-- The device finds the values. -/
theorem value_maskFailsafeData (htight : AllTight (16 + nbPins) width vals) (hwidth : width ≤ 16)
    {i : Nat} (hi : i < vals.length) (hspan : (16 + nbPins + width * i) % 8 + width ≤ 16) :
    fieldAt (bitAt (maskFailsafeData nbPins timeout m width vals)) (16 + nbPins) width i =
      BitVec.ofNat 16 (vals[i].toNat % 2 ^ width) := by
  refine htight.fieldAt_eq hwidth (fun j hlo hhi => ?_) hi hspan
  have hmask : maskBits m nbPins (j - 16) = false := by
    have hout : ¬ j - 16 < nbPins := by omega
    simp [maskBits, hout]
  rw [bitAt_maskFailsafeData timeout m (by omega), maskFailsafeBits,
    fieldBits_after timeout (by omega), hmask, Bool.and_false]
  rfl

end Data

/-! ## One call -/

/-- Both ends know `nbPins` pins, and keep the failsafe table `f`. -/
structure Mirror (nbPins : Nat) (f : Failsafe) (c : Connection) (d : Device) : Prop where
  driver : c.nbPins = nbPins
  device : d.conn.nbPins = nbPins
  wellFormed : d.conn.WellFormed
  driverTable : c.failsafe = some f
  deviceTable : d.conn.failsafe = some f

/-- The arguments of one call of `set_failsafe_mask`. -/
structure FailsafeMaskCall where
  mask : Mask
  type : BitVec 8
  timeout : BitVec 16
  values : List (BitVec 16)

/-- A mask of `nbPins` entries, one of the five types, and for every pin used a value of the
type. -/
structure FailsafeMaskCall.InRange (nbPins : Nat) (call : FailsafeMaskCall) : Prop where
  mask : nbPins ≤ call.mask.length
  type : call.type.toNat ≤ 4
  count : (usedPins call.mask nbPins).length ≤ call.values.length
  values : ∀ v ∈ call.values, v.toNat < 2 ^ getTypeBitsNb call.type

/-- The size of the request. -/
def FailsafeMaskCall.dataBytes (nbPins : Nat) (call : FailsafeMaskCall) : Nat :=
  (16 + nbPins + getTypeBitsNb call.type * (usedPins call.mask nbPins).length - 1) / 8 + 1

def FailsafeMaskCall.perform (b : Build) (call : FailsafeMaskCall) (c : Connection) (d : Device) :
    Option (Connection × Device) :=
  (setFailsafeMask (deviceLink b) c d call.mask call.type call.timeout call.values).map fun r =>
    (r.conn, r.world)

/-- The table after a call. -/
def FailsafeMaskCall.apply (nbPins : Nat) (call : FailsafeMaskCall) (f : Failsafe) : Failsafe :=
  { timeout := call.timeout
    pinsFailsafe := scatter
      (fun i _ => { pinState := call.type, pinValue := call.values.getD i 0 })
      (usedPins call.mask nbPins) f.pinsFailsafe }

section Step

variable {b : Build} {nbPins : Nat} {c : Connection} {d : Device} {f : Failsafe}
  {call : FailsafeMaskCall}

/-- What the device makes of the request. -/
theorem dispatch_maskFailsafe (hb : b.disableFailsafe = false) (hnb : d.conn.nbPins = nbPins)
    (hwf : d.conn.WellFormed) (hf : d.conn.failsafe = some f) (halign : nbPins % 8 = 0)
    (hcall : call.InRange nbPins) :
    dispatch b d (delivered (setPacketHeader cmdSetFailsafe (typeParam call.type useMask)
        (call.dataBytes nbPins)
        (maskFailsafeData nbPins call.timeout call.mask (getTypeBitsNb call.type)
          (call.values.take (usedPins call.mask nbPins).length)))) =
      some (d.putFailsafe call.timeout (call.apply nbPins f).pinsFailsafe,
        [frameOf (delivered (idReply cmdSetType d.nextId))]) := by
  have hbound : nbPins < 2 ^ 8 := hnb ▸ d.conn.nbPins_lt
  have hused := length_usedPins_le call.mask nbPins
  have hwidth := getTypeBitsNb_le call.type
  have hpos := getTypeBitsNb_pos hcall.type
  obtain ⟨vals, hvals⟩ :
      ∃ vals, call.values.take (usedPins call.mask nbPins).length = vals := ⟨_, rfl⟩
  have hcount : vals.length = (usedPins call.mask nbPins).length := by
    rw [← hvals, List.length_take, Nat.min_eq_left hcall.count]
  have hfit : ∀ v ∈ vals, v.toNat < 2 ^ getTypeBitsNb call.type := fun v hv =>
    hcall.values v (List.mem_of_mem_take (hvals.symm ▸ hv))
  have hoff : (16 + nbPins) % 8 = 0 := by omega
  have htight := allTight_values hcall.type hoff hfit
  have htotal : getTypeBitsNb call.type * vals.length ≤ 16 * 255 :=
    Nat.mul_le_mul hwidth (by omega)
  have hsize : call.dataBytes nbPins = (maskFailsafeData nbPins call.timeout call.mask
      (getTypeBitsNb call.type) vals).length := by
    rw [length_maskFailsafeData, FailsafeMaskCall.dataBytes, hcount]
  have hlen := length_maskFailsafeData nbPins (getTypeBitsNb call.type) call.timeout call.mask vals
  have hdecode := header_decode cmdSetFailsafe call.type useMask (by decide)
    (Nat.lt_of_le_of_lt hcall.type (by decide)) (by decide)
  rw [hvals]
  obtain ⟨data, hdata⟩ : ∃ data, maskFailsafeData nbPins call.timeout call.mask
      (getTypeBitsNb call.type) vals = data := ⟨_, rfl⟩
  have hkind := usesMask_maskRequest cmdSetFailsafe call.type (call.dataBytes nbPins) data
  have hpdata := data_request cmdSetFailsafe (typeParam call.type useMask)
    (show call.dataBytes nbPins = data.length by rw [← hdata]; exact hsize)
    (by rw [hsize, hlen]; omega)
  have htimeout := timeout_maskFailsafeData call.timeout call.mask htight
  have hpins := usedPins_maskFailsafeData call.timeout call.mask htight
  have hvalue := fun {i : Nat} (hi : i < vals.length) =>
    value_maskFailsafeData call.timeout call.mask htight hwidth hi
      (span_values hcall.type hoff i)
  rw [hdata] at htimeout hpins hvalue hlen ⊢
  obtain ⟨p, hp⟩ : ∃ p, delivered (setPacketHeader cmdSetFailsafe (typeParam call.type useMask)
      (call.dataBytes nbPins) data) = p := ⟨_, rfl⟩
  rw [hp] at hkind hpdata ⊢
  have hcmd : p.header >>> 4 = cmdSetFailsafe := by
    rw [← hp]
    exact hdecode.1
  have htype : p.type = call.type := by
    rw [← hp]
    exact hdecode.2.1
  have hpwidth : p.width = getTypeBitsNb call.type := by rw [Packet.width, htype]
  have hmasked : maskedPins d.conn p 16 = usedPins call.mask nbPins := by
    rw [maskedPins, hnb, hpdata, hpins]
  have hserve := replySetFailsafe_mask_eq (p := p) hwf hf hkind
  rw [hmasked, hpdata, hpwidth, htype, hnb, htimeout] at hserve
  have hholds : HoldsMask d.conn p 16 := Or.inr (by rw [hnb, hpdata, hlen]; omega)
  have hfits : Fits (16 + nbPins) (getTypeBitsNb call.type) (usedPins call.mask nbPins).length
      data.length := fits_of_le hpos (by rw [← hcount, hlen]; omega)
  rw [if_pos ⟨by rw [hlen]; omega, hholds, hfits⟩] at hserve
  -- every field holds the value that the driver stores
  have hscatter : scatter
      (fun i _ =>
        { pinState := call.type
          pinValue := fieldAt (bitAt data) (16 + nbPins) (getTypeBitsNb call.type) i })
      (usedPins call.mask nbPins) f.pinsFailsafe = (call.apply nbPins f).pinsFailsafe := by
    simp only [FailsafeMaskCall.apply]
    refine (scatter_eq_scatter_iff (nodup_usedPins _ _) _).mpr fun n hn => ?_
    have hi : n < vals.length := by rw [hcount]; exact hn
    have hget : vals[n] = call.values.getD n 0 := by
      simp only [← hvals, List.getElem_take]
      simp [Nat.lt_of_lt_of_le hn hcall.count]
    rw [hvalue hi, ofNat_mod_eq (hfit _ (List.getElem_mem hi)), hget]
  rw [dispatch_setFailsafe hcmd, if_neg (by rw [hb]; decide), hserve, hscatter]

/-- A call whose request one `read` of the device takes does the same to both tables. -/
theorem FailsafeMaskCall.perform_eq (hb : b.disableFailsafe = false) (h : Mirror nbPins f c d)
    (halign : nbPins % 8 = 0) (hcall : call.InRange nbPins) :
    call.perform b c d =
      if call.dataBytes nbPins + 4 ≤ b.buffSize then
        some ({ c with failsafe := some (call.apply nbPins f) },
          d.putFailsafe call.timeout (call.apply nbPins f).pinsFailsafe)
      else none := by
  obtain ⟨hdriver, hdevice, hwf, hc, hd⟩ := h
  have hbound : nbPins < 2 ^ 8 := hdriver ▸ c.nbPins_lt
  have hused := length_usedPins_le call.mask nbPins
  have hwidth := getTypeBitsNb_le call.type
  have hmask : c.nbPins ≤ call.mask.length := hdriver.symm ▸ hcall.mask
  have hvalues : (usedPins call.mask c.nbPins).length ≤ call.values.length :=
    hdriver.symm ▸ hcall.count
  have hrequest := setFailsafeMaskRequest_eq hmask (getTypeBitsNb_pos hcall.type) call.timeout
    hvalues
  -- the device decodes the mask and the values that the driver packed
  have hserve := dispatch_maskFailsafe hb hdevice hwf hd halign hcall
  obtain ⟨vals, hvals⟩ :
      ∃ vals, call.values.take (usedPins call.mask nbPins).length = vals := ⟨_, rfl⟩
  have hcount : vals.length = (usedPins call.mask nbPins).length := by
    rw [← hvals, List.length_take, Nat.min_eq_left hcall.count]
  have htotal : getTypeBitsNb call.type * (usedPins call.mask nbPins).length ≤ 16 * 255 :=
    Nat.mul_le_mul hwidth (by omega)
  simp only [hdriver, hvals] at hrequest
  rw [hvals] at hserve
  have hbytes : (16 + nbPins + getTypeBitsNb call.type * vals.length - 1) / 8 + 1 =
      call.dataBytes nbPins := by rw [hcount, FailsafeMaskCall.dataBytes]
  rw [hbytes] at hrequest
  have hsize : call.dataBytes nbPins = (maskFailsafeData nbPins call.timeout call.mask
      (getTypeBitsNb call.type) vals).length := by
    rw [length_maskFailsafeData, hbytes]
  have hshort : call.dataBytes nbPins ≤ 545 := by
    rw [FailsafeMaskCall.dataBytes]
    omega
  -- a longer request does not leave the driver
  by_cases hframe : call.dataBytes nbPins + 4 ≤ b.buffSize
  · have htable : nbPins ≤ f.pinsFailsafe.length := by
      rw [hwf.failsafe f hd, hdevice]
    have hstore := storePerPin_eq hcall.mask htable hcall.count 0
      fun v _ => { pinState := call.type, pinValue := v }
    rw [FailsafeMaskCall.perform, setFailsafeMask,
      operation_device hrequest (setPacketHeader_fits _ _ hsize hframe) hserve
        (idReply_fits cmdSetType d.nextId) (idReply_pos cmdSetType d.nextId), if_pos hframe]
    simp only [setFailsafeMaskApply, hc, hdriver, hstore, Option.bind_eq_bind, Option.bind_some,
      Option.pure_def, Option.map_some]
    rfl
  · have hword : (setPacketHeader cmdSetFailsafe (typeParam call.type useMask)
        (call.dataBytes nbPins) (maskFailsafeData nbPins call.timeout call.mask
          (getTypeBitsNb call.type) vals)).size.toNat = call.dataBytes nbPins :=
      toNat_ofNat_size (by omega)
    rw [FailsafeMaskCall.perform, setFailsafeMask,
      operation_device_long hrequest (by rw [hword, hsize]; exact Nat.le_refl _)
        (by rw [hword]; omega) (by rw [hword]; omega), if_neg hframe]
    rfl

end Step

/-! ## Runs -/

def runFailsafeCalls (b : Build) (calls : List FailsafeMaskCall) (c : Connection) (d : Device) :
    Option (Connection × Device) :=
  calls.foldlM (fun st call => call.perform b st.1 st.2) (c, d)

/-- The table after a run of calls. -/
def applyFailsafeCalls (nbPins : Nat) (calls : List FailsafeMaskCall) (f : Failsafe) : Failsafe :=
  calls.foldl (fun f call => call.apply nbPins f) f

section Runs

variable {b : Build} {c c' : Connection} {d d' : Device} {f : Failsafe}

/-- One call changes both tables in the same way. -/
theorem Mirror.perform {nbPins : Nat} (h : Mirror nbPins f c d) (hb : b.disableFailsafe = false)
    (halign : nbPins % 8 = 0) {call : FailsafeMaskCall} (hcall : call.InRange nbPins)
    (hperform : call.perform b c d = some (c', d')) :
    Mirror nbPins (call.apply nbPins f) c' d' := by
  rw [call.perform_eq hb h halign hcall] at hperform
  obtain ⟨_, heq⟩ := Option.ite_none_right_eq_some.mp hperform
  cases heq
  have hlen : (call.apply nbPins f).pinsFailsafe.length = d.conn.nbPins := by
    simp only [FailsafeMaskCall.apply, length_scatter]
    exact h.wellFormed.failsafe f h.deviceTable
  refine ⟨h.driver, h.device, ⟨h.wellFormed.pinsState, h.wellFormed.pinsMaskType, ?_⟩, rfl, rfl⟩
  intro g hg
  cases hg
  exact hlen

/-- So does any number of calls. -/
theorem Mirror.run {nbPins : Nat} (h : Mirror nbPins f c d) (hb : b.disableFailsafe = false)
    (halign : nbPins % 8 = 0) {calls : List FailsafeMaskCall}
    (hcalls : ∀ call ∈ calls, call.InRange nbPins)
    (hrun : runFailsafeCalls b calls c d = some (c', d')) :
    Mirror nbPins (applyFailsafeCalls nbPins calls f) c' d' := by
  induction calls generalizing f c d with
  | nil =>
      cases hrun
      exact h
  | cons call calls ih =>
      rw [runFailsafeCalls, List.foldlM_cons, Option.bind_eq_bind,
        Option.bind_eq_some_iff] at hrun
      rcases hrun with ⟨⟨c₁, d₁⟩, hfirst, hrest⟩
      have hnext := h.perform hb halign (hcalls call List.mem_cons_self) hfirst
      exact ih hnext (fun x hx => hcalls x (List.mem_cons_of_mem call hx)) hrest

/-- A run gets to its end when no request is longer than what one `read` of the device takes. -/
theorem Mirror.run_isSome {nbPins : Nat} (h : Mirror nbPins f c d)
    (hb : b.disableFailsafe = false) (halign : nbPins % 8 = 0) {calls : List FailsafeMaskCall}
    (hcalls : ∀ call ∈ calls, call.InRange nbPins)
    (hframes : ∀ call ∈ calls, call.dataBytes nbPins + 4 ≤ b.buffSize) :
    (runFailsafeCalls b calls c d).isSome := by
  induction calls generalizing f c d with
  | nil => rfl
  | cons call calls ih =>
      have hcall := hcalls call List.mem_cons_self
      have hfirst := call.perform_eq hb h halign hcall
      rw [if_pos (hframes call List.mem_cons_self)] at hfirst
      have hnext := h.perform hb halign hcall hfirst
      rw [runFailsafeCalls, List.foldlM_cons, hfirst]
      exact ih hnext (fun x hx => hcalls x (List.mem_cons_of_mem call hx))
        fun x hx => hframes x (List.mem_cons_of_mem call hx)

/-- The requests fit the buffer of the host, and with 16 pins that of the firmware. -/
theorem FailsafeMaskCall.dataBytes_le {nbPins : Nat} (hbound : nbPins < 2 ^ 8)
    (halign : nbPins % 8 = 0) (hroom : b.embedded = false ∨ nbPins ≤ 16)
    (call : FailsafeMaskCall) : call.dataBytes nbPins + 4 ≤ b.buffSize := by
  have hmul : getTypeBitsNb call.type * (usedPins call.mask nbPins).length ≤ 16 * nbPins :=
    Nat.mul_le_mul (getTypeBitsNb_le call.type) (length_usedPins_le call.mask nbPins)
  rw [FailsafeMaskCall.dataBytes]
  rcases hroom with hhost | hfew
  · have hbuff : b.buffSize = 612 := by rw [Build.buffSize, hhost]; rfl
    omega
  · have hbuff := le_buffSize b
    omega

/-- Two ends that have just been initialised for the same number of pins. -/
theorem mirror_init {nbPins : BitVec 8} (hb : b.disableFailsafe = false) {c₀ d₀ : Connection}
    (hc₀ : c₀.caps.nbPins = nbPins) (hd₀ : d₀.caps.nbPins = nbPins)
    (hc : connectionInitResources hostBuild c₀ = some c)
    (hd : connectionInitResources b d₀ = some d.conn) :
    ∃ f, initialFailsafe b nbPins.toNat = some f ∧ Mirror nbPins.toNat f c d := by
  rw [connectionInitResources_eq hostBuild fun h => absurd h (by decide)] at hc
  rw [connectionInitResources_eq b fun h => absurd (hb.symm.trans h) (by decide),
    Option.some.injEq] at hd
  cases hc
  have hdriver : c₀.nbPins = nbPins.toNat := congrArg BitVec.toNat hc₀
  have hdevice : d₀.nbPins = nbPins.toNat := congrArg BitVec.toNat hd₀
  -- both ends start from the same table, for the same number of pins
  have htable : initialFailsafe b d₀.nbPins = initialFailsafe hostBuild c₀.nbPins := by
    rw [hdriver, hdevice, initialFailsafe, initialFailsafe, hb]
    rfl
  have hinitial : initialFailsafe b nbPins.toNat = initialFailsafe hostBuild c₀.nbPins := by
    rw [← htable, hdevice]
  refine ⟨_, hinitial, hdriver, ?_, ⟨?_, ?_, ?_⟩, rfl, ?_⟩
  · rw [← hd]
    exact hdevice
  · rw [← hd]
    exact List.length_replicate ..
  · rw [← hd]
    exact List.length_replicate ..
  · rw [← hd]
    intro f hf
    rw [htable, hdriver] at hf
    cases hf
    exact (List.length_replicate ..).trans hdevice.symm
  · rw [← hd]
    exact htable

/-- Driver and device, initialised for the same number of pins, a multiple of 8, keep the same
failsafe table over any run of masked failsafe requests, the one that the calls say; and no such
request fails, except that an embedded device with more than 16 pins has no buffer for the long
ones. -/
theorem failsafe_mirror {nbPins : BitVec 8} (hb : b.disableFailsafe = false)
    (halign : nbPins.toNat % 8 = 0) {c₀ d₀ : Connection} (hc₀ : c₀.caps.nbPins = nbPins)
    (hd₀ : d₀.caps.nbPins = nbPins) (hc : connectionInitResources hostBuild c₀ = some c)
    (hd : connectionInitResources b d₀ = some d.conn) {calls : List FailsafeMaskCall}
    (hcalls : ∀ call ∈ calls, call.InRange nbPins.toNat) :
    ∃ f, initialFailsafe b nbPins.toNat = some f ∧
      (∀ c' d', runFailsafeCalls b calls c d = some (c', d') →
        c'.failsafe = some (applyFailsafeCalls nbPins.toNat calls f) ∧
          d'.conn.failsafe = some (applyFailsafeCalls nbPins.toNat calls f)) ∧
      (b.embedded = false ∨ nbPins.toNat ≤ 16 → (runFailsafeCalls b calls c d).isSome) := by
  obtain ⟨f, hf, hstart⟩ := mirror_init hb hc₀ hd₀ hc hd
  refine ⟨f, hf, fun c' d' hrun => ?_, fun hroom => ?_⟩
  · have hend := hstart.run hb halign hcalls hrun
    exact ⟨hend.driverTable, hend.deviceTable⟩
  · exact hstart.run_isSome hb halign hcalls fun call _ =>
      FailsafeMaskCall.dataBytes_le nbPins.isLt halign hroom call

/-- A timeout and a value with their top bits set, on the firmware; pin 15 is set twice. -/
theorem failsafe_mirror_firmware :
    let b : Build := { embedded := true, disableFailsafe := false }
    let blank : Connection :=
      { protocolVersion := 1
        caps := { nbPins := firmwareNbPins, pinsMaskType := [] }
        pinsState := []
        failsafe := none }
    let mask : Mask := List.replicate 9 false ++ [true] ++ List.replicate 5 false ++ [true]
    let calls : List FailsafeMaskCall :=
      [⟨mask, pinTypePwm16, 7#16, [0x8001#16, 3#16]⟩,
        ⟨List.replicate 15 false ++ [true], pinTypeDigital, 40000#16, [1#16]⟩]
    let table : Failsafe :=
      { timeout := 40000#16
        pinsFailsafe := List.replicate 9 ⟨pinTypeDisabled, 0#16⟩ ++ [⟨pinTypePwm16, 0x8001#16⟩] ++
          List.replicate 5 ⟨pinTypeDisabled, 0#16⟩ ++ [⟨pinTypeDigital, 1#16⟩] }
    ∃ c d, connectionInitResources hostBuild blank = some c ∧
      connectionInitResources b blank = some d.conn ∧
      ∃ c' d', runFailsafeCalls b calls c d = some (c', d') ∧
        c'.failsafe = some table ∧ d'.conn.failsafe = some table := by
  intro b blank mask calls table
  obtain ⟨c, hc⟩ : ∃ c, connectionInitResources hostBuild blank = some c :=
    ⟨_, connectionInitResources_eq hostBuild fun _ => rfl⟩
  obtain ⟨dc, hd⟩ : ∃ dc, connectionInitResources b blank = some dc :=
    ⟨_, connectionInitResources_eq b fun _ => rfl⟩
  have hcalls : ∀ call ∈ calls, call.InRange firmwareNbPins.toNat := by
    intro call hcall
    rcases List.mem_pair.mp hcall with rfl | rfl
    · refine ⟨by decide, by decide, by decide, fun v _ => ?_⟩
      have hwide : getTypeBitsNb pinTypePwm16 = 16 := rfl
      rw [hwide]
      exact v.isLt
    · refine ⟨by decide, by decide, by decide, fun v hv => ?_⟩
      have hone : getTypeBitsNb pinTypeDigital = 1 := rfl
      rw [List.mem_singleton.mp hv, hone]
      decide
  -- Both sides start from the initial table and end with the calls applied to it.
  obtain ⟨f, hf, hsame, hruns⟩ := failsafe_mirror (d := { conn := dc, nextId := 0 }) rfl
    (by decide) rfl rfl hc hd hcalls
  obtain ⟨⟨c', d'⟩, hrun⟩ := Option.isSome_iff_exists.mp (hruns (Or.inr (by decide)))
  obtain ⟨hdriver, hdevice⟩ := hsame c' d' hrun
  have htable : (initialFailsafe b blank.caps.nbPins.toNat).map
      (applyFailsafeCalls blank.caps.nbPins.toNat calls) = some table := by
    decide +kernel
  rw [hf, Option.map_some] at htable
  rw [htable] at hdriver hdevice
  exact ⟨c, { conn := dc, nextId := 0 }, hc, hd, c', d', hrun, hdriver, hdevice⟩

end Runs

end PinProtocol
